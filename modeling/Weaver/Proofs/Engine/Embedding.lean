import Weaver.Proofs.Engine.Soundness

/-!
# Engines with embedding code

Recipes tell what supplied factories and injectors do. Whether resolutions are sound does not depend
on that: any other code can stand in their place. It may resolve, call, load, bind and store as it
likes, as long as it leads from valid hosts to valid hosts and hands out values that it has got.

A resolution checks that an instance is of the type that was asked for, and ends much later, with an
injector and whatever that runs in between. But an instance goes on to be one.

Three things live here:

* `Embedding`, code in the place of recipes, and engines over it;
* `Engine.nextWith_recipes`, by which an engine of the model is one with recipes for its embedding,
  and `Engine.agree_ofLevelWith`, for embeddings that give up where recipes may go on;
* `Engine.sound_ofLevelWith`, by which engines of every level are sound, over all embeddings that
  are sound over sound engines, and `Engine.sound_unlimited`.
-/

namespace Weaver

open Host

/-- What runs where a supplied factory or a supplied injector is called for. -/
structure Embedding where
  factory : SuppliedFactory → ContainerRef → Run Value
  injector : SuppliedInjector → Value → ContainerRef → Run Unit

/-! ## Engines over an embedding -/

namespace Engine

variable (e : Engine) (code : Embedding)

/-- Builds an instance. -/
def runFactoryWith (factory : Factory) (c : ContainerRef) : Run Value :=
  match factory with
  | .supplied factory => code.factory factory c
  | .woven handle => e.runFactory (.woven handle) c
  | .introspected ty => e.runFactory (.introspected ty) c

/-- Fills the fields of an instance. -/
def runInjectorWith (injector : Injector) (instance_ : Value) (c : ContainerRef) : Run Unit :=
  match injector with
  | .supplied injector => code.injector injector instance_ c
  | .woven handle => e.runInjector (.woven handle) instance_ c
  | .introspected owner fields => e.runInjector (.introspected owner fields) instance_ c

/-- Produces an instance for a binding. -/
def produceWith (c : ContainerRef) (b : Binding) : Run Value :=
  match b.held, b.factory with
  | some value, _ => return value
  | none, some factory => code.factory factory c
  | none, none => do
    let factory ← Run.factoryOf b.concrete
    e.runFactoryWith code factory c

/-- Resolves a type through a binding. -/
def resolveBindingWith (c : ContainerRef) (ty : String) (ref : BindingRef) : Run Value := do
  let b := (← get).binding ref
  if b.resolved then
    let value := b.held.getD .null
    checkInstance value ty
    return value
  if b.producing then Run.fault (.dependencyCycle ty b.requested)
  Run.between (·.markProducing ref true) (·.markProducing ref false) do
    let produced ← e.produceWith code c b
    checkInstance produced ty
    if let some injector ← Run.injectorOf? ty then e.runInjectorWith code injector produced c
    settle ref produced
    return produced

/-- Resolves a type, unless too many resolutions of the container are active. -/
def resolveNextWith (c : ContainerRef) (ty : String) : Run Value := do
  if maxResolveDepth ≤ ((← get).container c).depth then Run.fault (.resolutionTooDeep ty)
  Run.between (·.enterResolution c) (·.leaveResolution c) do
    match (← get).bindingFor? c ty with
    | none => throw (.notFound ty)
    | some ref => e.resolveBindingWith code c ty ref

/-- The engine of one level more, over an embedding. -/
def nextWith : Engine := ⟨e.callNext, e.resolveNextWith code⟩

/-- The engine of a level, over embedding code that runs on engines itself. -/
def ofLevelWith (code : Engine → Embedding) : ℕ → Engine
  | 0 => ofLevel 0
  | level + 1 => (ofLevelWith code level).nextWith (code (ofLevelWith code level))

/-! ### Recipes as embeddings -/

/-- Recipes, followed on an engine. -/
def recipes : Embedding where
  factory := e.runSuppliedFactory
  injector injector instance_ c := do
    let call ← Run.countCall injector.counter
    e.runInjectorSteps call c instance_ injector.steps

lemma runFactoryWith_recipes (factory : Factory) (c : ContainerRef) :
    e.runFactoryWith e.recipes factory c = e.runFactory factory c := by
  cases factory <;> rfl

lemma runInjectorWith_recipes (injector : Injector) (instance_ : Value) (c : ContainerRef) :
    e.runInjectorWith e.recipes injector instance_ c = e.runInjector injector instance_ c := by
  cases injector <;> rfl

lemma produceWith_recipes (c : ContainerRef) (b : Binding) :
    e.produceWith e.recipes c b = e.produce c b := by
  unfold produceWith produce
  simp only [runFactoryWith_recipes]
  rfl

lemma resolveBindingWith_recipes (c : ContainerRef) (ty : String) (ref : BindingRef) :
    e.resolveBindingWith e.recipes c ty ref = e.resolveBinding c ty ref := by
  unfold resolveBindingWith resolveBinding
  simp only [produceWith_recipes, runInjectorWith_recipes]
  rfl

/-- The engine of one level more has recipes for its embedding. -/
theorem nextWith_recipes : e.nextWith e.recipes = e.next := by
  have resolve : e.resolveNextWith e.recipes = e.resolveNext := by
    funext c ty
    unfold resolveNextWith resolveNext
    simp only [resolveBindingWith_recipes]
    rfl
  rw [nextWith, next, resolve]

lemma ofLevelWith_recipes (level : ℕ) : ofLevelWith recipes level = ofLevel level := by
  induction level with
  | zero => rfl
  | succ level ih => rw [ofLevelWith, ih, nextWith_recipes, ofLevel]

end Engine

/-! ### Embeddings that give up -/

/-- What ends with the embedding ends as it does with the recipes of an engine. -/
structure Embedding.Agree (code : Embedding) (e' : Engine) : Prop where
  factory (h : Host) (factory : SuppliedFactory) (c : ContainerRef) :
    Run.AgreeAt 0 h (code.factory factory c) (e'.recipes.factory factory c)
  injector (h : Host) (injector : SuppliedInjector) (instance_ : Value) (c : ContainerRef) :
    Run.AgreeAt 0 h (code.injector injector instance_ c) (e'.recipes.injector injector instance_ c)

namespace Engine.Agree

open Run (AgreeAt)

variable {e e' : Engine} {code : Embedding} {c : ContainerRef} {ty : String} {h : Host}
  (agree : Agree 0 e e') (acts : code.Agree e')
include agree acts

lemma runFactoryWith (factory : Factory) :
    AgreeAt 0 h (e.runFactoryWith code factory c) (e'.runFactory factory c) := by
  cases factory with
  | supplied factory => exact acts.factory h factory c
  | woven handle => exact agree.runFactory (.woven handle) c
  | introspected ty => exact agree.runFactory (.introspected ty) c

lemma runInjectorWith (injector : Injector) (instance_ : Value) :
    AgreeAt 0 h (e.runInjectorWith code injector instance_ c)
      (e'.runInjector injector instance_ c) := by
  cases injector with
  | supplied injector => exact acts.injector h injector instance_ c
  | woven handle => exact agree.runInjector (.woven handle) instance_ c
  | introspected owner fields => exact agree.runInjector (.introspected owner fields) instance_ c

lemma produceWith (b : Binding) : AgreeAt 0 h (e.produceWith code c b) (e'.produce c b) := by
  rcases b with ⟨requested, concrete, _ | value, _ | factory⟩
  · exact .bind (.factoryOf concrete) fun factory _ => agree.runFactoryWith acts factory
  · exact acts.factory h factory c
  all_goals exact .pure value

lemma resolveBindingWith (ref : BindingRef) :
    AgreeAt 0 h (e.resolveBindingWith code c ty ref) (e'.resolveBinding c ty ref) := by
  refine .get_bind ?_
  by_cases resolved : (h.binding ref).resolved
  · rw [if_pos resolved, if_pos resolved]
    exact .bind (checkInstance _ ty) fun _ _ => .pure _
  rw [if_neg resolved, if_neg resolved]
  by_cases producing : (h.binding ref).producing
  · exact .check fun idle => absurd producing idle
  have idle : (h.binding ref).producing = false := by simpa using producing
  refine .check fun _ => .between id (.production ref idle) ?_
  refine .bind (agree.produceWith acts _) fun produced _ =>
    .bind (checkInstance produced ty) fun _ _ => .bind (.injectorOf? ty) fun injector _ => ?_
  cases injector with
  | none => exact .bind (settle ref produced) fun _ _ => .pure _
  | some injector =>
    exact .bind (agree.runInjectorWith acts injector produced) fun _ _ =>
      .bind (settle ref produced) fun _ _ => .pure _

lemma resolveNextWith :
    AgreeAt 0 h (e.resolveNextWith code c ty) (e'.resolveNext c ty) := by
  refine .get_bind ?_
  by_cases room : maxResolveDepth ≤ (h.container c).depth
  · exact .check fun free => absurd room free
  refine .check fun _ => .between (k := 0) (fun none => absurd none (Nat.not_lt_zero _))
    (.resolution c (Nat.lt_of_not_le room)) (.get_bind ?_)
  cases (h.enterResolution c).bindingFor? c ty with
  | none => exact .throw _
  | some ref => exact agree.resolveBindingWith acts ref

end Engine.Agree

open Run (SoundAt anything)

/-- From a valid host the embedding leads on, and the instances that it makes exist. -/
structure Embedding.Sound (code : Embedding) : Prop where
  factory {h : Host} {factory : SuppliedFactory} (known : h.KnowsAll factory.values)
    (c : ContainerRef) : SoundAt h (code.factory factory c) Host.Knows
  injector {h : Host} {injector : SuppliedInjector} {instance_ : Value}
    (known : h.KnowsAll injector.values) (there : h.Knows instance_) (c : ContainerRef) :
    SoundAt h (code.injector injector instance_ c) anything

namespace Engine.Sound

variable {e : Engine} {code : Embedding} {h : Host}

lemma recipes (sound : e.Sound) : e.recipes.Sound where
  factory known c := sound.runSuppliedFactory known c
  injector known _ c := sound.runSuppliedInjector known _ c

section Next

variable (sound : e.Sound) (acts : code.Sound)
include sound acts

lemma runFactoryWith {factory : Factory} (known : h.KnowsAll factory.values) (c : ContainerRef) :
    SoundAt h (e.runFactoryWith code factory c) Host.Knows := by
  cases factory with
  | supplied factory => exact acts.factory known c
  | woven handle => exact sound.runFactory known c
  | introspected ty => exact sound.runFactory known c

lemma runInjectorWith {injector : Injector} {instance_ : Value}
    (known : h.KnowsAll injector.values) (there : h.Knows instance_) (c : ContainerRef) :
    SoundAt h (e.runInjectorWith code injector instance_ c) anything := by
  cases injector with
  | supplied injector => exact acts.injector known there c
  | woven handle => exact sound.runInjector known there c
  | introspected owner fields => exact sound.runInjector known there c

lemma produceWith (c : ContainerRef) {b : Binding} (known : h.KnowsAll b.values) :
    SoundAt h (e.produceWith code c b) Host.Knows := by
  unfold Engine.produceWith
  split
  next _ _ value held => exact .pure (known value (Binding.mem_values_of_held held))
  next factory held made =>
    refine acts.factory (fun v member => known v ?_) c
    rw [Binding.values, held, made]
    exact member
  · exact .bind (.factoryOf _) fun factory _ _ values => sound.runFactoryWith acts values c

/-- The instance that is made is checked, and whatever its injector runs, the instance goes on to be
one. -/
lemma resolveBindingWith (c : ContainerRef) (ty : String) (ref : BindingRef) :
    SoundAt h (e.resolveBindingWith code c ty ref) fun h' value => h'.Fits value ty := by
  refine .of_valid fun valid => .get_bind ?_
  have values : h.KnowsAll (h.binding ref).values := valid.bindings ref
  by_cases resolved : (h.binding ref).resolved
  · have held : h.Knows ((h.binding ref).held.getD .null) := by
      cases held : (h.binding ref).held with
      | none => trivial
      | some value => exact values value (Binding.mem_values_of_held held)
    rw [if_pos resolved]
    exact .bind (.checkInstance held ty) fun _ _ _ fits => .pure fits
  rw [if_neg resolved]
  have marks (producing : Bool) (h' : Host) (valid : h'.Valid) :
      h'.Leads (h'.markProducing ref producing) :=
    .step (.markProducing ref producing) (valid.updateBinding ref (valid.bindings ref))
  have begun := marks true h valid
  refine .check fun _ => .between (fun _ => begun) (marks false)
    (fun _ _ leads fits => fits.lead leads) ?_
  refine .bind (sound.produceWith acts c (values.lead begun)) fun produced h₁ _ known =>
    .bind (.checkInstance known ty) fun _ h₂ _ fits =>
    .bind (.injectorOf? ty) fun injector h₃ leads₃ supplied => ?_
  have fits := fits.lead leads₃
  cases injector with
  | none => exact .bind (.settle ref fits.known) fun _ _ leads _ => .pure (fits.lead leads)
  | some injector =>
    refine .bind (sound.runInjectorWith acts (supplied injector rfl) fits.known c)
      fun _ h₄ leads₄ _ => ?_
    have fits := fits.lead leads₄
    exact .bind (.settle ref fits.known) fun _ _ leads _ => .pure (fits.lead leads)

lemma resolveNextWith (h : Host) (c : ContainerRef) (ty : String) :
    SoundAt h (e.resolveNextWith code c ty) fun h' value => h'.Fits value ty := by
  refine .get_bind ?_
  by_cases room : maxResolveDepth ≤ (h.container c).depth
  · exact .check fun free => absurd room free
  have room : (h.container c).depth < maxResolveDepth := Nat.lt_of_not_le room
  have opens (valid : h.Valid) : h.Leads (h.enterResolution c) :=
    .step (.enterResolution c room) (valid.of_parts rfl rfl rfl rfl)
  have closes (h' : Host) (valid : h'.Valid) : h'.Leads (h'.leaveResolution c) :=
    .step (.leaveResolution c) (valid.of_parts rfl rfl rfl rfl)
  refine .check fun _ => .between opens closes (fun _ _ leads fits => fits.lead leads)
    (.get_bind ?_)
  cases (h.enterResolution c).bindingFor? c ty with
  | none => exact .throw _
  | some ref => exact sound.resolveBindingWith acts c ty ref

/-- One level up from a sound engine is a sound engine. -/
theorem nextWith : (e.nextWith code).Sound :=
  ⟨fun owner method known => sound.callNext owner method known, sound.resolveNextWith acts⟩

end Next

end Engine.Sound

namespace Engine

/-- Engines of every level are sound, whatever the embedding code does with a sound engine. -/
theorem sound_ofLevelWith {code : Engine → Embedding}
    (acts : ∀ e : Engine, e.Sound → (code e).Sound) (level : ℕ) :
    (ofLevelWith code level).Sound := by
  induction level with
  | zero =>
    refine ⟨fun owner method known valid r h' run => ?_, fun h c ty valid r h' run => ?_⟩
    · cases run
    · cases run
  | succ level ih => exact ih.nextWith (acts _ ih)

lemma sound_ofLevel (level : ℕ) : (ofLevel level).Sound := by
  rw [← ofLevelWith_recipes]
  exact sound_ofLevelWith (fun e sound => sound.recipes) level

/-- What is shown over sound engines is true of a host's own operations. -/
lemma soundAt_withEngine {α : Type} {code : Engine → Run α} {h : Host} {P : Host → α → Prop}
    (sound : ∀ {e : Engine}, e.Sound → SoundAt h (code e) P) :
    SoundAt h (Host.withEngine code) P := by
  intro valid r h' run
  rw [run_withEngine] at run
  exact sound (sound_ofLevel _) valid run

theorem sound_unlimited : unlimited.Sound where
  call owner method known := soundAt_withEngine fun sound => sound.call owner method known
  resolve h c ty := soundAt_withEngine fun sound => sound.resolve h c ty

end Engine
end Weaver
