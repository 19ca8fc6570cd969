import Weaver.Proofs.Engine.Levels
import Weaver.Proofs.Engine.Rules

/-!
# Hosts that code treats alike

What code sees of containers and bindings is which binding is found for a type and what that
binding says; and of the counters of calls and resolutions, whether they have come to their limits.
Two hosts may differ in the rest without making a difference to code.

Three things live here:

* `Host.Likeness`, what relations between two hosts have to preserve for this, and `Run.AlikeAt`,
  two runs that take the same course on two such hosts;
* one lemma for each function of the engine, by which it takes the same course over engines that do;
* `Engine.alike_ofLevel` and `Engine.alikeAt_withEngine`, by which all code does.
-/

namespace Weaver

open Host

/-! ## Likenesses -/

/-- The change neither looks at containers, bindings and active calls nor touches them. -/
def Host.Neutral (u : Host → Host) : Prop :=
  ∀ h containers bindings callDepth,
    u { h with containers, bindings, callDepth } = { u h with containers, bindings, callDepth }

namespace Host.Neutral

variable {u : Host → Host} (neutral : Neutral u) (h : Host)
include neutral

lemma apply_eq : u h = { u h with
    containers := h.containers, bindings := h.bindings, callDepth := h.callDepth } :=
  neutral h h.containers h.bindings h.callDepth

lemma containers : (u h).containers = h.containers := by
  rw [neutral.apply_eq]

lemma bindings : (u h).bindings = h.bindings := by
  rw [neutral.apply_eq]

lemma callDepth : (u h).callDepth = h.callDepth := by
  rw [neutral.apply_eq]

end Host.Neutral

/-- A relation between hosts that code preserves, if a run on the second host takes the same course
as one on the first. The first run may come to errors that excuse the second from that. -/
structure Host.Likeness where
  /-- The two hosts are alike. -/
  Alike : Host → Host → Prop
  /-- A binding of the first host and the one in its place on the second. -/
  Twins : BindingRef → BindingRef → Prop
  /-- The error is an excuse. -/
  Excuses : HostError → Prop
  /-- Code does not recover from excuses. -/
  fatal {e : HostError} : Excuses e → e.isRecoverable = false
  /-- Hosts that are alike have everything in common but containers, bindings and active calls. -/
  parts {h g : Host} : Alike h g →
    g = { h with
      containers := g.containers, bindings := g.bindings, callDepth := g.callDepth }
  size {h g : Host} : Alike h g → g.containers.size = h.containers.size
  /-- What they have in common may change. -/
  update {h g : Host} {u : Host → Host} : Neutral u → Alike h g → Alike (u h) (u g)
  bind {h g : Host} (c : ContainerRef) (ty : String) : Alike h g →
    Alike (h.bind c ty).2 (g.bind c ty).2 ∧ Twins (h.bind c ty).1 (g.bind c ty).1
  /-- The second host has room for a call if the first one has. -/
  enterCall {h g : Host} : Alike h g → h.callDepth < maxCallDepth →
    g.callDepth < maxCallDepth ∧ Alike h.enterCall g.enterCall
  leaveCall {h g : Host} : Alike h g → Alike h.leaveCall g.leaveCall
  callTooDeep {h g : Host} (ty method : String) : Alike h g → maxCallDepth ≤ h.callDepth →
    g.callDepth < maxCallDepth → Excuses (.execution (.callTooDeep ty method))
  /-- The second host has room for a resolution if the first one has. -/
  enterResolution {h g : Host} {c : ContainerRef} : Alike h g →
    (h.container c).depth < maxResolveDepth →
    (g.container c).depth < maxResolveDepth ∧ Alike (h.enterResolution c) (g.enterResolution c)
  leaveResolution {h g : Host} (c : ContainerRef) : Alike h g →
    Alike (h.leaveResolution c) (g.leaveResolution c)
  resolutionTooDeep {h g : Host} {c : ContainerRef} (ty : String) : Alike h g →
    maxResolveDepth ≤ (h.container c).depth → (g.container c).depth < maxResolveDepth →
    Excuses (.execution (.resolutionTooDeep ty))
  /-- A type has a binding on both hosts or on neither. -/
  bindingFor {h g : Host} (c : ContainerRef) (ty : String) : Alike h g →
    Option.Rel Twins (h.bindingFor? c ty) (g.bindingFor? c ty)
  binding {h g : Host} {ref ref' : BindingRef} : Alike h g → Twins ref ref' →
    g.binding ref' = h.binding ref
  updateBinding {h g : Host} {ref ref' : BindingRef} (f : Binding → Binding) : Alike h g →
    Twins ref ref' → Alike (h.updateBinding ref f) (g.updateBinding ref' f)

namespace Host.Likeness

variable (like : Likeness) {h g : Host} (same : like.Alike h g)
include same

lemma obtain_fst (source : Source) : (g.obtain source).1 = (h.obtain source).1 := by
  rw [like.parts same]
  cases source <;> rfl

lemma obtain (source : Source) : like.Alike (h.obtain source).2 (g.obtain source).2 := by
  refine like.update (u := fun h => (h.obtain source).2) (fun _ _ _ _ => ?_) same
  cases source <;> rfl

/-- A store ends in the same way on both hosts. -/
lemma setDeclared? (ref : ObjectRef) (owner field : String) (value : Value) :
    (h.setDeclared? ref owner field value = none ∧ g.setDeclared? ref owner field value = none) ∨
      ∃ h' g', h.setDeclared? ref owner field value = some h' ∧
        g.setDeclared? ref owner field value = some g' ∧ like.Alike h' g' := by
  have found : g.getDeclared? ref owner field = h.getDeclared? ref owner field := by
    rw [like.parts same]
    rfl
  rw [Host.setDeclared?, Host.setDeclared?, found]
  cases (h.getDeclared? ref owner field).isSome with
  | true =>
    refine .inr ⟨_, _, rfl, rfl, like.update (u := fun h => { h with
      objects := h.objects.modify ref.index fun o =>
        { o with slots := storeSlot owner field value o.slots } }) (fun _ _ _ _ => rfl) same⟩
  | false => exact .inl ⟨rfl, rfl⟩

lemma configureStep {ref ref' : BindingRef} (twins : like.Twins ref ref') (step : BindingStep) :
    like.Alike (h.configureStep ref step) (g.configureStep ref' step) := by
  cases step with
  | madeAs concrete => exact like.updateBinding _ same twins
  | fromInstance source =>
    rw [Host.configureStep, Host.configureStep]
    dsimp only
    rw [like.obtain_fst same source]
    exact like.updateBinding _ (like.obtain same source) twins
  | fromFactory recipe =>
    have counter : g.addCounter.1 = h.addCounter.1 := by
      rw [like.parts same]
      rfl
    rw [Host.configureStep, Host.configureStep]
    dsimp only
    rw [counter]
    exact like.updateBinding _
      (like.update (u := fun h => h.addCounter.2) (fun _ _ _ _ => rfl) same) twins
  | asSingleton => exact like.updateBinding _ same twins
  | asTransient => exact like.updateBinding _ same twins

lemma configure {ref ref' : BindingRef} (twins : like.Twins ref ref') (steps : List BindingStep) :
    like.Alike (h.configure ref steps) (g.configure ref' steps) := by
  induction steps generalizing h g with
  | nil => exact same
  | cons step rest ih => exact ih (like.configureStep same twins step)

lemma declare (c : ContainerRef) (ty : String) (steps : List BindingStep) :
    like.Alike (h.declareWith c ty steps) (g.declareWith c ty steps) :=
  have ⟨bound, twins⟩ := like.bind c ty same
  like.configure bound twins steps

end Host.Likeness

/-! ## Runs on two hosts -/

/-- Where the first run ends on the first host, the second ends on the second in the same way and
leaves hosts that are alike as well, unless it is excused. -/
def Run.AlikeAt {α : Type} (like : Likeness) (h g : Host) (x y : Run α) : Prop :=
  like.Alike h g → ∀ ⦃r : Except HostError α⦄ ⦃h' : Host⦄, x.run h = some (r, h') →
    (∃ e, r = .error e ∧ like.Excuses e) ∨ ∃ g', y.run g = some (r, g') ∧ like.Alike h' g'

namespace Run.AlikeAt

variable {α β : Type} {like : Likeness} {h g h' g' : Host} {x y : Run α} {f f' : α → Run β}

lemma of_run {r : Except HostError α} (first : x.run h = some (r, h'))
    (second : like.Alike h g → y.run g = some (r, g') ∧ like.Alike h' g') :
    AlikeAt like h g x y := by
  intro alike r₁ h₁ run
  rw [first] at run
  cases run
  exact .inr ⟨g', second alike⟩

lemma pure (a : α) : AlikeAt like h g (Pure.pure a) (Pure.pure a) :=
  of_run rfl fun alike => ⟨rfl, alike⟩

lemma throw (e : HostError) : AlikeAt like h g (throw e : Run α) (throw e) :=
  of_run rfl fun alike => ⟨rfl, alike⟩

lemma fault (cause : ExecutionFault) :
    AlikeAt like h g (Run.fault cause : Run α) (Run.fault cause) :=
  throw _

lemma exhausted : AlikeAt like h g (Run.exhausted : Run α) y := by
  intro _ r h' run
  cases run

/-- A fault that is an excuse, whatever the second run does. -/
lemma excused {γ : Type} {cause : ExecutionFault} {f : γ → Run α}
    (excuse : like.Excuses (.execution cause)) :
    AlikeAt like h g (Run.fault cause >>= f) y := by
  intro _ r h' run
  cases run
  exact .inl ⟨_, rfl, excuse⟩

lemma bind (first : AlikeAt like h g x y) (second : ∀ a h' g', AlikeAt like h' g' (f a) (f' a)) :
    AlikeAt like h g (x >>= f) (y >>= f') := by
  intro alike r h₂ run
  rcases outcome : x.run h with _ | ⟨e | a, h₁⟩
  · rw [run_bind, outcome] at run
    cases run
  · rw [run_bind_of_error outcome] at run
    cases run
    rcases first alike outcome with ⟨e, same, excused⟩ | ⟨g₁, other, alike⟩
    · cases same
      exact .inl ⟨e, rfl, excused⟩
    · exact .inr ⟨g₁, run_bind_of_error other, alike⟩
  · rw [run_bind_of_ok outcome] at run
    rcases first alike outcome with ⟨e, same, -⟩ | ⟨g₁, other, alike⟩
    · cases same
    · rw [run_bind_of_ok other]
      exact second a h₁ g₁ alike run

/-- What is read from the hosts may be put to use. -/
lemma get_bind {f f' : Host → Run β} (next : like.Alike h g → AlikeAt like h g (f h) (f' g)) :
    AlikeAt like h g (get >>= f) (get >>= f') :=
  fun alike _ _ run => next alike alike run

/-- Nothing is read from the hosts but what they have in common. -/
lemma read {f : Host → Run β}
    (common : ∀ containers bindings callDepth,
      f { h with containers, bindings, callDepth } = f h)
    (next : AlikeAt like h g (f h) (f h)) : AlikeAt like h g (get >>= f) (get >>= f) := by
  refine get_bind fun alike => ?_
  have same : f g = f h := by
    rw [like.parts alike]
    exact common _ _ _
  rw [same]
  exact next

lemma set_bind {f f' : PUnit → Run β} (alike' : like.Alike h g → like.Alike h' g')
    (next : AlikeAt like h' g' (f ⟨⟩) (f' ⟨⟩)) :
    AlikeAt like h g (set h' >>= f) (set g' >>= f') :=
  fun alike _ _ run => next (alike' alike) run

lemma change {u v : Host → Host} (alike' : like.Alike h g → like.Alike (u h) (v g)) :
    AlikeAt like h g (modify u : Run PUnit) (modify v) :=
  of_run rfl fun alike => ⟨rfl, alike' alike⟩

/-- A change of what hosts have in common. -/
lemma update {u : Host → Host} (neutral : Neutral u) :
    AlikeAt like h g (modify u : Run PUnit) (modify u) :=
  change (like.update neutral)

/-- A check that code makes before it goes on. -/
lemma check {γ : Type} {p : Prop} [Decidable p] {cause : ExecutionFault} {f f' : γ → Run α}
    (next : ¬p → AlikeAt like h g x y) :
    AlikeAt like h g (if p then Run.fault cause >>= f else x)
      (if p then Run.fault cause >>= f' else y) := by
  split
  · exact of_run rfl fun alike => ⟨rfl, alike⟩
  next passed => exact next passed

lemma run_orNone (x : Run α) (h : Host) : x.orNone.run h = (x.run h).map fun
    | (.ok a, h') => (.ok (some a), h')
    | (.error e, h') => (if e.isRecoverable then .ok none else .error e, h') := by
  rw [Run.orNone, run_bind, run_attempt]
  rcases x.run h with _ | ⟨e | a, h'⟩
  · rfl
  · dsimp only [Option.map_some, Option.bind_some]
    split <;> rfl
  · rfl

/-- No excuse is recovered from. -/
lemma orNone (alike : AlikeAt like h g x y) : AlikeAt like h g x.orNone y.orNone := by
  intro before r h' run
  rw [run_orNone, Option.map_eq_some_iff] at run
  obtain ⟨⟨r, h'⟩, run, same⟩ := run
  rcases alike before run with ⟨e, rfl, excused⟩ | ⟨g', other, after⟩
  · cases same
    exact .inl ⟨e, by rw [like.fatal excused]; rfl, excused⟩
  · right
    rw [run_orNone, other]
    cases r with
    | ok a =>
      cases same
      exact ⟨g', rfl, after⟩
    | error e =>
      cases same
      exact ⟨g', rfl, after⟩

lemma between {enter leave enter' leave' : Host → Host}
    (opens : like.Alike h g → like.Alike (enter h) (enter' g))
    (closes : ∀ h' g', like.Alike h' g' → like.Alike (leave h') (leave' g'))
    (alike : AlikeAt like (enter h) (enter' g) x y) :
    AlikeAt like h g (Run.between enter leave x) (Run.between enter' leave' y) := by
  intro before r h' run
  rw [run_between, Option.map_eq_some_iff] at run
  obtain ⟨⟨r, h'⟩, run, same⟩ := run
  cases same
  rcases alike (opens before) run with excused | ⟨g', other, after⟩
  · exact .inl excused
  · exact .inr ⟨leave' g', by rw [run_between, other]; rfl, closes _ _ after⟩

/-- The limit on resolutions is where the second run may be excused. -/
lemma resolution {c : ContainerRef} {ty : String}
    (inside : AlikeAt like (h.enterResolution c) (g.enterResolution c) x y) :
    AlikeAt like h g
      (do
        if maxResolveDepth ≤ ((← get).container c).depth then Run.fault (.resolutionTooDeep ty)
        Run.between (·.enterResolution c) (·.leaveResolution c) x)
      (do
        if maxResolveDepth ≤ ((← get).container c).depth then Run.fault (.resolutionTooDeep ty)
        Run.between (·.enterResolution c) (·.leaveResolution c) y) := by
  refine .get_bind fun same => ?_
  rcases Nat.lt_or_ge (h.container c).depth maxResolveDepth with room | deep
  · have entered := like.enterResolution same room
    rw [if_neg (Nat.not_le_of_lt room), if_neg (Nat.not_le_of_lt entered.1)]
    exact .between (fun _ => entered.2) (fun _ _ => like.leaveResolution c) inside
  · rw [if_pos deep]
    rcases Nat.lt_or_ge (g.container c).depth maxResolveDepth with room' | deep'
    · exact .excused (like.resolutionTooDeep _ same deep room')
    · rw [if_pos deep']
      exact .of_run rfl fun same => ⟨rfl, same⟩

/-! ## Code without recursion -/

lemma allocate (object : HeapObject) :
    AlikeAt like h g (Run.allocate object) (Run.allocate object) := by
  refine get_bind fun same => ?_
  have ref : (g.allocate object).1 = (h.allocate object).1 := by rw [like.parts same]; rfl
  dsimp only
  rw [ref]
  exact set_bind (like.update (u := fun h => (h.allocate object).2) fun _ _ _ _ => rfl) (pure _)

lemma instantiate (ty : String) :
    AlikeAt like h g (Run.instantiate ty) (Run.instantiate ty) := by
  refine read (fun _ _ _ => rfl) ?_
  cases h.types.layout ty with
  | error e => exact throw e
  | ok slots => exact allocate { ty, slots }

lemma obtain (source : Source) : AlikeAt like h g (Run.obtain source) (Run.obtain source) := by
  refine get_bind fun same => ?_
  dsimp only
  rw [like.obtain_fst same source]
  exact set_bind (fun same => like.obtain same source) (pure _)

lemma note (line : String) : AlikeAt like h g (Run.note line) (Run.note line) :=
  update fun _ _ _ _ => rfl

lemma countCall (counter : CounterRef) :
    AlikeAt like h g (Run.countCall counter) (Run.countCall counter) :=
  bind (update fun _ _ _ _ => rfl) fun _ _ _ => read (fun _ _ _ => rfl) (pure _)

lemma registerFactory (ty : String) (factory : Factory) :
    AlikeAt like h g (Run.registerFactory ty factory) (Run.registerFactory ty factory) := by
  refine read (fun _ _ _ => rfl) ?_
  cases h.registry.addFactory ty factory with
  | error e => exact throw e
  | ok registry => exact update fun _ _ _ _ => rfl

lemma registerInjector (ty : String) (injector : Injector) :
    AlikeAt like h g (Run.registerInjector ty injector) (Run.registerInjector ty injector) := by
  refine read (fun _ _ _ => rfl) ?_
  cases h.registry.addInjector ty injector with
  | error e => exact throw e
  | ok registry => exact update fun _ _ _ _ => rfl

lemma registerWoven (kind : EntryKind) (ty : String) (handle : MethodHandle) :
    AlikeAt like h g (Run.registerWoven kind ty handle) (Run.registerWoven kind ty handle) := by
  refine read (fun _ _ _ => rfl) ?_
  dsimp only
  cases h.types.find? handle.owner with
  | none => exact fault _
  | some owner =>
  dsimp only
  cases owner.definition.method? handle.method with
  | none => exact fault _
  | some method =>
  dsimp only
  cases h.types.find? ty with
  | none => exact fault _
  | some target =>
  refine check fun _ => check fun _ => check fun _ => ?_
  cases kind with
  | factory => exact registerFactory ty _
  | injector => exact registerInjector ty _

lemma fallbackFactory? (ty : String) (fallback : Fallback) :
    AlikeAt like h g (Run.fallbackFactory? ty fallback) (Run.fallbackFactory? ty fallback) := by
  cases fallback with
  | introspection => exact read (fun _ _ _ => rfl) (pure _)
  | listed => exact bind (note _) fun _ _ _ => pure _

lemma fallbackInjector? (ty : String) (fallback : Fallback) :
    AlikeAt like h g (Run.fallbackInjector? ty fallback) (Run.fallbackInjector? ty fallback) := by
  cases fallback with
  | introspection => exact read (fun _ _ _ => rfl) (pure _)
  | listed => exact bind (note _) fun _ _ _ => pure _

lemma factoryOf (ty : String) : AlikeAt like h g (Run.factoryOf ty) (Run.factoryOf ty) := by
  refine read (fun _ _ _ => rfl) ?_
  dsimp only
  split
  · exact pure _
  · exact throw _
  · split
    · exact pure _
    · refine bind (fallbackFactory? _ _) fun found _ _ => ?_
      cases found with
      | none => exact throw _
      | some factory => exact bind (update fun _ _ _ _ => rfl) fun _ _ _ => pure _

lemma injectorOf? (ty : String) : AlikeAt like h g (Run.injectorOf? ty) (Run.injectorOf? ty) := by
  refine read (fun _ _ _ => rfl) ?_
  dsimp only
  split
  · exact pure _
  · exact pure _
  · split
    · exact pure _
    · refine bind (fallbackInjector? _ _) fun found _ _ => ?_
      cases found with
      | none => exact pure _
      | some injector => exact bind (update fun _ _ _ _ => rfl) fun _ _ _ => pure _

/-! ### Frames -/

section Frame

variable (f : Engine.Frame)

lemma lookup (ty : String) : AlikeAt like h g (f.lookup ty) (f.lookup ty) := by
  refine read (fun _ _ _ => rfl) ?_
  dsimp only
  cases h.types.find? ty with
  | none => exact fault _
  | some target => exact check fun _ => pure _

lemma checkMember (target : LoadedType) (visibility : Visibility) (member : String) :
    AlikeAt like h g (f.checkMember target visibility member)
      (f.checkMember target visibility member) := by
  unfold Engine.Frame.checkMember
  split
  · exact pure _
  · exact fault _

lemma checkField (target : LoadedType) (field : String) :
    AlikeAt like h g (f.checkField target field) (f.checkField target field) := by
  unfold Engine.Frame.checkField
  split
  · exact checkMember f _ _ _
  · exact fault _

lemma pop (stack : List Value) : AlikeAt like h g (f.pop stack) (f.pop stack) := by
  cases stack with
  | nil => exact fault _
  | cons value stack => exact pure _

lemma popObject (stack : List Value) :
    AlikeAt like h g (f.popObject stack) (f.popObject stack) := by
  refine bind (pop f stack) fun ⟨value, stack⟩ h' g' => ?_
  cases value with
  | object ref => exact pure _
  | _ => exact read (fun _ _ _ => rfl) (fault _)

lemma popMany (count : ℕ) (stack : List Value) :
    AlikeAt like h g (f.popMany count stack) (f.popMany count stack) := by
  unfold Engine.Frame.popMany
  split
  · exact fault _
  · exact pure _

end Frame

end Run.AlikeAt

/-! ## Code over engines -/

/-- An engine whose calls and resolutions take the same course on hosts that are alike. -/
structure Engine.Alike (like : Likeness) (e : Engine) : Prop where
  call (h g : Host) (owner : LoadedType) (method : Method) (args : List Value) :
    Run.AlikeAt like h g (e.call owner method args) (e.call owner method args)
  resolve (h g : Host) (c : ContainerRef) (ty : String) :
    Run.AlikeAt like h g (e.resolve c ty) (e.resolve c ty)

namespace Engine.Alike

open Run (AlikeAt)

variable {like : Likeness} {e : Engine} {h g : Host}

section Calls

variable (alike : e.Alike like)
include alike

lemma invoke (owner method : String) (args : List Value) :
    AlikeAt like h g (e.invoke owner method args) (e.invoke owner method args) := by
  refine .read (fun _ _ _ => rfl) ?_
  cases h.types.find? owner with
  | none => exact .fault _
  | some target =>
  dsimp only
  cases target.definition.methodNamed? method with
  | none => exact .fault _
  | some callee => exact alike.call h g target callee args

lemma invokeHandle (handle : MethodHandle) (args : List Value) :
    AlikeAt like h g (e.invokeHandle handle args) (e.invokeHandle handle args) := by
  refine .read (fun _ _ _ => rfl) ?_
  cases h.types.find? handle.owner with
  | none => exact .fault _
  | some target =>
  dsimp only
  cases target.definition.member? handle.method with
  | none => exact .fault _
  | some callee => exact alike.call h g target callee args

lemma construct (ty : String) (ctor : Uuid) (args : List Value) :
    AlikeAt like h g (e.construct ty ctor args) (e.construct ty ctor args) := by
  refine .read (fun _ _ _ => rfl) ?_
  dsimp only
  cases h.types.find? ty with
  | none => exact .fault _
  | some target =>
  refine .check fun _ => ?_
  cases target.definition.constructor? ctor with
  | none => exact .fault _
  | some callee =>
    exact .bind (.instantiate ty) fun object h' g' =>
      .bind (alike.call h' g' _ _ _) fun _ _ _ => .pure _

lemma tryResolve (c : ContainerRef) (ty : String) :
    AlikeAt like h g (e.tryResolve c ty) (e.tryResolve c ty) :=
  .orNone (alike.resolve h g c ty)

end Calls

/-! ### Recipes -/

mutual

lemma runRecipe (alike : e.Alike like) (call : ℕ) (c : ContainerRef) :
    ∀ (recipe : Recipe) (h g : Host),
      AlikeAt like h g (e.runRecipe call c recipe) (e.runRecipe call c recipe)
  | .give source, _, _ => by
    rw [Engine.runRecipe]
    exact .obtain source
  | .instantiate ty, _, _ => by
    rw [Engine.runRecipe]
    exact .instantiate ty
  | .resolve ty, h, g => by
    rw [Engine.runRecipe]
    exact alike.resolve h g c ty
  | .tryResolve ty, _, _ => by
    rw [Engine.runRecipe]
    exact .bind (alike.tryResolve c ty) fun _ _ _ => .pure _
  | .container, _, _ => by
    rw [Engine.runRecipe]
    exact .pure _
  | .count, _, _ => by
    rw [Engine.runRecipe]
    exact .pure _
  | .log line, _, _ => by
    rw [Engine.runRecipe]
    exact .bind (.note line) fun _ _ _ => .pure _
  | .invoke owner method, _, _ => by
    rw [Engine.runRecipe]
    exact .bind (alike.invoke owner method _) fun _ _ _ => .pure _
  | .bind ty settings, _, _ => by
    rw [Engine.runRecipe]
    exact .get_bind fun _ => .set_bind (fun same => like.declare same c ty settings) (.pure _)
  | .fail error, _, _ => by
    rw [Engine.runRecipe]
    exact .throw error
  | .sequence recipes, h, g => by
    rw [Engine.runRecipe]
    exact alike.runRecipes call c recipes .null h g
  | .after calls error recipe, h, g => by
    rw [Engine.runRecipe]
    split
    · exact .throw error
    · exact alike.runRecipe call c recipe h g

lemma runRecipes (alike : e.Alike like) (call : ℕ) (c : ContainerRef) :
    ∀ (recipes : List Recipe) (last : Value) (h g : Host),
      AlikeAt like h g (e.runRecipes call c last recipes) (e.runRecipes call c last recipes)
  | [], _, _, _ => by
    rw [Engine.runRecipes]
    exact .pure _
  | recipe :: rest, _, h, g => by
    rw [Engine.runRecipes]
    exact .bind (alike.runRecipe call c recipe h g) fun value h' g' =>
      alike.runRecipes call c rest value h' g'

end

section Entries

variable (alike : e.Alike like)
include alike

lemma runSuppliedFactory (factory : SuppliedFactory) (c : ContainerRef) :
    AlikeAt like h g (e.runSuppliedFactory factory c) (e.runSuppliedFactory factory c) :=
  .bind (.countCall _) fun call h' g' => alike.runRecipe call c _ h' g'

lemma runInjectorSteps (call : ℕ) (c : ContainerRef) (instance_ : Value)
    (steps : List InjectorStep) :
    AlikeAt like h g (e.runInjectorSteps call c instance_ steps)
      (e.runInjectorSteps call c instance_ steps) := by
  induction steps generalizing h g with
  | nil => exact .pure _
  | cons step rest ih =>
    cases step with
    | run recipe => exact .bind (alike.runRecipe call c recipe h g) fun _ _ _ => ih
    | assign owner field recipe =>
      unfold Engine.runInjectorSteps
      cases instance_ with
      | object ref =>
        refine .bind (alike.runRecipe call c recipe h g) fun value h' g' =>
          .get_bind fun same => ?_
        rcases like.setDeclared? same ref owner field value with
          ⟨first, second⟩ | ⟨h₁, g₁, first, second, stored⟩
        · simp only [first, second]
          exact .bind (.note _) fun _ _ _ => ih
        · simp only [first, second]
          exact .set_bind (fun _ => stored) (.bind (.note _) fun _ _ _ => ih)
      | _ => exact ih

lemma probe (c : ContainerRef) (params : List Parameter) :
    AlikeAt like h g (e.probe c params) (e.probe c params) := by
  induction params generalizing h g with
  | nil => exact .pure _
  | cons p rest ih =>
    refine .bind (alike.tryResolve c p.ty) fun value _ _ => ?_
    cases value with
    | none => exact .pure _
    | some value => exact .bind ih fun _ _ _ => .pure _

lemma constructFirst (ty : String) (c : ContainerRef) (ctors : List Method) :
    AlikeAt like h g (e.constructFirst ty c ctors) (e.constructFirst ty c ctors) := by
  induction ctors generalizing h g with
  | nil => exact .throw _
  | cons ctor rest ih =>
    refine .bind (alike.probe c ctor.params) fun args _ _ => ?_
    cases args with
    | none => exact ih
    | some args => exact alike.construct ty ctor.id args

lemma runFactory (factory : Factory) (c : ContainerRef) :
    AlikeAt like h g (e.runFactory factory c) (e.runFactory factory c) := by
  cases factory with
  | woven handle =>
    refine .bind (alike.invokeHandle handle _) fun value _ _ => ?_
    cases value with
    | none => exact .fault _
    | some value => exact .pure _
  | supplied factory => exact alike.runSuppliedFactory factory c
  | introspected ty =>
    refine .read (fun _ _ _ => rfl) ?_
    cases h.typeDef? ty with
    | none => exact .throw _
    | some t =>
      dsimp only
      split
      · exact .instantiate ty
      · exact alike.constructFirst ty c _

lemma fillFields (owner : String) (ref : ObjectRef) (c : ContainerRef)
    (fields : List (String × String)) :
    AlikeAt like h g (e.fillFields owner ref c fields) (e.fillFields owner ref c fields) := by
  induction fields generalizing h g with
  | nil => exact .pure _
  | cons field rest ih =>
    refine .bind (alike.resolve h g c field.2) fun value h' g' => .get_bind fun same => ?_
    have ty : (g'.object ref).ty = (h'.object ref).ty := by rw [like.parts same]; rfl
    rcases like.setDeclared? same ref owner field.1 value with
      ⟨first, second⟩ | ⟨h₁, g₁, first, second, stored⟩
    · simp only [first, second, ty]
      exact .fault _
    · simp only [first, second]
      exact .set_bind (fun _ => stored) ih

lemma runInjector (injector : Injector) (instance_ : Value) (c : ContainerRef) :
    AlikeAt like h g (e.runInjector injector instance_ c)
      (e.runInjector injector instance_ c) := by
  cases injector with
  | woven handle => exact .bind (alike.invokeHandle handle _) fun _ _ _ => .pure _
  | supplied injector =>
    exact .bind (.countCall _) fun call _ _ => alike.runInjectorSteps call c instance_ _
  | introspected owner fields =>
    cases instance_ with
    | object ref => exact alike.fillFields owner ref c fields
    | _ => exact .read (fun _ _ _ => rfl) (.throw _)

lemma inject (c : ContainerRef) (instance_ : Value) :
    AlikeAt like h g (e.inject c instance_) (e.inject c instance_) := by
  cases instance_ with
  | object ref =>
    refine .read (fun _ _ _ => rfl) (.bind (.injectorOf? _) fun injector _ _ => ?_)
    cases injector with
    | none => exact .pure _
    | some injector => exact alike.runInjector injector _ c
  | _ => exact .pure _

lemma runHooks (hooks : List MethodHandle) :
    AlikeAt like h g (Host.runHooks e hooks) (Host.runHooks e hooks) := by
  induction hooks generalizing h g with
  | nil => exact .pure _
  | cons hook rest ih => exact .bind (alike.invokeHandle hook _) fun _ _ _ => ih

/-! ### Bodies -/

lemma step (f : Frame) (stack : List Value) (i : Instr) :
    AlikeAt like h g (e.step f stack i) (e.step f stack i) := by
  cases i with
  | loadArg index =>
    simp only [Engine.step]
    split
    · exact .pure _
    · exact .fault _
  | loadConst value => exact .pure _
  | loadField owner field =>
    refine .bind (.lookup f owner) fun target _ _ => .bind (.checkField f target field) fun _ _ _ =>
      .bind (.popObject f stack) fun popped h' g' => ?_
    obtain ⟨ref, stack⟩ := popped
    refine .read (fun _ _ _ => rfl) ?_
    split
    · exact .pure _
    · exact .fault _
  | storeField owner field =>
    refine .bind (.lookup f owner) fun target _ _ => .bind (.checkField f target field) fun _ _ _ =>
      .bind (.pop f stack) fun popped _ _ => ?_
    obtain ⟨value, stack⟩ := popped
    refine .bind (.popObject f stack) fun popped h' g' => .get_bind fun same => ?_
    obtain ⟨ref, stack⟩ := popped
    have ty : (g'.object ref).ty = (h'.object ref).ty := by rw [like.parts same]; rfl
    rcases like.setDeclared? same ref owner field value with
      ⟨first, second⟩ | ⟨h₁, g₁, first, second, stored⟩
    · simp only [first, second, ty]
      exact .fault _
    · simp only [first, second]
      exact .set_bind (fun _ => stored) (.pure _)
  | newObject owner ctor =>
    refine .bind (.lookup f owner) fun target _ _ => ?_
    cases target.definition.constructor? ctor with
    | none => exact .fault _
    | some callee =>
      exact .bind (.checkMember f target _ _) fun _ _ _ => .bind (.popMany f _ stack)
        fun _ _ _ => .bind (alike.construct owner ctor _) fun _ _ _ => .pure _
  | call owner method =>
    refine .bind (.lookup f owner) fun target _ _ => ?_
    cases target.definition.member? method with
    | none => exact .fault _
    | some callee =>
      exact .bind (.checkMember f target _ _) fun _ _ _ => .bind (.popMany f _ stack)
        fun _ h' g' => .bind (alike.call h' g' target callee _) fun _ _ _ => .pure _
  | loadMethod owner method =>
    refine .bind (.lookup f owner) fun target _ _ => ?_
    cases target.definition.method? method with
    | none => exact .fault _
    | some callee =>
      exact .check fun _ => .bind (.checkMember f target _ _) fun _ _ _ => .pure _
  | resolve ty =>
    refine .bind (.pop f stack) fun popped h' g' => ?_
    obtain ⟨value, stack⟩ := popped
    cases value with
    | container c => exact .bind (alike.resolve h' g' c ty) fun _ _ _ => .pure _
    | _ => exact .fault _
  | register kind ty =>
    refine .bind (.pop f stack) fun popped h' g' => ?_
    obtain ⟨value, stack⟩ := popped
    cases value with
    | method handle => exact .bind (.registerWoven kind ty handle) fun _ _ _ => .pure _
    | _ => exact .fault _
  | upcast ty =>
    refine .bind (.pop f stack) fun popped h' g' => .read (fun _ _ _ => ?_) ?_
    · obtain ⟨value, _⟩ := popped
      cases value <;> rfl
    · exact .check fun _ => .pure _
  | print =>
    refine .bind (.pop f stack) fun popped h' g' => .read (fun _ _ _ => ?_) ?_
    · obtain ⟨value, _⟩ := popped
      cases value <;> rfl
    · exact .bind (.update fun _ _ _ _ => rfl) fun _ _ _ => .pure _
  | dup => exact .bind (.pop f stack) fun _ _ _ => .pure _
  | pop => exact .bind (.pop f stack) fun _ _ _ => .pure _
  | ret => exact .pure _

lemma runBody (f : Frame) (stack : List Value) (body : List Instr) :
    AlikeAt like h g (e.runBody f stack body) (e.runBody f stack body) := by
  induction body generalizing h g stack with
  | nil =>
    rw [Engine.runBody]
    exact .pure _
  | cons i rest ih =>
    by_cases ret : i = .ret
    · subst ret
      rw [Engine.runBody]
      exact .pure _
    · rw [Engine.runBody] <;> try exact ret
      exact .bind (alike.step f stack i) fun stack _ _ => ih stack

lemma execute (f : Frame) : AlikeAt like h g (e.execute f) (e.execute f) := by
  refine .bind (alike.runBody f [] _) fun stack _ _ => ?_
  dsimp only
  split
  · exact .bind (.pop f stack) fun _ _ _ => .pure _
  · exact .pure _

end Entries

/-! ### One level more -/

section Next

variable (alike : e.Alike like)
include alike

/-- The limit on calls is where the second run may be excused. -/
lemma callNext (owner : LoadedType) (method : Method) (args : List Value) :
    AlikeAt like h g (e.callNext owner method args) (e.callNext owner method args) := by
  refine .check fun _ => .get_bind fun same => ?_
  rcases Nat.lt_or_ge h.callDepth maxCallDepth with room | deep
  · have entered := like.enterCall same room
    rw [if_neg (Nat.not_le_of_lt room), if_neg (Nat.not_le_of_lt entered.1)]
    exact .between (fun _ => entered.2) (fun _ _ => like.leaveCall) (alike.execute _)
  · rw [if_pos deep]
    rcases Nat.lt_or_ge g.callDepth maxCallDepth with room' | deep'
    · exact .excused (like.callTooDeep _ _ same deep room')
    · rw [if_pos deep']
      exact .of_run rfl fun same => ⟨rfl, same⟩

lemma produce (c : ContainerRef) (b : Binding) :
    AlikeAt like h g (e.produce c b) (e.produce c b) := by
  unfold Engine.produce
  split
  · exact .pure _
  · exact alike.runSuppliedFactory _ c
  · exact .bind (.factoryOf _) fun factory _ _ => alike.runFactory factory c

omit alike in
lemma checkInstance (value : Value) (ty : String) :
    AlikeAt like h g (Engine.checkInstance value ty) (Engine.checkInstance value ty) := by
  refine .read (fun _ _ _ => ?_) ?_
  · cases value <;> rfl
  · split
    · exact .throw _
    · exact .pure _

omit alike in
lemma settle {ref ref' : BindingRef} (twins : like.Twins ref ref') (produced : Value) :
    AlikeAt like h g (Engine.settle ref produced) (Engine.settle ref' produced) := by
  refine .get_bind fun same => ?_
  rw [like.binding same twins]
  dsimp only
  split
  · exact .throw _
  · exact .change fun same => like.updateBinding _ same twins
  · exact .pure _

lemma resolveBinding (c : ContainerRef) (ty : String) {ref ref' : BindingRef}
    (twins : like.Twins ref ref') :
    AlikeAt like h g (e.resolveBinding c ty ref) (e.resolveBinding c ty ref') := by
  refine .get_bind fun same => ?_
  rw [like.binding same twins]
  by_cases resolved : (h.binding ref).resolved
  · rw [if_pos resolved, if_pos resolved]
    exact .bind (checkInstance _ ty) fun _ _ _ => .pure _
  rw [if_neg resolved, if_neg resolved]
  refine .check fun _ => .between (fun same => like.updateBinding _ same twins)
    (fun _ _ same => like.updateBinding _ same twins) ?_
  refine .bind (alike.produce c _) fun produced _ _ =>
    .bind (checkInstance produced ty) fun _ _ _ =>
    .bind (.injectorOf? ty) fun injector _ _ => ?_
  cases injector with
  | none => exact .bind (settle twins produced) fun _ _ _ => .pure _
  | some injector =>
    exact .bind (alike.runInjector injector produced c) fun _ _ _ =>
      .bind (settle twins produced) fun _ _ _ => .pure _

lemma resolveFound (c : ContainerRef) (ty : String) {found found' : Option BindingRef} :
    Option.Rel like.Twins found found' → AlikeAt like h g
      (match found with
        | none => throw (.notFound ty)
        | some ref => e.resolveBinding c ty ref)
      (match found' with
        | none => throw (.notFound ty)
        | some ref => e.resolveBinding c ty ref) := by
  intro twins
  cases twins with
  | none => exact .throw _
  | some twins => exact alike.resolveBinding c ty twins

lemma resolveNext (c : ContainerRef) (ty : String) :
    AlikeAt like h g (e.resolveNext c ty) (e.resolveNext c ty) :=
  .resolution (.get_bind fun same =>
    alike.resolveFound c ty (like.bindingFor c ty same))

lemma next : e.next.Alike like where
  call _ _ := alike.callNext
  resolve _ _ := alike.resolveNext

end Next
end Engine.Alike

namespace Engine

/-- Engines of any level take the same course on hosts that are alike. -/
theorem alike_ofLevel (like : Likeness) (n : ℕ) : (ofLevel n).Alike like := by
  induction n with
  | zero => exact ⟨fun _ _ _ _ _ => .exhausted, fun _ _ _ _ => .exhausted⟩
  | succ n ih => exact ih.next

/-- Code that starts an engine takes the same course on hosts that are alike. -/
lemma alikeAt_withEngine {like : Likeness} {α : Type} {code : Engine → Run α} {h g : Host}
    (alike : ∀ {e : Engine}, e.Alike like → Run.AlikeAt like h g (code e) (code e)) :
    Run.AlikeAt like h g (Host.withEngine code) (Host.withEngine code) := by
  refine .get_bind fun same => ?_
  have levels : g.levels = h.levels := by rw [levels, levels, like.size same]
  rw [levels]
  exact alike (alike_ofLevel like _)

/-- So does loading a module. -/
lemma alikeAt_load (like : Likeness) (m : Module) (h g : Host) :
    Run.AlikeAt like h g (Host.load m) (Host.load m) := by
  refine .read (fun _ _ _ => rfl) ?_
  cases h.isLoaded m.name with
  | true => exact .throw _
  | false =>
  cases plan h.config.mode h.types [] m.types with
  | error fault => exact .throw _
  | ok hooks =>
    exact .bind (.update fun _ _ _ _ => rfl) fun _ _ _ => .read (fun _ _ _ => rfl)
      (.bind (alikeAt_withEngine fun alike => alike.runHooks _) fun _ _ _ =>
        .read (fun _ _ _ => rfl) (.pure _))

end Engine

end Weaver
