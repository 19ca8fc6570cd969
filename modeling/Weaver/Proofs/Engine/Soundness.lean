import Weaver.Proofs.Engine.Levels
import Weaver.Proofs.Engine.Rules
import Weaver.Proofs.Host.Validity

/-!
# Sound code

Code that is given values that exist gives values that exist, and whatever it does keeps the host
valid. Resolutions do more: what they give are instances of the types that were asked for. This file
takes it for granted of the calls and resolutions that code makes, and shows it of the code.

Three things live here:

* `Run.SoundAt`, by which a run leads on and what it gives has a property;
* `Engine.Sound`, what is taken for granted;
* one lemma for each function of the engine, up to calls one level up from a sound engine.
-/

namespace Weaver

open Host

/-- All of some values are known to the host. -/
def Host.KnowsAll (h : Host) (values : List Value) : Prop := ∀ v ∈ values, h.Knows v

lemma Host.KnowsAll.lead {h h' : Host} {values : List Value} (known : h.KnowsAll values)
    (leads : h.Leads h') : h'.KnowsAll values :=
  fun v member => (known v member).lead leads

lemma Host.knowsAll_nil (h : Host) : h.KnowsAll [] := fun _ member => absurd member List.not_mem_nil

lemma Host.knowsAll_cons {h : Host} {v : Value} {values : List Value} :
    h.KnowsAll (v :: values) ↔ h.Knows v ∧ h.KnowsAll values :=
  List.forall_mem_cons

lemma Host.knowsAll_append {h : Host} {values more : List Value} :
    h.KnowsAll (values ++ more) ↔ h.KnowsAll values ∧ h.KnowsAll more :=
  List.forall_mem_append

/-- The values are instances of the types, one of each. -/
def Host.FitAll (h : Host) : List Value → List String → Prop := List.Forall₂ h.Fits

namespace Host.FitAll

variable {h h' : Host} {values : List Value} {types : List String}

lemma lead (fits : h.FitAll values types) (leads : h.Leads h') : h'.FitAll values types :=
  fits.imp fun _ _ fits => fits.lead leads

/-- Instances exist. -/
lemma knowsAll (fits : h.FitAll values types) : h.KnowsAll values := by
  induction fits with
  | nil => exact h.knowsAll_nil
  | cons first _ ih => exact knowsAll_cons.2 ⟨first.known, ih⟩

end Host.FitAll

namespace Host.Valid

variable {h h' : Host}

/-- A value that exists is stored. -/
lemma leads_setDeclared? (valid : h.Valid) {value : Value} (known : h.Knows value)
    {ref : ObjectRef} {owner name : String}
    (stored : h.setDeclared? ref owner name value = some h') : h.Leads h' := by
  have change : Change h h' := .store stored
  obtain ⟨-, rfl⟩ := setDeclared?_eq_some_iff.1 stored
  exact .change change (valid.putDeclared known ref owner name)

/-- A binding is given values that exist, setting by setting. -/
lemma leads_configure (valid : h.Valid) (ref : BindingRef) {steps : List BindingStep}
    (known : h.KnowsAll (BindingStep.valuesOfAll steps)) : h.Leads (h.configure ref steps) := by
  induction steps generalizing h with
  | nil => exact .refl h
  | cons step rest ih =>
    rw [BindingStep.valuesOfAll, knowsAll_append] at known
    have valid' := valid.configureStep ref known.1
    have first : h.Leads (h.configureStep ref step) := .change (.configure ref step) valid'
    exact first.trans (ih valid' (known.2.lead first))

/-- A new binding is given values that exist. -/
lemma leads_declareWith (valid : h.Valid) (c : ContainerRef) (ty : String)
    {steps : List BindingStep} (known : h.KnowsAll (BindingStep.valuesOfAll steps)) :
    h.Leads (h.declareWith c ty steps) := by
  have bound : h.Leads (h.bind c ty).2 := .change (.bind c ty) (valid.bind c ty)
  exact bound.trans ((valid.bind c ty).leads_configure _ (known.lead bound))

end Host.Valid

/-! ## Sound runs -/

/-- From a valid host, the run leads on, and what it gives has a property in the state that it
leaves. -/
def Run.SoundAt {α : Type} (h : Host) (x : Run α) (good : Host → α → Prop) : Prop :=
  h.Valid → ∀ ⦃r : Except HostError α⦄ ⦃h' : Host⦄, x.run h = some (r, h') →
    h.Leads h' ∧ ∀ a, r = .ok a → good h' a

/-- Nothing is said about what a run gives. -/
def Run.anything {α : Type} (_ : Host) (_ : α) : Prop := True

namespace Run.SoundAt

variable {α β : Type} {h h' : Host} {x : Run α} {f : α → Run β} {P : Host → α → Prop}
  {Q : Host → β → Prop}

lemma of_run {r : Except HostError α} (run : x.run h = some (r, h'))
    (leads : h.Valid → h.Leads h') (good : h.Valid → ∀ a, r = .ok a → P h' a) : SoundAt h x P := by
  intro valid r₁ h₁ run₁
  rw [run] at run₁
  cases run₁
  exact ⟨leads valid, good valid⟩

/-- Soundness may be shown for valid hosts only. -/
lemma of_valid (sound : h.Valid → SoundAt h x P) : SoundAt h x P :=
  fun valid => sound valid valid

lemma pure {a : α} (good : P h a) : SoundAt h (Pure.pure a) P :=
  of_run rfl (fun _ => .refl h) fun _ b same => by
    cases same
    exact good

lemma throw (e : HostError) : SoundAt h (throw e : Run α) P :=
  of_run rfl (fun _ => .refl h) fun _ _ same => by cases same

lemma fault (cause : ExecutionFault) : SoundAt h (Run.fault cause : Run α) P := throw _

/-- A weaker property. -/
lemma weaken {P' : Host → α → Prop} (sound : SoundAt h x P) (weaker : ∀ h' a, P h' a → P' h' a) :
    SoundAt h x P' := by
  intro valid r h' run
  obtain ⟨leads, good⟩ := sound valid run
  exact ⟨leads, fun a same => weaker h' a (good a same)⟩

lemma bind (first : SoundAt h x P)
    (second : ∀ a h', h.Leads h' → P h' a → SoundAt h' (f a) Q) : SoundAt h (x >>= f) Q := by
  intro valid r h₂ run
  rcases outcome : x.run h with _ | ⟨_ | a, h₁⟩
  · rw [Run.run_bind, outcome] at run
    cases run
  · rw [Run.run_bind_of_error outcome] at run
    cases run
    exact ⟨(first valid outcome).1, fun _ same => by cases same⟩
  · rw [Run.run_bind_of_ok outcome] at run
    obtain ⟨leads, good⟩ := first valid outcome
    obtain ⟨leads', good'⟩ := second a h₁ leads (good a rfl) (leads.valid valid) run
    exact ⟨leads.trans leads', good'⟩

lemma get_bind {f : Host → Run β} (next : SoundAt h (f h) Q) : SoundAt h (get >>= f) Q :=
  fun valid _ _ run => next valid run

lemma modify {u : Host → Host} (leads : h.Valid → h.Leads (u h)) :
    SoundAt h (modify u : Run PUnit) anything :=
  of_run rfl leads fun _ _ _ => trivial

lemma set_bind {f : PUnit → Run β} (leads : h.Valid → h.Leads h') (next : SoundAt h' (f ⟨⟩) Q) :
    SoundAt h (set h' >>= f) Q := by
  intro valid r h₂ run
  obtain ⟨leads', good⟩ := next ((leads valid).valid valid) run
  exact ⟨(leads valid).trans leads', good⟩

/-- A check that code makes before it goes on. -/
lemma check {γ : Type} {p : Prop} [Decidable p] {cause : ExecutionFault} {f : γ → Run α}
    (next : ¬p → SoundAt h x P) : SoundAt h (if p then Run.fault cause >>= f else x) P := by
  split
  · exact of_run rfl (fun _ => .refl h) fun _ _ same => by cases same
  next passed => exact next passed

lemma ofExcept {e : Except HostError α} (good : ∀ a, e = .ok a → P h a) :
    SoundAt h (Run.ofExcept e) P := by
  cases e with
  | error e => exact throw e
  | ok a => exact pure (good a rfl)

lemma attempt (sound : SoundAt h x P) :
    SoundAt h x.attempt fun h' r => ∀ a, r = .ok a → P h' a := by
  intro valid r h' run
  rw [Run.run_attempt, Option.map_eq_some_iff] at run
  obtain ⟨⟨r, h'⟩, run, same⟩ := run
  cases same
  obtain ⟨leads, good⟩ := sound valid run
  refine ⟨leads, fun outcome same => ?_⟩
  cases same
  exact good

lemma orNone (sound : SoundAt h x P) :
    SoundAt h x.orNone fun h' r => ∀ a, r = some a → P h' a := by
  refine bind sound.attempt fun r h' _ good => ?_
  cases r with
  | ok a =>
    refine pure fun b same => ?_
    cases same
    exact good a rfl
  | error e =>
    dsimp only
    split
    · exact pure fun b same => by cases same
    · exact throw e

/-- A bracket, the opening and closing of which are steps of their own. -/
lemma between {enter leave : Host → Host} (opens : h.Valid → h.Leads (enter h))
    (closes : ∀ h' : Host, h'.Valid → h'.Leads (leave h'))
    (stays : ∀ (h' : Host) (a : α), h'.Leads (leave h') → P h' a → P (leave h') a)
    (body : SoundAt (enter h) x P) : SoundAt h (Run.between enter leave x) P := by
  intro valid r h₂ run
  rw [run_between, Option.map_eq_some_iff] at run
  obtain ⟨⟨r, h'⟩, run, same⟩ := run
  cases same
  have entered := opens valid
  obtain ⟨leads, good⟩ := body (entered.valid valid) run
  have left := closes h' (leads.valid (entered.valid valid))
  exact ⟨(entered.trans leads).trans left, fun a same => stays h' a left (good a same)⟩

end Run.SoundAt

/-! ## Code without recursion -/

namespace Run.SoundAt

variable {h : Host}

lemma allocate {o : HeapObject} (known : ∀ s ∈ o.slots, h.Knows s.value) :
    SoundAt h (Run.allocate o) Host.Knows := by
  refine .get_bind (.set_bind (fun valid => ?_) (.pure ?_))
  · exact .change (.allocate o) (valid.allocate known)
  · show h.objects.size < (h.objects.push o).size
    rw [Array.size_push]
    exact Nat.lt_succ_self _

lemma instantiate (ty : String) : SoundAt h (Run.instantiate ty) Host.Knows := by
  have slots : SoundAt h (Run.ofExcept (h.types.layout ty))
      fun h' slots => ∀ s ∈ slots, h'.Knows s.value :=
    .ofExcept fun slots found => h.knows_of_layout found
  exact .get_bind (.bind slots fun slots h' _ known => .allocate known)

lemma obtain {source : Source} (known : h.KnowsAll source.values) :
    SoundAt h (Run.obtain source) Host.Knows := by
  intro valid r h' run
  obtain ⟨valid', known'⟩ := valid.obtain known
  cases source with
  | fixed value =>
    cases run
    exact ⟨.refl h, fun v same => by cases same; exact known'⟩
  | fresh ty =>
    cases run
    exact ⟨.change (.allocate { ty }) valid', fun v same => by cases same; exact known'⟩
  | kept name =>
    cases run
    exact ⟨.refl h, fun v same => by cases same; exact known'⟩

lemma note (line : String) : SoundAt h (Run.note line) anything :=
  modify fun valid => .change (.note line) (valid.of_parts rfl rfl rfl rfl)

lemma print (line : String) : SoundAt h (Run.print line) anything :=
  modify fun valid => .change (.print line) (valid.of_parts rfl rfl rfl rfl)

lemma countCall (counter : CounterRef) : SoundAt h (Run.countCall counter) anything :=
  .bind (modify fun valid => .change (.count counter) (valid.of_parts rfl rfl rfl rfl))
    fun _ _ _ _ => .get_bind (.pure trivial)

lemma registerFactory (ty : String) {factory : Factory} (known : h.KnowsAll factory.values) :
    SoundAt h (Run.registerFactory ty factory) anything := by
  refine .get_bind ?_
  cases added : h.registry.addFactory ty factory with
  | error e => exact .of_run rfl (fun _ => .refl h) fun _ _ _ => trivial
  | ok registry =>
    refine .of_run rfl (fun valid => .change (.registerFactory added) ?_) fun _ _ _ => trivial
    exact valid.register (fun _ => (Registry.mem_values_of_addFactory added).1) known

lemma registerInjector (ty : String) {injector : Injector} (known : h.KnowsAll injector.values) :
    SoundAt h (Run.registerInjector ty injector) anything := by
  refine .get_bind ?_
  cases added : h.registry.addInjector ty injector with
  | error e => exact .of_run rfl (fun _ => .refl h) fun _ _ _ => trivial
  | ok registry =>
    refine .of_run rfl (fun valid => .change (.registerInjector added) ?_) fun _ _ _ => trivial
    exact valid.register (fun _ => (Registry.mem_values_of_addInjector added).1) known

lemma registerWoven (kind : EntryKind) (ty : String) (handle : MethodHandle) :
    SoundAt h (Run.registerWoven kind ty handle) anything := by
  refine .get_bind ?_
  dsimp only
  cases h.types.find? handle.owner with
  | none => exact .fault _
  | some owner =>
  dsimp only
  cases owner.definition.method? handle.method with
  | none => exact .fault _
  | some method =>
  dsimp only
  cases h.types.find? ty with
  | none => exact .fault _
  | some target =>
  refine .check fun _ => .check fun _ => .check fun _ => ?_
  cases kind with
  | factory => exact .registerFactory ty h.knowsAll_nil
  | injector => exact .registerInjector ty h.knowsAll_nil

/-! ### Ends of resolutions -/

lemma checkInstance {value : Value} (known : h.Knows value) (ty : String) :
    SoundAt h (Engine.checkInstance value ty) fun h' _ => h'.Fits value ty := by
  refine .get_bind ?_
  split
  · exact .throw _
  next passed =>
    have isInstance : h.isInstance value ty = true := by simpa using passed
    exact .pure ⟨known, isInstance⟩

lemma settle (ref : BindingRef) {produced : Value} (known : h.Knows produced) :
    SoundAt h (Engine.settle ref produced) anything := by
  refine .get_bind ?_
  dsimp only
  split
  · exact .throw _
  · refine .modify fun valid => .change (.hold ref produced) (valid.updateBinding ref ?_)
    intro v member
    rcases List.mem_append.1 member with held | made
    · rw [List.mem_singleton.1 held]
      exact known
    · exact valid.bindings ref v (List.mem_append_right _ made)
  · exact .pure trivial

/-! ### Registry lookups -/

lemma fallbackFactory? (ty : String) {fallback : Fallback} (known : h.KnowsAll fallback.values) :
    SoundAt h (Run.fallbackFactory? ty fallback)
      fun h' found => ∀ factory, found = some factory → h'.KnowsAll factory.values := by
  cases fallback with
  | introspection =>
    refine .get_bind (.pure fun factory found => ?_)
    rw [introspectedFactory?] at found
    split at found
    · split at found
      · cases found
      · cases found
        exact h.knowsAll_nil
    · cases found
  | listed factories injectors =>
    refine .bind (.note _) fun _ h' leads _ => .pure fun factory found => ?_
    obtain ⟨supplied, listed, rfl⟩ := Option.map_eq_some_iff.1 found
    intro v member
    have there : v ∈ factories.values SuppliedFactory.values :=
      EntryTable.mem_values_of_find? listed member
    exact (known v (List.mem_append_left _ there)).lead leads

lemma fallbackInjector? (ty : String) {fallback : Fallback} (known : h.KnowsAll fallback.values) :
    SoundAt h (Run.fallbackInjector? ty fallback)
      fun h' found => ∀ injector, found = some injector → h'.KnowsAll injector.values := by
  cases fallback with
  | introspection =>
    refine .get_bind (.pure fun injector found => ?_)
    rw [introspectedInjector?] at found
    split at found
    · split at found
      · cases found
      · cases found
        exact h.knowsAll_nil
    · cases found
  | listed factories injectors =>
    refine .bind (.note _) fun _ h' leads _ => .pure fun injector found => ?_
    obtain ⟨supplied, listed, rfl⟩ := Option.map_eq_some_iff.1 found
    intro v member
    have there : v ∈ injectors.values SuppliedInjector.values :=
      EntryTable.mem_values_of_find? listed member
    exact (known v (List.mem_append_right _ there)).lead leads

lemma factoryOf (ty : String) :
    SoundAt h (Run.factoryOf ty) fun h' factory => h'.KnowsAll factory.values := by
  refine .of_valid fun valid => .get_bind ?_
  dsimp only
  split
  next factory found => exact .pure (valid.factory found)
  · exact .throw _
  next fallback _ supplies =>
    split
    next factory found => exact .pure (valid.cachedFactory found)
    · refine .bind (.fallbackFactory? ty (valid.fallback supplies)) fun found h' _ good => ?_
      cases found with
      | none => exact .throw _
      | some factory =>
        have known : h'.KnowsAll factory.values := good factory rfl
        refine .bind (.modify fun valid' => ?_) fun _ h'' leads _ => .pure (known.lead leads)
        exact .change (.cacheFactory ty factory)
          (valid'.register (fun _ => Registry.mem_values_cacheFactory.1) known)

lemma injectorOf? (ty : String) :
    SoundAt h (Run.injectorOf? ty)
      fun h' found => ∀ injector, found = some injector → h'.KnowsAll injector.values := by
  refine .of_valid fun valid => .get_bind ?_
  dsimp only
  split
  next injector found =>
    refine .pure fun other same => ?_
    cases same
    exact valid.injector found
  · exact .pure fun _ same => by cases same
  next fallback _ supplies =>
    split
    next injector found =>
      refine .pure fun other same => ?_
      cases same
      exact valid.cachedInjector found
    · refine .bind (.fallbackInjector? ty (valid.fallback supplies)) fun found h' _ good => ?_
      cases found with
      | none => exact .pure fun _ same => by cases same
      | some injector =>
        have known : h'.KnowsAll injector.values := good injector rfl
        refine .bind (.modify fun valid' => ?_) fun _ h'' leads _ => .pure fun other same => ?_
        · exact .change (.cacheInjector ty injector)
            (valid'.register (fun _ => Registry.mem_values_cacheInjector.1) known)
        · cases same
          exact known.lead leads

/-! ### Frames -/

section Frame

variable (f : Engine.Frame) {stack : List Value}

lemma lookup (ty : String) : SoundAt h (f.lookup ty) anything := by
  refine .get_bind ?_
  dsimp only
  cases h.types.find? ty with
  | none => exact .fault _
  | some target => exact .check fun _ => .pure trivial

lemma checkMember (target : LoadedType) (visibility : Visibility) (member : String) :
    SoundAt h (f.checkMember target visibility member) anything := by
  unfold Engine.Frame.checkMember
  split
  · exact .pure trivial
  · exact .fault _

lemma checkField (target : LoadedType) (field : String) :
    SoundAt h (f.checkField target field) anything := by
  unfold Engine.Frame.checkField
  split
  · exact .checkMember f _ _ _
  · exact .fault _

lemma pop (known : h.KnowsAll stack) :
    SoundAt h (f.pop stack) fun h' popped => h'.Knows popped.1 ∧ h'.KnowsAll popped.2 := by
  cases stack with
  | nil => exact .fault _
  | cons value stack => exact .pure (knowsAll_cons.1 known)

lemma popObject (known : h.KnowsAll stack) :
    SoundAt h (f.popObject stack) fun h' popped => h'.KnowsAll popped.2 := by
  refine .bind (.pop f known) fun ⟨value, stack⟩ h' _ popped => ?_
  cases value with
  | object ref => exact .pure popped.2
  | _ => exact .get_bind (.fault _)

lemma popMany (known : h.KnowsAll stack) (count : ℕ) :
    SoundAt h (f.popMany count stack) fun h' popped =>
      h'.KnowsAll popped.1 ∧ h'.KnowsAll popped.2 := by
  unfold Engine.Frame.popMany
  split
  · exact .fault _
  · refine .pure ⟨fun v member => known v ?_, fun v member => known v (List.mem_of_mem_drop member)⟩
    exact List.mem_of_mem_take (List.mem_reverse.1 member)

/-! ### Instructions that make no calls -/

variable {e : Engine}

lemma loadArg (args : h.KnowsAll f.args) (known : h.KnowsAll stack) (index : UInt16) :
    SoundAt h (e.step f stack (.loadArg index)) Host.KnowsAll := by
  dsimp only [Engine.step]
  cases found : f.args[index.toNat]? with
  | none => exact .fault _
  | some value => exact .pure (knowsAll_cons.2 ⟨args value (List.mem_of_getElem? found), known⟩)

lemma loadField (known : h.KnowsAll stack) (owner field : String) :
    SoundAt h (e.step f stack (.loadField owner field)) Host.KnowsAll := by
  refine .bind (.lookup f owner) fun target h₁ leads₁ _ => ?_
  refine .bind (.checkField f target field) fun _ h₂ leads₂ _ => ?_
  refine .bind (.popObject f (known.lead (leads₁.trans leads₂))) fun popped h' _ below => ?_
  refine .of_valid fun valid => .get_bind ?_
  cases found : h'.getDeclared? popped.1 owner field with
  | none => exact .fault _
  | some value =>
    obtain ⟨s, slot, rfl⟩ := Option.map_eq_some_iff.1 found
    have stored := valid.slots popped.1 s (List.mem_of_find?_eq_some slot)
    exact .pure (knowsAll_cons.2 ⟨stored, below⟩)

lemma storeField (known : h.KnowsAll stack) (owner field : String) :
    SoundAt h (e.step f stack (.storeField owner field)) Host.KnowsAll := by
  refine .bind (.lookup f owner) fun target h₁ leads₁ _ => ?_
  refine .bind (.checkField f target field) fun _ h₂ leads₂ _ => ?_
  refine .bind (.pop f (known.lead (leads₁.trans leads₂))) fun top h₃ _ popped => ?_
  refine .bind (.popObject f popped.2) fun under h' leads below => .get_bind ?_
  cases stored : h'.setDeclared? under.1 owner field top.1 with
  | none => exact .fault _
  | some h'' =>
    refine .of_valid fun valid => ?_
    have stores : h'.Leads h'' := valid.leads_setDeclared? (popped.1.lead leads) stored
    exact .set_bind (fun _ => stores) (.pure (below.lead stores))

lemma loadMethod (known : h.KnowsAll stack) (owner : String) (method : Uuid) :
    SoundAt h (e.step f stack (.loadMethod owner method)) Host.KnowsAll := by
  refine .bind (.lookup f owner) fun target h₁ leads₁ _ => ?_
  cases target.definition.method? method with
  | none => exact .fault _
  | some callee =>
    refine .check fun _ => .bind (.checkMember f target _ _) fun _ h₂ leads₂ _ => .pure ?_
    exact knowsAll_cons.2 ⟨trivial, known.lead (leads₁.trans leads₂)⟩

lemma register (known : h.KnowsAll stack) (kind : EntryKind) (ty : String) :
    SoundAt h (e.step f stack (.register kind ty)) Host.KnowsAll := by
  refine .bind (.pop f known) fun ⟨value, stack⟩ h' _ popped => ?_
  cases value with
  | method handle =>
    exact .bind (.registerWoven kind ty handle) fun _ _ leads _ => .pure (popped.2.lead leads)
  | _ => exact .fault _

end Frame

end Run.SoundAt

/-! ## Code over engines -/

/-- An engine whose calls give values that exist if they are given such, and whose resolutions give
instances of the types that are asked for. -/
structure Engine.Sound (e : Engine) : Prop where
  call {h : Host} {args : List Value} (owner : LoadedType) (method : Method)
    (known : h.KnowsAll args) :
    Run.SoundAt h (e.call owner method args) fun h' result => h'.KnowsAll result.toList
  resolve (h : Host) (c : ContainerRef) (ty : String) :
    Run.SoundAt h (e.resolve c ty) fun h' value => h'.Fits value ty

namespace Engine.Sound

open Run (SoundAt anything)

variable {e : Engine} {h : Host}

section Calls

variable (sound : e.Sound)
include sound

lemma invoke (owner method : String) {args : List Value} (known : h.KnowsAll args) :
    SoundAt h (e.invoke owner method args) fun h' result => h'.KnowsAll result.toList := by
  refine .get_bind ?_
  cases h.types.find? owner with
  | none => exact .fault _
  | some target =>
  dsimp only
  cases target.definition.methodNamed? method with
  | none => exact .fault _
  | some callee => exact sound.call target callee known

lemma invokeHandle (handle : MethodHandle) {args : List Value} (known : h.KnowsAll args) :
    SoundAt h (e.invokeHandle handle args) fun h' result => h'.KnowsAll result.toList := by
  refine .get_bind ?_
  cases h.types.find? handle.owner with
  | none => exact .fault _
  | some target =>
  dsimp only
  cases target.definition.member? handle.method with
  | none => exact .fault _
  | some callee => exact sound.call target callee known

lemma construct (ty : String) (ctor : Uuid) {args : List Value} (known : h.KnowsAll args) :
    SoundAt h (e.construct ty ctor args) Host.Knows := by
  refine .get_bind ?_
  dsimp only
  cases h.types.find? ty with
  | none => exact .fault _
  | some target =>
  refine .check fun _ => ?_
  cases target.definition.constructor? ctor with
  | none => exact .fault _
  | some callee =>
    refine .bind (.instantiate ty) fun object h' leads made => ?_
    have all : h'.KnowsAll (object :: args) := knowsAll_cons.2 ⟨made, known.lead leads⟩
    exact .bind (sound.call target callee all) fun _ _ leads' _ => .pure (made.lead leads')

lemma tryResolve (c : ContainerRef) (ty : String) :
    SoundAt h (e.tryResolve c ty) fun h' found => ∀ value, found = some value → h'.Fits value ty :=
  .orNone (sound.resolve h c ty)

end Calls

/-! ### Recipes -/

mutual

lemma runRecipe (sound : e.Sound) (call : ℕ) (c : ContainerRef) :
    ∀ (recipe : Recipe) (h : Host), h.KnowsAll recipe.values →
      SoundAt h (e.runRecipe call c recipe) Host.Knows
  | .give source, h, known => by
    rw [Recipe.values] at known
    rw [Engine.runRecipe]
    exact .obtain known
  | .instantiate ty, _, _ => by
    rw [Engine.runRecipe]
    exact .instantiate ty
  | .resolve ty, h, _ => by
    rw [Engine.runRecipe]
    exact (sound.resolve h c ty).weaken fun _ _ fits => fits.known
  | .tryResolve ty, _, _ => by
    rw [Engine.runRecipe]
    refine .bind (sound.tryResolve c ty) fun found h' _ good => .pure ?_
    cases found with
    | none => trivial
    | some value => exact (good value rfl).known
  | .container, _, _ => by
    rw [Engine.runRecipe]
    exact .pure trivial
  | .count, _, _ => by
    rw [Engine.runRecipe]
    exact .pure trivial
  | .log line, _, _ => by
    rw [Engine.runRecipe]
    exact .bind (.note line) fun _ _ _ _ => .pure trivial
  | .invoke owner method, h, _ => by
    rw [Engine.runRecipe]
    have container : h.KnowsAll [.container c] := knowsAll_cons.2 ⟨trivial, h.knowsAll_nil⟩
    refine .bind (sound.invoke owner method container) fun result h' _ good => .pure ?_
    cases result with
    | none => trivial
    | some value => exact good value (List.mem_singleton.2 rfl)
  | .bind ty settings, h, known => by
    rw [Recipe.values] at known
    rw [Engine.runRecipe]
    exact .of_run rfl (fun valid => valid.leads_declareWith c ty known)
      fun _ v same => by cases same; trivial
  | .fail error, _, _ => by
    rw [Engine.runRecipe]
    exact .throw error
  | .sequence recipes, h, known => by
    rw [Recipe.values] at known
    rw [Engine.runRecipe]
    exact sound.runRecipes call c recipes .null h known trivial
  | .after calls error recipe, h, known => by
    rw [Recipe.values] at known
    rw [Engine.runRecipe]
    split
    · exact .throw error
    · exact sound.runRecipe call c recipe h known

lemma runRecipes (sound : e.Sound) (call : ℕ) (c : ContainerRef) :
    ∀ (recipes : List Recipe) (last : Value) (h : Host), h.KnowsAll (Recipe.valuesOfAll recipes) →
      h.Knows last → SoundAt h (e.runRecipes call c last recipes) Host.Knows
  | [], _, _, _, last => by
    rw [Engine.runRecipes]
    exact .pure last
  | recipe :: rest, _, h, known, _ => by
    rw [Recipe.valuesOfAll, knowsAll_append] at known
    rw [Engine.runRecipes]
    exact .bind (sound.runRecipe call c recipe h known.1) fun value h' leads good =>
      sound.runRecipes call c rest value h' (known.2.lead leads) good

end

section Entries

variable (sound : e.Sound)
include sound

lemma runSuppliedFactory {factory : SuppliedFactory} (known : h.KnowsAll factory.values)
    (c : ContainerRef) : SoundAt h (e.runSuppliedFactory factory c) Host.Knows :=
  .bind (.countCall _) fun call h' leads _ => sound.runRecipe call c _ h' (known.lead leads)

lemma runInjectorSteps (call : ℕ) (c : ContainerRef) (instance_ : Value)
    {steps : List InjectorStep} (known : h.KnowsAll (steps.flatMap InjectorStep.values)) :
    SoundAt h (e.runInjectorSteps call c instance_ steps) anything := by
  induction steps generalizing h with
  | nil => exact .pure trivial
  | cons step rest ih =>
    rw [List.flatMap_cons, knowsAll_append] at known
    cases step with
    | run recipe =>
      exact .bind (sound.runRecipe call c recipe h known.1) fun _ _ leads _ =>
        ih (known.2.lead leads)
    | assign owner field recipe =>
      unfold Engine.runInjectorSteps
      cases instance_ with
      | object ref =>
        refine .bind (sound.runRecipe call c recipe h known.1) fun value h' leads good =>
          .get_bind ?_
        dsimp only
        have later := known.2.lead leads
        cases stored : h'.setDeclared? ref owner field value with
        | none => exact .bind (.note _) fun _ _ leads' _ => ih (later.lead leads')
        | some h'' =>
          refine .of_valid fun valid => ?_
          have stores : h'.Leads h'' := valid.leads_setDeclared? good stored
          exact .set_bind (fun _ => stores) (.bind (.note _) fun _ _ leads' _ =>
            ih (later.lead (stores.trans leads')))
      | _ => exact ih known.2

/-- What is resolved for parameters are instances of their types. -/
lemma probe (c : ContainerRef) (params : List Parameter) :
    SoundAt h (e.probe c params) fun h' found =>
      ∀ args, found = some args → h'.FitAll args (params.map (·.ty)) := by
  induction params generalizing h with
  | nil =>
    refine .pure fun args same => ?_
    cases same
    exact .nil
  | cons p rest ih =>
    refine .bind (sound.tryResolve c p.ty) fun found h' _ good => ?_
    cases found with
    | none => exact .pure fun args same => by cases same
    | some value =>
      refine .bind ih fun more h'' leads later => .pure fun args same => ?_
      obtain ⟨values, same', rfl⟩ := Option.map_eq_some_iff.1 same
      exact .cons ((good value rfl).lead leads) (later values same')

lemma constructFirst (ty : String) (c : ContainerRef) (ctors : List Method) :
    SoundAt h (e.constructFirst ty c ctors) Host.Knows := by
  induction ctors generalizing h with
  | nil => exact .throw _
  | cons ctor rest ih =>
    refine .bind (sound.probe c ctor.params) fun found h' _ good => ?_
    cases found with
    | none => exact ih
    | some args => exact sound.construct ty ctor.id (good args rfl).knowsAll

lemma runFactory {factory : Factory} (known : h.KnowsAll factory.values) (c : ContainerRef) :
    SoundAt h (e.runFactory factory c) Host.Knows := by
  cases factory with
  | woven handle =>
    have container : h.KnowsAll [.container c] := knowsAll_cons.2 ⟨trivial, h.knowsAll_nil⟩
    refine .bind (sound.invokeHandle handle container) fun result h' _ good => ?_
    cases result with
    | none => exact .fault _
    | some value => exact .pure (good value (List.mem_singleton.2 rfl))
  | supplied factory => exact sound.runSuppliedFactory known c
  | introspected ty =>
    refine .get_bind ?_
    cases h.typeDef? ty with
    | none => exact .throw _
    | some t =>
      dsimp only
      split
      · exact .instantiate ty
      · exact sound.constructFirst ty c _

lemma fillFields (owner : String) (ref : ObjectRef) (c : ContainerRef)
    (fields : List (String × String)) : SoundAt h (e.fillFields owner ref c fields) anything := by
  induction fields generalizing h with
  | nil => exact .pure trivial
  | cons field rest ih =>
    refine .bind (sound.resolve h c field.2) fun value h' _ fits => .get_bind ?_
    dsimp only
    cases stored : h'.setDeclared? ref owner field.1 value with
    | none => exact .bind (P := anything) (.fault _) fun _ _ _ _ => ih
    | some h'' =>
      exact .set_bind (fun valid => valid.leads_setDeclared? fits.known stored) ih

lemma runSuppliedInjector {injector : SuppliedInjector} (known : h.KnowsAll injector.values)
    (instance_ : Value) (c : ContainerRef) :
    SoundAt h (e.runInjector (.supplied injector) instance_ c) anything :=
  .bind (.countCall _) fun call _ leads _ =>
    sound.runInjectorSteps call c instance_ (known.lead leads)

lemma runInjector {injector : Injector} {instance_ : Value} (known : h.KnowsAll injector.values)
    (there : h.Knows instance_) (c : ContainerRef) :
    SoundAt h (e.runInjector injector instance_ c) anything := by
  cases injector with
  | woven handle =>
    have args : h.KnowsAll [instance_, .container c] :=
      knowsAll_cons.2 ⟨there, knowsAll_cons.2 ⟨trivial, h.knowsAll_nil⟩⟩
    exact .bind (sound.invokeHandle handle args) fun _ _ _ _ => .pure trivial
  | supplied injector => exact sound.runSuppliedInjector known instance_ c
  | introspected owner fields =>
    cases instance_ with
    | object ref => exact sound.fillFields owner ref c fields
    | _ => exact .get_bind (.throw _)

lemma inject (c : ContainerRef) {instance_ : Value} (there : h.Knows instance_) :
    SoundAt h (e.inject c instance_) anything := by
  cases instance_ with
  | object ref =>
    refine .get_bind (.bind (.injectorOf? _) fun injector h' leads good => ?_)
    cases injector with
    | none => exact .pure trivial
    | some injector => exact sound.runInjector (good injector rfl) (there.lead leads) c
  | _ => exact .pure trivial

lemma runHooks (hooks : List MethodHandle) : SoundAt h (Host.runHooks e hooks) anything := by
  induction hooks generalizing h with
  | nil => exact .pure trivial
  | cons hook rest ih => exact .bind (sound.invokeHandle hook h.knowsAll_nil) fun _ _ _ _ => ih

end Entries

/-! ### Bodies -/

section Bodies

variable (sound : e.Sound) {f : Frame} {stack : List Value}
include sound

lemma step_newObject (known : h.KnowsAll stack) (owner : String) (ctor : Uuid) :
    SoundAt h (e.step f stack (.newObject owner ctor)) Host.KnowsAll := by
  refine .bind (.lookup f owner) fun target h₁ leads₁ _ => ?_
  cases target.definition.constructor? ctor with
  | none => exact .fault _
  | some callee =>
    refine .bind (.checkMember f target _ _) fun _ h₂ leads₂ _ => ?_
    refine .bind (.popMany f (known.lead (leads₁.trans leads₂)) _) fun taken h₃ _ popped => ?_
    refine .bind (sound.construct owner ctor popped.1) fun object h' leads made => ?_
    exact .pure (knowsAll_cons.2 ⟨made, popped.2.lead leads⟩)

lemma step_call (known : h.KnowsAll stack) (owner : String) (method : Uuid) :
    SoundAt h (e.step f stack (.call owner method)) Host.KnowsAll := by
  refine .bind (.lookup f owner) fun target h₁ leads₁ _ => ?_
  cases target.definition.member? method with
  | none => exact .fault _
  | some callee =>
    refine .bind (.checkMember f target _ _) fun _ h₂ leads₂ _ => ?_
    refine .bind (.popMany f (known.lead (leads₁.trans leads₂)) _) fun taken h₃ _ popped => ?_
    refine .bind (sound.call target callee popped.1) fun result h' leads given => .pure ?_
    have below := popped.2.lead leads
    split
    · refine knowsAll_cons.2 ⟨?_, below⟩
      cases result with
      | none => trivial
      | some value => exact given value (List.mem_singleton.2 rfl)
    · exact below

lemma step_resolve (known : h.KnowsAll stack) (ty : String) :
    SoundAt h (e.step f stack (.resolve ty)) Host.KnowsAll := by
  refine .bind (.pop f known) fun ⟨value, stack⟩ h' _ popped => ?_
  cases value with
  | container c =>
    refine .bind (sound.resolve h' c ty) fun value h'' leads fits => ?_
    exact .pure (knowsAll_cons.2 ⟨fits.known, popped.2.lead leads⟩)
  | _ => exact .fault _

lemma step (args : h.KnowsAll f.args) (known : h.KnowsAll stack) (i : Instr) :
    SoundAt h (e.step f stack i) Host.KnowsAll := by
  cases i with
  | loadArg index => exact .loadArg f args known index
  | loadConst value => exact .pure (knowsAll_cons.2 ⟨h.knows_ofConstant value, known⟩)
  | loadField owner field => exact .loadField f known owner field
  | storeField owner field => exact .storeField f known owner field
  | newObject owner ctor => exact sound.step_newObject known owner ctor
  | call owner method => exact sound.step_call known owner method
  | loadMethod owner method => exact .loadMethod f known owner method
  | resolve ty => exact sound.step_resolve known ty
  | register kind ty => exact .register f known kind ty
  | upcast ty =>
    refine .bind (.pop f known) fun _ h' leads _ => .get_bind ?_
    exact .check fun _ => .pure (known.lead leads)
  | print =>
    refine .bind (.pop f known) fun top h' _ popped => .get_bind ?_
    exact .bind (.print _) fun _ _ leads _ => .pure (popped.2.lead leads)
  | dup =>
    refine .bind (.pop f known) fun top h' leads popped => .pure ?_
    exact knowsAll_cons.2 ⟨popped.1, known.lead leads⟩
  | pop => exact .bind (.pop f known) fun _ _ _ popped => .pure popped.2
  | ret => exact .pure known

lemma runBody (args : h.KnowsAll f.args) (known : h.KnowsAll stack) (body : List Instr) :
    SoundAt h (e.runBody f stack body) Host.KnowsAll := by
  induction body generalizing h stack with
  | nil =>
    rw [Engine.runBody]
    exact .pure known
  | cons i rest ih =>
    by_cases ret : i = .ret
    · subst ret
      rw [Engine.runBody]
      exact .pure known
    · rw [Engine.runBody] <;> try exact ret
      exact .bind (sound.step args known i) fun stack h' leads known' => ih (args.lead leads) known'

lemma execute (args : h.KnowsAll f.args) :
    SoundAt h (e.execute f) fun h' result => h'.KnowsAll result.toList := by
  refine .bind (sound.runBody args h.knowsAll_nil _) fun stack h' _ known => ?_
  dsimp only
  split
  · refine .bind (.pop f known) fun ⟨value, _⟩ h'' _ popped => .pure ?_
    exact knowsAll_cons.2 ⟨popped.1, h''.knowsAll_nil⟩
  · exact .pure h'.knowsAll_nil

end Bodies

/-! ### Calls of one level more -/

lemma callNext (sound : e.Sound) (owner : LoadedType) (method : Method) {args : List Value}
    (known : h.KnowsAll args) :
    SoundAt h (e.callNext owner method args) fun h' result => h'.KnowsAll result.toList := by
  refine .check fun _ => .get_bind ?_
  by_cases room : maxCallDepth ≤ h.callDepth
  · exact .check fun free => absurd room free
  · have room : h.callDepth < maxCallDepth := Nat.lt_of_not_le room
    have opens (valid : h.Valid) : h.Leads h.enterCall :=
      .step (.enterCall room) (valid.of_parts rfl rfl rfl rfl)
    have closes (h' : Host) (valid : h'.Valid) : h'.Leads h'.leaveCall :=
      .step .leaveCall (valid.of_parts rfl rfl rfl rfl)
    refine .check fun _ => ?_
    show SoundAt h (Run.between enterCall leaveCall _) _
    exact .between opens closes (fun _ _ leads given => given.lead leads) (sound.execute known)

end Engine.Sound
end Weaver
