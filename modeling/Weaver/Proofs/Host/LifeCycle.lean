import Weaver.Proofs.Engine.Laws
import Weaver.Proofs.Host.Loading

/-!
# The life cycle of bindings

A binding is declared, configured through its handle at any time, and resolved: again and again,
from outside or from the middle of other resolutions, each of which may fail at any point. This file
tells what becomes of it meanwhile.

Three things live here:

* `Host.Course`, the courses that runs take. They are like histories, but know of every resolution
  what it was asked for and how it ended;
* what a course does to bindings: nothing to one that is producing or resolved, and one becomes
  resolved only by a resolution of its own;
* `Host.LifeCycle`, what is true of every binding at any time.
-/

namespace Weaver
namespace Host

/-! ## Courses -/

/-- Changes one after the other, with calls and resolutions among them that have come to their
ends. -/
inductive Course : Host → Host → Prop where
  | refl (h : Host) : Course h h
  | trans {h₁ h₂ h₃ : Host} (first : Course h₁ h₂) (second : Course h₂ h₃) : Course h₁ h₃
  | change {h h' : Host} (change : Change h h') (bindings : h'.bindings = h.bindings)
      (containers : h'.containers = h.containers) : Course h h'
  | declare (h : Host) (c : ContainerRef) (ty : String) (steps : List BindingStep) :
      Course h (h.declareWith c ty steps)
  | call {h h' : Host} (room : h.callDepth < maxCallDepth) (body : Course h.enterCall h') :
      Course h h'.leaveCall
  | resolution {h h₁ h₂ : Host} {c : ContainerRef} {ty : String} {ref : BindingRef}
      {r : Except HostError Value} (found : h.bindingFor? c ty = some ref)
      (room : (h.container c).depth < maxResolveDepth)
      (unresolved : (h.binding ref).resolved = false)
      (idle : (h.binding ref).producing = false) (body : Course (h.enterProduction c ref) h₁)
      (settles : Engine.Settles ref h₁ r h₂)
      (run : (resolve c ty).run h = some (r, h₂.leaveProduction c ref)) :
      Course h (h₂.leaveProduction c ref)

/-- Whatever code does takes a course. -/
lemma law_course : Law Course where
  refl := .refl
  trans := .trans
  deed deed := .change deed.change deed.bindings deed.containers
  declare := .declare
  call := .call
  resolution := .resolution

variable {h h' : Host} {ref : BindingRef}

/-! ## What courses do to bindings -/

/-- What a course does to the bindings of a host: it gets along with configuring bindings that it
has made itself, and leaves those alone that are producing or resolved. -/
structure Tame (h h' : Host) : Prop where
  moves {may : BindingRef → BindingStep → Prop} :
    (∀ ref step, h.bindings.size ≤ ref.index → may ref step) → Moves may h h'
  frame (ref : BindingRef) : ref.index < h.bindings.size →
    ((h.binding ref).producing || (h.binding ref).resolved) = true →
      h'.binding ref = h.binding ref

lemma Tame.comesTo (tame : Tame h h') : h.ComesTo h' :=
  tame.moves fun _ _ _ => trivial

lemma Tame.size_le (tame : Tame h h') : h.bindings.size ≤ h'.bindings.size :=
  tame.comesTo.size_le

lemma Tame.coherent (tame : Tame h h') (coherent : h.Coherent) : h'.Coherent :=
  tame.comesTo.coherent coherent

lemma Tame.trans {h₁ h₂ h₃ : Host} (first : Tame h₁ h₂) (second : Tame h₂ h₃) : Tame h₁ h₃ where
  moves allowed := (first.moves allowed).trans
    (second.moves fun ref step new => allowed ref step (first.size_le.trans new))
  frame ref valid busy := by
    have same := first.frame ref valid busy
    rw [second.frame ref (valid.trans_le first.size_le) (same ▸ busy), same]

lemma tame_of_bindings {h h' : Host} (bindings : h'.bindings = h.bindings)
    (moves : ∀ may, Moves may h h') : Tame h h' where
  moves _ := moves _
  frame ref _ _ := by rw [binding, binding, bindings]

lemma binding_configure_of_ne {ref' : BindingRef} (other : ref' ≠ ref) (steps : List BindingStep) :
    (h.configure ref' steps).binding ref = h.binding ref := by
  induction steps generalizing h with
  | nil => rfl
  | cons step rest ih => exact ih.trans (binding_configureStep_of_ne other step)

/-- A new binding leaves those alone that there are. -/
lemma binding_declareWith_of_lt (old : ref.index < h.bindings.size) (c : ContainerRef) (ty : String)
    (steps : List BindingStep) : (h.declareWith c ty steps).binding ref = h.binding ref := by
  have other : (h.bind c ty).1 ≠ ref := by
    rintro rfl
    exact Nat.lt_irrefl _ old
  rw [declareWith, binding_configure_of_ne other, binding_bind_of_lt old]

lemma tame_declareWith (h : Host) (c : ContainerRef) (ty : String) (steps : List BindingStep) :
    Tame h (h.declareWith c ty steps) where
  moves allowed := by
    refine (Moves.move (.bind c ty)).trans (Moves.configure (fun step => ?_) _)
    exact allowed _ step (Nat.le_refl _)
  frame _ valid _ := binding_declareWith_of_lt valid c ty steps

/-- The bracket around a production leaves the other bindings alone. -/
lemma binding_enterProduction_of_ne {ref' : BindingRef} (other : ref' ≠ ref) (c : ContainerRef) :
    (h.enterProduction c ref').binding ref = h.binding ref :=
  binding_updateBinding_of_ne other (h.enterResolution c) _

lemma binding_leaveProduction_of_ne {ref' : BindingRef} (other : ref' ≠ ref) (c : ContainerRef) :
    (h.leaveProduction c ref').binding ref = h.binding ref :=
  binding_updateBinding_of_ne other h _

lemma binding_enterProduction_self (valid : ref.index < h.bindings.size) (c : ContainerRef) :
    (h.enterProduction c ref).binding ref = { h.binding ref with producing := true } :=
  binding_updateBinding_self (h := h.enterResolution c) valid _

lemma binding_leaveProduction_self (valid : ref.index < h.bindings.size) (c : ContainerRef) :
    (h.leaveProduction c ref).binding ref = { h.binding ref with producing := false } :=
  binding_updateBinding_self valid _

lemma coherent_enterProduction (coherent : h.Coherent) (c : ContainerRef) (ref : BindingRef) :
    (h.enterProduction c ref).Coherent := by
  have entered : (h.enterResolution c).Coherent := coherent.updateContainer c fun _ => rfl
  exact entered.updateBinding ref fun known => ⟨entered.held ref known, entered.scope ref known⟩

/-- Settling a binding changes nothing, or makes it hold its answer. -/
lemma eq_or_eq_hold_of_settles {h₁ h₂ : Host} {r : Except HostError Value}
    (settles : Engine.Settles ref h₁ r h₂) :
    h₂ = h₁ ∨ ∃ value, r = .ok value ∧ (h₁.binding ref).scope = .singleton ∧
      h₂ = h₁.hold ref value := by
  cases settles with
  | failed error => exact .inl rfl
  | transient scope => exact .inl rfl
  | singleton scope => exact .inr ⟨_, rfl, scope, rfl⟩

lemma binding_of_settles_of_ne {ref' : BindingRef} {h₁ h₂ : Host} {r : Except HostError Value}
    (settles : Engine.Settles ref' h₁ r h₂) (other : ref' ≠ ref) :
    h₂.binding ref = h₁.binding ref := by
  rcases eq_or_eq_hold_of_settles settles with rfl | ⟨value, -, -, rfl⟩
  · rfl
  · exact binding_updateBinding_of_ne other _ _

/-- A binding that is producing may be settled. -/
lemma Moves.of_settles {may : BindingRef → BindingStep → Prop} {h₁ h₂ : Host}
    {r : Except HostError Value} (settles : Engine.Settles ref h₁ r h₂)
    (unresolved : (h₁.binding ref).resolved = false)
    (producing : (h₁.binding ref).producing = true) : Moves may h₁ h₂ := by
  rcases eq_or_eq_hold_of_settles settles with rfl | ⟨value, -, scope, rfl⟩
  · exact .refl _
  · exact .move (.hold value unresolved producing scope)

/-- While an instance is made for a binding, nothing else is done to it. -/
lemma Tame.binding_of_enterProduction {h₁ : Host} {c : ContainerRef}
    (body : Tame (h.enterProduction c ref) h₁) (valid : ref.index < h.bindings.size) :
    ref.index < h₁.bindings.size ∧ h₁.binding ref = { h.binding ref with producing := true } := by
  have size : ref.index < (h.enterProduction c ref).bindings.size := by
    rw [enterProduction, markProducing, size_updateBinding]
    exact valid
  have entered := binding_enterProduction_self valid c
  refine ⟨size.trans_le body.size_le, ?_⟩
  rw [body.frame ref size (by rw [entered]; rfl), entered]

/-- Every course is tame. -/
theorem Course.tame (course : Course h h') (coherent : h.Coherent) : Tame h h' := by
  induction course with
  | refl h => exact tame_of_bindings rfl fun _ => .refl h
  | trans _ _ first second =>
    have first := first coherent
    exact first.trans (second (first.coherent coherent))
  | change change bindings containers =>
    exact tame_of_bindings bindings fun _ => .move (.change change bindings containers)
  | declare h c ty steps => exact tame_declareWith h c ty steps
  | call room _ body =>
    have body := body (coherent.of_eq rfl rfl)
    exact ⟨fun allowed =>
      ((Moves.move (.enterCall room)).trans (body.moves allowed)).trans (.move .leaveCall),
      body.frame⟩
  | @resolution h h₁ h₂ c ty ref r found room unresolved idle _ settles run body =>
    have valid := coherent.valid_of_found found
    have body := body (coherent_enterProduction coherent c ref)
    obtain ⟨-, still⟩ := body.binding_of_enterProduction valid
    constructor
    · intro may allowed
      have enter : Moves may h (h.enterProduction c ref) :=
        (Moves.move (.enterResolution c room)).trans (.move (.markProducing ref true))
      have inside : Moves may (h.enterProduction c ref) h₁ := body.moves fun ref' step new =>
        allowed ref' step (by rwa [enterProduction, markProducing, size_updateBinding] at new)
      have settled : Moves may h₁ h₂ :=
        .of_settles settles (by rw [still]; exact unresolved) (by rw [still])
      have leave : Moves may h₂ (h₂.leaveProduction c ref) :=
        (Moves.move (.markProducing ref false)).trans (.move (.leaveResolution c))
      exact ((enter.trans inside).trans settled).trans leave
    · intro ref' valid' busy
      -- the binding of this resolution is neither producing nor resolved, so it is another one
      have other : ref ≠ ref' := by
        rintro rfl
        rw [unresolved, idle] at busy
        cases busy
      have entered := binding_enterProduction_of_ne (h := h) other c
      have size : ref'.index < (h.enterProduction c ref).bindings.size := by
        rwa [enterProduction, markProducing, size_updateBinding]
      rw [binding_leaveProduction_of_ne other, binding_of_settles_of_ne settles other,
        body.frame ref' size (by rw [entered]; exact busy), entered]

/-! ## Turns -/

/-- A resolution ends well that makes its binding hold the answer. -/
structure Turns (ref : BindingRef) (c : ContainerRef) (ty : String) (value : Value) (h h' : Host) :
    Prop where
  found : h.bindingFor? c ty = some ref
  run : (resolve c ty).run h = some (.ok value, h')
  unresolved : (h.binding ref).resolved = false
  resolved : (h'.binding ref).resolved = true
  held : (h'.binding ref).held = some value
  scope : (h.binding ref).scope = .singleton
  scope_after : (h'.binding ref).scope = .singleton

lemma resolved_declareWith (h : Host) (c : ContainerRef) (ty : String) (steps : List BindingStep)
    (ref : BindingRef) :
    ((h.declareWith c ty steps).binding ref).resolved = (h.binding ref).resolved := by
  have configured (h : Host) (ref' : BindingRef) :
      ((h.configure ref' steps).binding ref).resolved = (h.binding ref).resolved := by
    induction steps generalizing h with
    | nil => rfl
    | cons step rest ih => exact (ih _).trans (resolved_configureStep h ref ref' step)
  rw [declareWith, configured, resolved_bind]

/-- On the way from a host in which a binding is not resolved to one in which it is, a resolution of
its own has made it so. -/
theorem Course.exists_turns (course : Course h h') (coherent : h.Coherent)
    (before : (h.binding ref).resolved = false) (after : (h'.binding ref).resolved = true) :
    ∃ c ty value h₁ h₂, h.ComesTo h₁ ∧ Turns ref c ty value h₁ h₂ ∧ h₂.ComesTo h' := by
  induction course with
  | refl h =>
    rw [before] at after
    cases after
  | @trans h₁ h₂ h₃ first second ih₁ ih₂ =>
    have tame := first.tame coherent
    have tame' := second.tame (tame.coherent coherent)
    cases middle : (h₂.binding ref).resolved with
    | true =>
      obtain ⟨c, ty, value, h, h', way, turns, on⟩ := ih₁ coherent before middle
      exact ⟨c, ty, value, h, h', way, turns, on.trans tame'.comesTo⟩
    | false =>
      obtain ⟨c, ty, value, h, h', way, turns, on⟩ := ih₂ (tame.coherent coherent) middle after
      exact ⟨c, ty, value, h, h', tame.comesTo.trans way, turns, on⟩
  | change change bindings containers =>
    rw [binding, bindings, ← binding, before] at after
    cases after
  | declare h c ty steps =>
    rw [resolved_declareWith, before] at after
    cases after
  | call room _ ih =>
    obtain ⟨c, ty, value, h₁, h₂, way, turns, on⟩ := ih (coherent.of_eq rfl rfl) before after
    exact ⟨c, ty, value, h₁, h₂, (Moves.move (.enterCall room)).trans way, turns,
      on.trans (.move .leaveCall)⟩
  | @resolution h h₁ h₂ c ty ref' r found room unresolved idle body settles run ih =>
    have inner := coherent_enterProduction coherent c ref'
    obtain ⟨valid, still⟩ :=
      (body.tame inner).binding_of_enterProduction (coherent.valid_of_found found)
    have settled : h₁.ComesTo h₂ :=
      .of_settles settles (by rw [still]; exact unresolved) (by rw [still])
    have leave : h₂.ComesTo (h₂.leaveProduction c ref') :=
      (Moves.move (.markProducing ref' false)).trans (.move (.leaveResolution c))
    by_cases other : ref' = ref
    · -- the resolution itself is the one, since its body leaves the binding alone
      subst other
      rcases eq_or_eq_hold_of_settles settles with rfl | ⟨value, rfl, scope, rfl⟩
      · rw [binding_leaveProduction_self valid, still, unresolved] at after
        cases after
      · have held : ((h₁.hold ref' value).leaveProduction c ref').binding ref'
            = { h₁.binding ref' with
                held := some value, resolved := true, producing := false } := by
          have size : ref'.index < (h₁.hold ref' value).bindings.size := by
            rwa [hold, size_updateBinding]
          rw [binding_leaveProduction_self size, hold, binding_updateBinding_self valid]
        refine ⟨c, ty, value, h, _, .refl h, ?_, .refl _⟩
        exact ⟨found, run, unresolved, by rw [held], by rw [held],
          by rw [still] at scope; exact scope, by rw [held]; exact scope⟩
    · rw [binding_leaveProduction_of_ne other, binding_of_settles_of_ne settles other] at after
      rw [← binding_enterProduction_of_ne other c] at before
      obtain ⟨c', ty', value, h₃, h₄, way, turns, on⟩ := ih inner before after
      have enter : h.ComesTo (h.enterProduction c ref') :=
        (Moves.move (.enterResolution c room)).trans (.move (.markProducing ref' true))
      exact ⟨c', ty', value, h₃, h₄, enter.trans way, turns, (on.trans settled).trans leave⟩

/-! ## Single resolutions -/

lemma resolve_eq (c : ContainerRef) (ty : String) :
    resolve c ty = Engine.unlimited.next.resolve c ty := by
  rw [Engine.next_unlimited]
  rfl

/-- What becomes of the binding for which an instance was to be made: nothing if that failed or the
scope is that of transients, else the binding holds the answer. -/
lemma binding_of_settled {r : Except HostError Value} {h₁ h₂ : Host} {c : ContainerRef}
    (coherent : h.Coherent) (valid : ref.index < h.bindings.size)
    (idle : (h.binding ref).producing = false) (body : Course (h.enterProduction c ref) h₁)
    (settles : Engine.Settles ref h₁ r h₂) :
    (h₂.leaveProduction c ref).binding ref = h.binding ref ∧
        (∀ value, r = .ok value → (h.binding ref).scope = .transient) ∨
      ∃ value, r = .ok value ∧ (h.binding ref).scope = .singleton ∧
        (h₂.leaveProduction c ref).binding ref
          = { h.binding ref with held := some value, resolved := true } := by
  obtain ⟨valid, still⟩ := (body.tame (coherent_enterProduction coherent c ref))
    |>.binding_of_enterProduction valid
  have back : (h₁.leaveProduction c ref).binding ref = h.binding ref := by
    rw [binding_leaveProduction_self valid, still, ← idle]
  cases settles with
  | failed error => exact .inl ⟨back, nofun⟩
  | transient scope =>
    rw [still] at scope
    exact .inl ⟨back, fun _ _ => scope⟩
  | @singleton value scope =>
    rw [still] at scope
    have size : ref.index < (h₁.hold ref value).bindings.size := by rwa [hold, size_updateBinding]
    refine .inr ⟨value, rfl, scope, ?_⟩
    rw [binding_leaveProduction_self size, hold, binding_updateBinding_self valid, still, ← idle]

/-- What a resolution that was to make an instance makes of its binding. -/
lemma binding_of_production {r r₁ : Except HostError Value} {h₁ h₂ : Host} {c : ContainerRef}
    {ty : String} (coherent : h.Coherent) (found : h.bindingFor? c ty = some ref)
    (idle : (h.binding ref).producing = false)
    (made : (Engine.unlimited.make c ty (h.binding ref)).run (h.enterProduction c ref)
      = some (r₁, h₁)) (settles : Engine.Settles ref h₁ r h₂) :
    (h₂.leaveProduction c ref).binding ref = h.binding ref ∧
        (∀ value, r = .ok value → (h.binding ref).scope = .transient) ∨
      ∃ value, r = .ok value ∧ (h.binding ref).scope = .singleton ∧
        (h₂.leaveProduction c ref).binding ref
          = { h.binding ref with held := some value, resolved := true } :=
  binding_of_settled coherent (coherent.valid_of_found found) idle
    ((Engine.obeys_unlimited law_course).make law_course.toRule _ made) settles

/-- A resolution that ends well has a binding with a scope, which it keeps. Under the scope of
singletons, the binding holds the answer from then on. -/
lemma exists_scope_of_resolve {c : ContainerRef} {ty : String} {value : Value}
    (coherent : h.Coherent) (run : (resolve c ty).run h = some (.ok value, h')) :
    ∃ ref, h.bindingFor? c ty = some ref ∧ (h.binding ref).scope ≠ .unset ∧
      (h'.binding ref).scope = (h.binding ref).scope ∧
      ((h.binding ref).scope = .singleton →
        (h'.binding ref).resolved = true ∧ (h'.binding ref).held = some value) := by
  rw [resolve_eq] at run
  rcases Engine.resolve_cases run with ⟨rfl, answered⟩ |
    ⟨ref, r₁, h₁, h₂, found, -, -, idle, made, settles, rfl⟩
  · obtain ⟨ref, found, resolved, answer⟩ := answered value rfl
    refine ⟨ref, found, coherent.scope ref resolved, rfl, fun _ => ⟨resolved, ?_⟩⟩
    obtain ⟨held, there⟩ := Option.isSome_iff_exists.1 (coherent.held ref resolved)
    rw [there, Option.getD_some] at answer
    rw [there, answer]
  · rcases binding_of_production coherent found idle made settles with
      ⟨back, transient⟩ | ⟨_, answer, scope, back⟩
    · have scope := transient value rfl
      refine ⟨ref, found, by rw [scope]; exact nofun, by rw [back], fun single => ?_⟩
      rw [single] at scope
      cases scope
    · cases answer
      refine ⟨ref, found, by rw [scope]; exact nofun, by rw [back], fun _ => ?_⟩
      rw [back]
      exact ⟨rfl, rfl⟩

/-- A resolution that fails leaves its binding as it was. -/
lemma binding_of_resolve_error {c : ContainerRef} {ty : String} {error : HostError}
    (coherent : h.Coherent) (run : (resolve c ty).run h = some (.error error, h'))
    (found : h.bindingFor? c ty = some ref) : h'.binding ref = h.binding ref := by
  rw [resolve_eq] at run
  rcases Engine.resolve_cases run with ⟨rfl, -⟩ |
    ⟨ref', r₁, h₁, h₂, found', -, -, idle, made, settles, rfl⟩
  · rfl
  · rw [found] at found'
    cases found'
    rcases binding_of_production coherent found idle made settles with ⟨back, -⟩ | ⟨_, answer, -⟩
    · exact back
    · cases answer

/-- Through a resolved binding, every engine gives the same answer: what the binding holds, if it is
of the type that was asked for and not too many resolutions are active. Nothing is changed by it. -/
lemma exists_answer_of_resolved {c : ContainerRef} {ty : String} {value : Value}
    (found : h.bindingFor? c ty = some ref) (resolved : (h.binding ref).resolved = true)
    (held : (h.binding ref).held = some value) :
    ∃ r, (∀ e : Engine, (e.next.resolve c ty).run h = some (r, h)) ∧
      (r = .ok value ∨ r = .error (.cast ty (h.typeName value)) ∨
        r = .error (.execution (.resolutionTooDeep ty))) := by
  rcases Nat.lt_or_ge (h.container c).depth maxResolveDepth with room | deep
  · have answer : (h.binding ref).held.getD .null = value := by rw [held, Option.getD_some]
    refine ⟨_, fun e => Engine.run_resolve_of_resolved room found resolved answer, ?_⟩
    split
    · exact .inl rfl
    · exact .inr (.inl rfl)
  · exact ⟨_, fun e => Engine.run_resolve_of_tooDeep deep, .inr (.inr rfl)⟩

/-! ## The life cycle -/

/-- What embedding code does with a host. -/
inductive Operation where
  | addContainer
  | bind (c : ContainerRef) (ty : String)
  /-- A configuration call on the handle of a binding. -/
  | configure (ref : BindingRef) (step : BindingStep)
  | load (m : Module)
  | resolve (c : ContainerRef) (ty : String)
  | tryResolve (c : ContainerRef) (ty : String)
  | inject (c : ContainerRef) (value : Value)
  | tryInject (c : ContainerRef) (value : Value)
  | invoke (owner method : String) (args : List Value)
  | registerFactory (ty : String) (factory : Factory)
  | registerInjector (ty : String) (injector : Injector)
  | keep (name : String) (value : Value)
  | takeOutput

/-- Carries out an operation. Its value, if it has one, is dropped. -/
def Operation.perform : Operation → Run Unit
  | addContainer => modify fun h => h.addContainer.2
  | bind c ty => modify fun h => (h.bind c ty).2
  | configure ref step => modify fun h => h.configureStep ref step
  | load m => Host.load m >>= fun _ => pure ()
  | resolve c ty => Host.resolve c ty >>= fun _ => pure ()
  | tryResolve c ty => Host.tryResolve c ty >>= fun _ => pure ()
  | inject c value => Host.inject c value
  | tryInject c value => Host.tryInject c value >>= fun _ => pure ()
  | invoke owner method args => Host.invoke owner method args >>= fun _ => pure ()
  | registerFactory ty factory => Run.registerFactory ty factory
  | registerInjector ty injector => Run.registerInjector ty injector
  | keep name value => modify fun h => h.keep name value
  | takeOutput => modify fun h => { h with output := [] }

/-- The steps of configuration that an operation may take on a host: the one that it is, and any on
bindings that are still to be made. -/
def Operation.may (op : Operation) (h : Host) (ref : BindingRef) (step : BindingStep) : Prop :=
  op = .configure ref step ∨ h.bindings.size ≤ ref.index

/-- What an operation does before any code runs: nothing, or one thing of its own. -/
inductive Operation.Opens : Operation → Host → Host → Prop where
  | nothing (op : Operation) (h : Host) : Opens op h h
  | addContainer (h : Host) : Opens .addContainer h h.addContainer.2
  | bind (h : Host) (c : ContainerRef) (ty : String) : Opens (.bind c ty) h (h.bind c ty).2
  | configure (h : Host) (ref : BindingRef) (step : BindingStep) :
      Opens (.configure ref step) h (h.configureStep ref step)
  | load {h : Host} {m : Module} {hooks : List MethodHandle} (new : h.isLoaded m.name = false)
      (planned : plan h.config.mode h.types [] m.types = .ok hooks) :
      Opens (.load m) h (h.addModule m)
  | keep (h : Host) (name : String) (value : Value) : Opens (.keep name value) h (h.keep name value)
  | takeOutput (h : Host) : Opens .takeOutput h { h with output := [] }

/-- After that, an operation obeys every law. -/
lemma Operation.exists_opens {R : Host → Host → Prop} (law : Law R) {op : Operation}
    {r : Except HostError Unit} (run : op.perform.run h = some (r, h')) :
    ∃ h₁, op.Opens h h₁ ∧ R h₁ h' := by
  have code {α : Type} {x : Run α} (obeys : Run.ObeysAt R h x)
      (run : (x >>= fun _ => pure ()).run h = some (r, h')) : ∃ h₁, op.Opens h h₁ ∧ R h₁ h' :=
    ⟨h, .nothing op h, law.bind obeys (fun _ _ => law.pure _) run⟩
  cases op with
  | addContainer =>
    cases run
    exact ⟨_, .addContainer h, law.refl _⟩
  | bind c ty =>
    cases run
    exact ⟨_, .bind h c ty, law.refl _⟩
  | configure ref step =>
    cases run
    exact ⟨_, .configure h ref step, law.refl _⟩
  | load m =>
    -- the hooks of a module that is not refused run after its types are there
    obtain ⟨r, loaded⟩ := Run.exists_run_of_drop run
    rcases run_load m h with ⟨e, refused⟩ | ⟨hooks, new, planned, r₁, h₁, hooked, -, _, accepted⟩
    · rw [refused] at loaded
      cases loaded
      exact ⟨h, .nothing _ h, law.refl h⟩
    · rw [accepted] at loaded
      cases loaded
      exact ⟨_, .load new planned,
        (Engine.obeys_unlimited law).runHooks law.toRule hooks hooked⟩
  | resolve c ty => exact code (Engine.obeysAt_withEngine law fun obeys => obeys.resolve _ c ty) run
  | tryResolve c ty =>
    exact code (Engine.obeysAt_withEngine law fun obeys => obeys.tryResolve law.toRule c ty) run
  | inject c value =>
    exact ⟨h, .nothing _ h,
      Engine.obeysAt_withEngine law (fun obeys => obeys.inject law.toRule c value) run⟩
  | tryInject c value =>
    exact code (Engine.obeysAt_withEngine law fun obeys => law.bind
      (law.orNone (obeys.inject law.toRule c value)) fun _ _ => law.pure _) run
  | invoke owner method args =>
    exact code
      (Engine.obeysAt_withEngine law fun obeys => obeys.invoke law.toRule owner method args) run
  | registerFactory ty factory => exact ⟨h, .nothing _ h, law.registerFactory ty factory run⟩
  | registerInjector ty injector => exact ⟨h, .nothing _ h, law.registerInjector ty injector run⟩
  | keep name value =>
    cases run
    exact ⟨_, .keep h name value, law.refl _⟩
  | takeOutput =>
    cases run
    exact ⟨_, .takeOutput h, law.refl _⟩

/-- An operation begins with moves by which no binding is resolved, and goes on with a course. -/
lemma Operation.exists_course {op : Operation} {r : Except HostError Unit}
    (run : op.perform.run h = some (r, h')) :
    ∃ h₁, Moves (op.may h) h h₁ ∧
      (∀ ref, (h₁.binding ref).resolved = (h.binding ref).resolved) ∧ Course h₁ h' := by
  obtain ⟨h₁, opens, course⟩ := Operation.exists_opens law_course run
  refine ⟨h₁, ?_, ?_, course⟩
  · cases opens with
    | nothing => exact .refl h
    | addContainer => exact .move .addContainer
    | bind _ c ty => exact .move (.bind c ty)
    | configure => exact .move (.configure (.inl rfl))
    | load _ planned => exact .move (.addModule planned)
    | keep _ name value => exact .move (.keep name value)
    | takeOutput => exact .move .takeOutput
  · cases opens with
    | bind _ c ty => exact resolved_bind h c ty
    | configure _ ref step => exact fun ref' => resolved_configureStep h ref' ref step
    | _ => exact fun _ => rfl

/-- What is true of the bindings of a host at any time. -/
structure LifeCycle (h : Host) : Prop where
  /-- Operations lead on to states of the same kind, and code configures no binding that was there
  before. -/
  leads {op : Operation} {r : Except HostError Unit} {h' : Host} :
    op.perform.run h = some (r, h') → Moves (op.may h) h h'
  /-- A resolved binding has an instance. -/
  held (ref : BindingRef) : (h.binding ref).resolved = true → (h.binding ref).held.isSome
  /-- A binding is resolved by nothing but a resolution of its own that ends well. -/
  turns {op : Operation} {r : Except HostError Unit} {h' : Host} {ref : BindingRef} :
    op.perform.run h = some (r, h') → (h.binding ref).resolved = false →
      (h'.binding ref).resolved = true →
      ∃ c ty value h₁ h₂, h.ComesTo h₁ ∧ Turns ref c ty value h₁ h₂ ∧ h₂.ComesTo h'
  /-- It stays resolved. -/
  stays {h' : Host} {ref : BindingRef} :
    h.ComesTo h' → (h.binding ref).resolved = true → (h'.binding ref).resolved = true
  /-- A resolution that ends well has a binding with a scope, and the scope of singletons makes it
  hold the answer. -/
  answers {c : ContainerRef} {ty : String} {value : Value} {h' : Host} :
    (resolve c ty).run h = some (.ok value, h') →
      ∃ ref, h.bindingFor? c ty = some ref ∧ (h.binding ref).scope ≠ .unset ∧
        (h'.binding ref).scope = (h.binding ref).scope ∧
        ((h.binding ref).scope = .singleton →
          (h'.binding ref).resolved = true ∧ (h'.binding ref).held = some value)
  /-- A resolution that fails leaves its binding as it was. -/
  fails {c : ContainerRef} {ty : String} {error : HostError} {h' : Host} {ref : BindingRef} :
    (resolve c ty).run h = some (.error error, h') → h.bindingFor? c ty = some ref →
      h'.binding ref = h.binding ref
  /-- From the time when a binding is resolved until it is given another instance, every resolution
  through it gives the same value, is refused as a cast or is one too many. No call and no other
  resolution is needed for that, whatever the engine would make of them, and nothing changes. -/
  keeps {may : BindingRef → BindingStep → Prop} {h' : Host} {ref : BindingRef} {value : Value} :
    (h.binding ref).resolved = true → (h.binding ref).held = some value →
      (∀ source, ¬may ref (.fromInstance source)) → Moves may h h' →
      ∀ c ty, h'.bindingFor? c ty = some ref →
        ∃ r, (∀ e : Engine, (e.next.resolve c ty).run h' = some (r, h')) ∧
          (resolve c ty).run h' = some (r, h') ∧
          (r = .ok value ∨ r = .error (.cast ty (h'.typeName value)) ∨
            r = .error (.execution (.resolutionTooDeep ty)))

lemma lifeCycle_of_coherent (coherent : h.Coherent) : h.LifeCycle where
  leads {op r h'} run := by
    obtain ⟨h₁, first, -, course⟩ := op.exists_course run
    have tame := course.tame (first.coherent coherent)
    exact first.trans (tame.moves fun _ _ new => .inr (first.size_le.trans new))
  held := coherent.held
  turns {op r h' ref} run before after := by
    obtain ⟨h₁, first, flags, course⟩ := op.exists_course run
    rw [← flags] at before
    obtain ⟨c, ty, value, h₂, h₃, way, turns, on⟩ :=
      course.exists_turns (first.coherent coherent) before after
    exact ⟨c, ty, value, h₂, h₃, first.comesTo.trans way, turns, on⟩
  stays moves resolved := (moves.resolved resolved).1
  answers run := exists_scope_of_resolve coherent run
  fails run found := binding_of_resolve_error coherent run found
  keeps {may h' ref value} resolved held forbidden moves c ty found := by
    obtain ⟨resolved', same⟩ := moves.resolved resolved
    obtain ⟨r, answer, kinds⟩ :=
      exists_answer_of_resolved found resolved' ((same forbidden).trans held)
    exact ⟨r, answer, by rw [resolve_eq]; exact answer _, kinds⟩

/-- The life cycle of bindings: at any time in the life of a host, in the middle of its runs
included. -/
theorem lifeCycle {config : HostConfig} (reached : (Host.new config).ComesTo h) : h.LifeCycle :=
  lifeCycle_of_coherent (reached.coherent (coherent_new config))

/-- A host with a container that has a binding for integers, made by counting the calls. -/
def tally : Host :=
  (Host.new {}).addContainer.2.declareWith ⟨0⟩ intType [.fromFactory .count, .asSingleton]

/-- The first resolution of an integer from it makes the binding hold the count of one. -/
theorem lifeCycle_tally : (Host.new {}).ComesTo tally ∧ tally.LifeCycle ∧
    ∃ h, (resolve ⟨0⟩ intType).run tally = some (.ok (.int 1), h) ∧
      (h.binding ⟨0⟩).resolved = true ∧ (h.binding ⟨0⟩).held = some (.int 1) := by
  have reached : (Host.new {}).ComesTo tally :=
    Moves.trans (.move .addContainer) (tame_declareWith _ _ _ _).comesTo
  have life := lifeCycle reached
  obtain ⟨h, run⟩ : ∃ h, (resolve ⟨0⟩ intType).run tally = some (.ok (.int 1), h) := ⟨_, rfl⟩
  obtain ⟨ref, found, -, -, holds⟩ := life.answers run
  have own : ref = ⟨0⟩ := Option.some.inj (found.symm.trans rfl)
  subst own
  exact ⟨reached, life, h, run, holds rfl⟩

end Host
end Weaver
