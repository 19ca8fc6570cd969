import Mathlib.Logic.Relation
import Mathlib.Tactic.Common
import Weaver.Host.Load
import Weaver.Proofs.Host.History

/-!
# Moves of a host

The states that a host can come to, those in the middle of a run included, when it matters what
becomes of bindings. Moves are like the steps by which a host reaches others, but a binding comes to
hold an answer only while it is producing, and it is told which configuration may take place.

Three things live here:

* what becomes of a binding when it or another one changes;
* `Host.Moves` and `Host.ComesTo`;
* `Host.Coherent`, the invariants of bindings, and what no move takes back from a resolved one.
-/

namespace Weaver
namespace Host

/-! ## Bindings -/

lemma binding_updateBinding (h : Host) (ref ref' : BindingRef) (f : Binding → Binding) :
    (h.updateBinding ref f).binding ref'
      = if ref = ref' ∧ ref.index < h.bindings.size then f (h.binding ref')
        else h.binding ref' := by
  simp only [binding, updateBinding, Array.getD_eq_getD_getElem?, Array.getElem?_modify]
  rcases ref with ⟨i⟩
  rcases ref' with ⟨j⟩
  by_cases hij : i = j
  · subst hij
    by_cases hi : i < h.bindings.size
    · simp [hi]
    · simp [hi]
  · simp [hij]

lemma binding_updateBinding_of_ne {ref ref' : BindingRef} (other : ref ≠ ref') (h : Host)
    (f : Binding → Binding) : (h.updateBinding ref f).binding ref' = h.binding ref' := by
  rw [binding_updateBinding, if_neg fun same => other same.1]

lemma binding_updateBinding_self {h : Host} {ref : BindingRef} (valid : ref.index < h.bindings.size)
    (f : Binding → Binding) : (h.updateBinding ref f).binding ref = f (h.binding ref) := by
  rw [binding_updateBinding, if_pos ⟨rfl, valid⟩]

@[simp] lemma size_updateBinding (h : Host) (ref : BindingRef) (f : Binding → Binding) :
    (h.updateBinding ref f).bindings.size = h.bindings.size := by
  simp [updateBinding]

/-- Behind a reference that is not valid, there is no binding that anything was done to. -/
lemma binding_of_size_le {h : Host} {ref : BindingRef} (invalid : h.bindings.size ≤ ref.index) :
    h.binding ref = default := by
  simp [binding, Array.getD_eq_getD_getElem?, Array.getElem?_eq_none invalid]

lemma lt_size_of_resolved {h : Host} {ref : BindingRef}
    (resolved : (h.binding ref).resolved = true) : ref.index < h.bindings.size := by
  by_contra invalid
  rw [binding_of_size_le (Nat.le_of_not_lt invalid)] at resolved
  cases resolved

lemma bindings_bind (h : Host) (c : ContainerRef) (ty : String) :
    (h.bind c ty).2.bindings = h.bindings.push { requested := ty, concrete := ty } := rfl

lemma binding_bind_of_lt {h : Host} {ref : BindingRef} (old : ref.index < h.bindings.size)
    (c : ContainerRef) (ty : String) : (h.bind c ty).2.binding ref = h.binding ref := by
  simp [binding, bindings_bind, Array.getD_eq_getD_getElem?, Array.getElem?_push, Nat.ne_of_lt old]

/-- A binding that has just been added is as bindings are at first. -/
lemma binding_bind_of_le {h : Host} {ref : BindingRef} (new : h.bindings.size ≤ ref.index)
    (c : ContainerRef) (ty : String) : (h.bind c ty).2.binding ref = default ∨
      (h.bind c ty).2.binding ref = { requested := ty, concrete := ty } := by
  rcases Nat.eq_or_lt_of_le new with last | beyond
  · right
    simp [binding, bindings_bind, Array.getD_eq_getD_getElem?, ← last]
  · left
    apply binding_of_size_le
    rw [bindings_bind, Array.size_push]
    omega

lemma binding_bind_self (h : Host) (c : ContainerRef) (ty : String) :
    (h.bind c ty).2.binding (h.bind c ty).1 = { requested := ty, concrete := ty } := by
  rw [binding, bindings_bind, Array.getD_eq_getD_getElem?]
  simp [Host.bind]

lemma resolved_bind (h : Host) (c : ContainerRef) (ty : String) (ref : BindingRef) :
    ((h.bind c ty).2.binding ref).resolved = (h.binding ref).resolved := by
  rcases Nat.lt_or_ge ref.index h.bindings.size with old | new
  · rw [binding_bind_of_lt old]
  · rw [binding_of_size_le new]
    rcases binding_bind_of_le new c ty with same | same
    · rw [same]
    · rw [same]
      rfl

/-- A binding keeps its answer. -/
def hold (h : Host) (ref : BindingRef) (value : Value) : Host :=
  h.updateBinding ref fun b => { b with held := some value, resolved := true }

/-! ## Brackets -/

/-- The host in which a container resolves a type through a binding that has to make an instance. -/
def enterProduction (h : Host) (c : ContainerRef) (ref : BindingRef) : Host :=
  (h.enterResolution c).markProducing ref true

/-- The host in which an instance has been made, or has turned out not to be had. -/
def leaveProduction (h : Host) (c : ContainerRef) (ref : BindingRef) : Host :=
  (h.markProducing ref false).leaveResolution c

/-- A resolution in which nothing happens leaves the host as it was. -/
lemma leaveResolution_enterResolution (h : Host) (c : ContainerRef) :
    (h.enterResolution c).leaveResolution c = h := by
  have same : (h.containers.modify c.index fun c => { c with depth := c.depth + 1 }).modify c.index
      (fun c => { c with depth := c.depth - 1 }) = h.containers := by
    ext i hi hi'
    · simp
    · simp only [Array.getElem_modify]
      split <;> rfl
  unfold leaveResolution enterResolution updateContainer
  rw [same]

lemma bindings_updateContainer {f : Container → Container}
    (keeps : ∀ c, (f c).bindings = c.bindings) (h : Host) (c c' : ContainerRef) :
    ((h.updateContainer c f).container c').bindings = (h.container c').bindings := by
  rw [container_updateContainer]
  split
  · exact keeps _
  · rfl

/-- A container that keeps its bindings has the same ones for every type. -/
lemma bindingFor?_updateContainer {f : Container → Container}
    (keeps : ∀ c, (f c).bindings = c.bindings) (h : Host) (c c' : ContainerRef) (ty : String) :
    (h.updateContainer c f).bindingFor? c' ty = h.bindingFor? c' ty := by
  have bindings (ty : String) :
      (h.updateContainer c f).bindingsFor c' ty = h.bindingsFor c' ty := by
    rw [bindingsFor, bindingsFor, bindings_updateContainer keeps]
  rw [bindingFor?, bindingFor?]
  simp only [bindings]
  rfl

lemma bindingFor?_enterResolution (h : Host) (c c' : ContainerRef) (ty : String) :
    (h.enterResolution c).bindingFor? c' ty = h.bindingFor? c' ty :=
  bindingFor?_updateContainer (by exact fun _ => rfl) h c c' ty

variable {h h' : Host} {ref : BindingRef}

/-! ## Moves -/

/-- One step of a host, of running code or of the code that embeds the host. A binding comes to hold
an answer only while it is producing. Which steps of configuration are taken is left open. -/
inductive Move (may : BindingRef → BindingStep → Prop) (h : Host) : Host → Prop where
  | change {h' : Host} (change : Change h h') (bindings : h'.bindings = h.bindings)
      (containers : h'.containers = h.containers) : Move may h h'
  | enterCall (room : h.callDepth < maxCallDepth) : Move may h h.enterCall
  | leaveCall : Move may h h.leaveCall
  | enterResolution (c : ContainerRef) (room : (h.container c).depth < maxResolveDepth) :
      Move may h (h.enterResolution c)
  | leaveResolution (c : ContainerRef) : Move may h (h.leaveResolution c)
  | markProducing (ref : BindingRef) (producing : Bool) : Move may h (h.markProducing ref producing)
  | hold {ref : BindingRef} (value : Value) (unresolved : (h.binding ref).resolved = false)
      (producing : (h.binding ref).producing = true)
      (scope : (h.binding ref).scope = .singleton) : Move may h (h.hold ref value)
  | bind (c : ContainerRef) (ty : String) : Move may h (h.bind c ty).2
  | configure {ref : BindingRef} {step : BindingStep} (allowed : may ref step) :
      Move may h (h.configureStep ref step)
  | addContainer : Move may h h.addContainer.2
  | keep (name : String) (value : Value) : Move may h (h.keep name value)
  | takeOutput : Move may h { h with output := [] }
  | addModule {m : Module} {hooks : List MethodHandle}
      (planned : plan h.config.mode h.types [] m.types = .ok hooks) : Move may h (h.addModule m)

/-- The second host is one that the first can come to, if configuration takes only steps that it may
take. -/
def Moves (may : BindingRef → BindingStep → Prop) : Host → Host → Prop :=
  Relation.ReflTransGen (Move may)

namespace Moves

variable {may : BindingRef → BindingStep → Prop}

lemma refl (h : Host) : Moves may h h := Relation.ReflTransGen.refl

lemma trans {h₁ h₂ h₃ : Host} (first : Moves may h₁ h₂) (second : Moves may h₂ h₃) :
    Moves may h₁ h₃ :=
  Relation.ReflTransGen.trans first second

lemma move (move : Move may h h') : Moves may h h' := Relation.ReflTransGen.single move

lemma configure {steps : List BindingStep} (allowed : ∀ step, may ref step) (h : Host) :
    Moves may h (h.configure ref steps) := by
  induction steps generalizing h with
  | nil => exact refl h
  | cons step rest ih => exact (move (.configure (allowed step))).trans (ih _)

end Moves

/-- The second host is one that the first can come to, whatever is configured on the way. -/
def ComesTo (h h' : Host) : Prop := Moves (fun _ _ => True) h h'

lemma Moves.comesTo {may : BindingRef → BindingStep → Prop} (moves : Moves may h h') :
    h.ComesTo h' := by
  induction moves with
  | refl => exact .refl _
  | tail _ move ih =>
    refine ih.trans (.move ?_)
    cases move with
    | change change bindings containers => exact .change change bindings containers
    | enterCall room => exact .enterCall room
    | leaveCall => exact .leaveCall
    | enterResolution c room => exact .enterResolution c room
    | leaveResolution c => exact .leaveResolution c
    | markProducing ref producing => exact .markProducing ref producing
    | hold value unresolved producing scope => exact .hold value unresolved producing scope
    | bind c ty => exact .bind c ty
    | configure _ => exact .configure trivial
    | addContainer => exact .addContainer
    | keep name value => exact .keep name value
    | takeOutput => exact .takeOutput
    | addModule planned => exact .addModule planned

/-! ### Single bindings -/

/-- A step in the configuration of a binding leaves the others alone. -/
lemma binding_configureStep_of_ne {ref' : BindingRef} (other : ref' ≠ ref) (step : BindingStep) :
    (h.configureStep ref' step).binding ref = h.binding ref := by
  cases step with
  | fromInstance source =>
    have same : (h.obtain source).2.bindings = h.bindings := by cases source <;> rfl
    show ((h.obtain source).2.updateBinding ref' _).binding ref = _
    rw [binding_updateBinding_of_ne other, binding, binding, same]
  | fromFactory recipe => exact binding_updateBinding_of_ne other _ _
  | _ => exact binding_updateBinding_of_ne other _ _

@[simp] lemma size_configureStep (h : Host) (ref : BindingRef) (step : BindingStep) :
    (h.configureStep ref step).bindings.size = h.bindings.size := by
  cases step with
  | fromInstance source =>
    have same : (h.obtain source).2.bindings = h.bindings := by cases source <;> rfl
    show ((h.obtain source).2.updateBinding ref _).bindings.size = _
    rw [size_updateBinding, same]
  | fromFactory recipe => exact size_updateBinding _ _ _
  | _ => exact size_updateBinding _ _ _

/-- A step in the configuration of a binding neither resolves it nor takes away its instance or its
scope. -/
lemma binding_configureStep_self (valid : ref.index < h.bindings.size) (step : BindingStep) :
    ((h.configureStep ref step).binding ref).resolved = (h.binding ref).resolved ∧
      (((h.configureStep ref step).binding ref).held = (h.binding ref).held ∨
        ((h.configureStep ref step).binding ref).held.isSome ∧
          ∃ source, step = .fromInstance source) ∧
      (((h.configureStep ref step).binding ref).scope = (h.binding ref).scope ∨
        ((h.configureStep ref step).binding ref).scope ≠ .unset) := by
  cases step with
  | fromInstance source =>
    have same : (h.obtain source).2.bindings = h.bindings := by cases source <;> rfl
    have still : (h.obtain source).2.binding ref = h.binding ref := by rw [binding, binding, same]
    have made : (h.configureStep ref (.fromInstance source)).binding ref
        = { h.binding ref with held := some (h.obtain source).1, scope := .singleton } := by
      show ((h.obtain source).2.updateBinding ref _).binding ref = _
      rw [binding_updateBinding_self (by rw [same]; exact valid), still]
      rfl
    rw [made]
    exact ⟨rfl, .inr ⟨rfl, source, rfl⟩, .inr nofun⟩
  | fromFactory recipe =>
    have made := binding_updateBinding_self (h := h.addCounter.2) valid
      fun b => { b with factory := some { recipe, counter := h.addCounter.1 } }
    change (h.configureStep ref (.fromFactory recipe)).binding ref = _ at made
    rw [made]
    exact ⟨rfl, .inl rfl, .inl rfl⟩
  | madeAs concrete =>
    rw [configureStep, binding_updateBinding_self valid]
    exact ⟨rfl, .inl rfl, .inl rfl⟩
  | asSingleton =>
    rw [configureStep, binding_updateBinding_self valid]
    exact ⟨rfl, .inl rfl, .inr nofun⟩
  | asTransient =>
    rw [configureStep, binding_updateBinding_self valid]
    exact ⟨rfl, .inl rfl, .inr nofun⟩

lemma resolved_configureStep (h : Host) (ref ref' : BindingRef) (step : BindingStep) :
    ((h.configureStep ref' step).binding ref).resolved = (h.binding ref).resolved := by
  by_cases other : ref' = ref
  · subst other
    rcases Nat.lt_or_ge ref'.index h.bindings.size with valid | invalid
    · exact (binding_configureStep_self valid step).1
    · rw [binding_of_size_le invalid, binding_of_size_le (by rwa [size_configureStep])]
  · rw [binding_configureStep_of_ne other]

/-! ### Invariants -/

/-- Containers refer to bindings that exist, and a resolved binding has an instance and a
scope. -/
structure Coherent (h : Host) : Prop where
  valid (c : ContainerRef) {b : String × BindingRef} :
    b ∈ (h.container c).bindings → b.2.index < h.bindings.size
  held (ref : BindingRef) : (h.binding ref).resolved = true → (h.binding ref).held.isSome
  scope (ref : BindingRef) : (h.binding ref).resolved = true → (h.binding ref).scope ≠ .unset

namespace Coherent

lemma valid_of_found (coherent : h.Coherent) {c : ContainerRef} {ty : String}
    (found : h.bindingFor? c ty = some ref) : ref.index < h.bindings.size := by
  obtain ⟨ty', -, first⟩ := List.exists_of_findSome?_eq_some found
  obtain ⟨b, bound, rfl⟩ := List.mem_map.1 (List.mem_of_mem_head? first)
  exact coherent.valid c (List.mem_of_mem_filter bound)

/-- Hosts with the same containers and bindings are coherent alike. -/
lemma of_eq (coherent : h.Coherent) (bindings : h'.bindings = h.bindings)
    (containers : h'.containers = h.containers) : h'.Coherent where
  valid c b member := by
    rw [container, containers] at member
    rw [bindings]
    exact coherent.valid c member
  held ref resolved := by
    rw [binding, bindings] at resolved ⊢
    exact coherent.held ref resolved
  scope ref resolved := by
    rw [binding, bindings] at resolved ⊢
    exact coherent.scope ref resolved

lemma updateContainer (coherent : h.Coherent) (c : ContainerRef) {f : Container → Container}
    (keeps : ∀ c, (f c).bindings = c.bindings) : (h.updateContainer c f).Coherent where
  valid c' b member := by
    rw [container_updateContainer] at member
    split at member
    · rw [keeps] at member
      exact coherent.valid c' member
    · exact coherent.valid c' member
  held := coherent.held
  scope := coherent.scope

lemma updateBinding (coherent : h.Coherent) (ref : BindingRef) {f : Binding → Binding}
    (resolved : (f (h.binding ref)).resolved = true →
      (f (h.binding ref)).held.isSome ∧ (f (h.binding ref)).scope ≠ .unset) :
    (h.updateBinding ref f).Coherent where
  valid c b member := by
    rw [size_updateBinding]
    exact coherent.valid c member
  held ref' known := by
    rw [binding_updateBinding] at known ⊢
    split at known
    next same =>
      rw [if_pos same, ← same.1]
      exact (resolved (same.1 ▸ known)).1
    next other =>
      rw [if_neg other]
      exact coherent.held ref' known
  scope ref' known := by
    rw [binding_updateBinding] at known ⊢
    split at known
    next same =>
      rw [if_pos same, ← same.1]
      exact (resolved (same.1 ▸ known)).2
    next other =>
      rw [if_neg other]
      exact coherent.scope ref' known

lemma bind (coherent : h.Coherent) (c : ContainerRef) (ty : String) : (h.bind c ty).2.Coherent where
  valid c' b member := by
    rw [bindings_bind, Array.size_push]
    change b ∈ ((Host.updateContainer _ c _).container c').bindings at member
    rw [container_updateContainer] at member
    split at member
    · rcases List.mem_append.1 member with old | new
      · exact Nat.lt_succ_of_lt (coherent.valid c' old)
      · rw [List.mem_singleton.1 new]
        exact Nat.lt_succ_self _
    · exact Nat.lt_succ_of_lt (coherent.valid c' member)
  held ref resolved := by
    rcases Nat.lt_or_ge ref.index h.bindings.size with old | new
    · rw [binding_bind_of_lt old] at resolved ⊢
      exact coherent.held ref resolved
    · rw [resolved_bind, binding_of_size_le new] at resolved
      cases resolved
  scope ref resolved := by
    rcases Nat.lt_or_ge ref.index h.bindings.size with old | new
    · rw [binding_bind_of_lt old] at resolved ⊢
      exact coherent.scope ref resolved
    · rw [resolved_bind, binding_of_size_le new] at resolved
      cases resolved

lemma configureStep (coherent : h.Coherent) (ref : BindingRef) (step : BindingStep) :
    (h.configureStep ref step).Coherent where
  valid c b member := by
    have same : (h.configureStep ref step).containers = h.containers := by
      cases step with
      | fromInstance source => cases source <;> rfl
      | _ => rfl
    rw [container, same] at member
    rw [size_configureStep]
    exact coherent.valid c member
  held ref' resolved := by
    by_cases other : ref = ref'
    · subst other
      have valid := lt_size_of_resolved resolved
      rw [size_configureStep] at valid
      obtain ⟨same, held | ⟨given, -⟩, -⟩ := binding_configureStep_self valid step
      · rw [held]
        exact coherent.held ref (same ▸ resolved)
      · exact given
    · rw [binding_configureStep_of_ne other] at resolved ⊢
      exact coherent.held ref' resolved
  scope ref' resolved := by
    by_cases other : ref = ref'
    · subst other
      have valid := lt_size_of_resolved resolved
      rw [size_configureStep] at valid
      obtain ⟨same, -, scope | set⟩ := binding_configureStep_self valid step
      · rw [scope]
        exact coherent.scope ref (same ▸ resolved)
      · exact set
    · rw [binding_configureStep_of_ne other] at resolved ⊢
      exact coherent.scope ref' resolved

end Coherent

lemma coherent_new (config : HostConfig) : (Host.new config).Coherent where
  valid c b member := by cases member
  held ref resolved := by cases resolved
  scope ref resolved := by cases resolved

/-- Every move keeps hosts coherent. -/
lemma Move.coherent {may : BindingRef → BindingStep → Prop} (move : Move may h h')
    (coherent : h.Coherent) : h'.Coherent := by
  cases move with
  | change change bindings containers => exact coherent.of_eq bindings containers
  | enterResolution c room => exact coherent.updateContainer c fun _ => rfl
  | leaveResolution c => exact coherent.updateContainer c fun _ => rfl
  | markProducing ref producing =>
    exact coherent.updateBinding ref fun known =>
      ⟨coherent.held ref known, coherent.scope ref known⟩
  | hold value unresolved producing scope =>
    exact coherent.updateBinding _ fun _ => ⟨rfl, by rw [scope]; exact nofun⟩
  | bind c ty => exact coherent.bind c ty
  | configure allowed => exact coherent.configureStep _ _
  | addContainer =>
    refine ⟨fun c b member => ?_, coherent.held, coherent.scope⟩
    apply coherent.valid c
    rwa [container_addContainer] at member
  | enterCall | leaveCall | keep | takeOutput | addModule => exact coherent.of_eq rfl rfl

lemma Moves.coherent {may : BindingRef → BindingStep → Prop} (moves : Moves may h h')
    (coherent : h.Coherent) : h'.Coherent := by
  induction moves with
  | refl => exact coherent
  | tail _ move ih => exact move.coherent ih

/-! ### What stays -/

section Stays

variable {may : BindingRef → BindingStep → Prop}

lemma Move.size_le (move : Move may h h') : h.bindings.size ≤ h'.bindings.size := by
  cases move with
  | change change bindings containers => rw [bindings]
  | markProducing => exact Nat.le_of_eq (size_updateBinding _ _ _).symm
  | hold => exact Nat.le_of_eq (size_updateBinding _ _ _).symm
  | bind c ty =>
    rw [bindings_bind, Array.size_push]
    exact Nat.le_succ _
  | configure => exact Nat.le_of_eq (size_configureStep _ _ _).symm
  | _ => exact Nat.le_refl _

lemma Moves.size_le (moves : Moves may h h') : h.bindings.size ≤ h'.bindings.size := by
  induction moves with
  | refl => exact Nat.le_refl _
  | tail _ move ih => exact ih.trans move.size_le

/-- A resolved binding stays resolved, and its answer stays the same unless it is given another
instance. -/
lemma Move.resolved (move : Move may h h') (resolved : (h.binding ref).resolved = true) :
    (h'.binding ref).resolved = true ∧
      ((∀ source, ¬may ref (.fromInstance source)) →
        (h'.binding ref).held = (h.binding ref).held) := by
  have valid := lt_size_of_resolved resolved
  cases move with
  | change change bindings containers =>
    rw [binding, bindings]
    exact ⟨resolved, fun _ => rfl⟩
  | markProducing ref' producing =>
    rw [Host.markProducing, binding_updateBinding]
    split
    · exact ⟨resolved, fun _ => rfl⟩
    · exact ⟨resolved, fun _ => rfl⟩
  | @hold ref' value unresolved producing scope =>
    have other : ref' ≠ ref := by
      rintro rfl
      rw [unresolved] at resolved
      cases resolved
    rw [Host.hold, binding_updateBinding_of_ne other]
    exact ⟨resolved, fun _ => rfl⟩
  | bind c ty =>
    rw [binding_bind_of_lt valid]
    exact ⟨resolved, fun _ => rfl⟩
  | @configure ref' step allowed =>
    by_cases other : ref' = ref
    · subst other
      obtain ⟨same, held, -⟩ := binding_configureStep_self valid step
      refine ⟨same ▸ resolved, fun forbidden => ?_⟩
      rcases held with held | ⟨-, source, rfl⟩
      · exact held
      · exact absurd allowed (forbidden source)
    · rw [binding_configureStep_of_ne other]
      exact ⟨resolved, fun _ => rfl⟩
  | _ => exact ⟨resolved, fun _ => rfl⟩

lemma Moves.resolved (moves : Moves may h h') (resolved : (h.binding ref).resolved = true) :
    (h'.binding ref).resolved = true ∧
      ((∀ source, ¬may ref (.fromInstance source)) →
        (h'.binding ref).held = (h.binding ref).held) := by
  induction moves with
  | refl => exact ⟨resolved, fun _ => rfl⟩
  | tail _ move ih =>
    have next := move.resolved ih.1
    exact ⟨next.1, fun forbidden => (next.2 forbidden).trans (ih.2 forbidden)⟩

end Stays

end Host
end Weaver
