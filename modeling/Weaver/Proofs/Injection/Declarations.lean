import Weaver.Proofs.Injection.Standing
import Weaver.Proofs.Weave.Resolution

/-!
# Declared bindings

A container in which types were bound to themselves, each with a scope, has these bindings and no
others. Nothing is held yet and nothing is being made.

Two things live here:

* `Host.Declares`, which every such declaration keeps up;
* `Host.bindingFor?_of_declares`, what is found in such a container for types without supertypes.
-/

namespace Weaver

/-- Steps that bind a type to itself and give the binding a scope. -/
structure BindingStep.Own (ty : String) (steps : List BindingStep) : Prop where
  kinds : ∀ step ∈ steps, step = .madeAs ty ∨ step = .asSingleton ∨ step = .asTransient
  scope : .asSingleton ∈ steps ∨ .asTransient ∈ steps

namespace Host

variable {c : ContainerRef} {ref : BindingRef} {h : Host} {ty : String} {names : List String}
  {steps : List BindingStep}

/-! ## Configurations -/

/-- These steps change nothing but the binding. -/
lemma exists_configure
    (kinds : ∀ step ∈ steps, step = .madeAs ty ∨ step = .asSingleton ∨ step = .asTransient)
    (h : Host) (ref : BindingRef) : ∃ bindings, h.configure ref steps = { h with bindings } ∧
      bindings.size = h.bindings.size := by
  induction steps generalizing h with
  | nil => exact ⟨h.bindings, rfl, rfl⟩
  | cons step rest ih =>
    have first : ∃ bindings, h.configureStep ref step = { h with bindings } := by
      rcases kinds step List.mem_cons_self with rfl | rfl | rfl
      · exact ⟨_, rfl⟩
      · exact ⟨_, rfl⟩
      · exact ⟨_, rfl⟩
    obtain ⟨bindings, first⟩ := first
    obtain ⟨more, later, size⟩ :=
      ih (fun step member => kinds step (List.mem_cons_of_mem _ member)) (h.configureStep ref step)
    refine ⟨more, ?_, size.trans (size_configureStep h ref step)⟩
    show (h.configureStep ref step).configure ref rest = _
    rw [later, first]

/-- A binding that leads to a type itself goes on to do so, and a step may give it a scope. -/
lemma exists_scope_of_configure {scope : Scope}
    (kinds : ∀ step ∈ steps, step = .madeAs ty ∨ step = .asSingleton ∨ step = .asTransient)
    (valid : ref.index < h.bindings.size)
    (fresh : h.binding ref = { requested := ty, concrete := ty, scope }) :
    ∃ scope', (h.configure ref steps).binding ref
        = { requested := ty, concrete := ty, scope := scope' } ∧
      (scope ≠ .unset ∨ .asSingleton ∈ steps ∨ .asTransient ∈ steps → scope' ≠ .unset) := by
  induction steps generalizing h scope with
  | nil =>
    refine ⟨scope, fresh, fun set => ?_⟩
    simpa using set
  | cons step rest ih =>
    have first : ∃ scope', (h.configureStep ref step).binding ref
        = { requested := ty, concrete := ty, scope := scope' } ∧
        (scope ≠ .unset ∨ step = .asSingleton ∨ step = .asTransient → scope' ≠ .unset) := by
      rcases kinds step List.mem_cons_self with rfl | rfl | rfl
      · refine ⟨scope, ?_, by simp⟩
        rw [configureStep, binding_updateBinding_self valid, fresh]
      · refine ⟨.singleton, ?_, by simp⟩
        rw [configureStep, binding_updateBinding_self valid, fresh]
      · refine ⟨.transient, ?_, by simp⟩
        rw [configureStep, binding_updateBinding_self valid, fresh]
    obtain ⟨scope₁, first, set₁⟩ := first
    obtain ⟨scope₂, later, set₂⟩ :=
      ih (fun step member => kinds step (List.mem_cons_of_mem _ member))
        (by rwa [size_configureStep]) first
    refine ⟨scope₂, later, fun set => set₂ ?_⟩
    simp only [List.mem_cons] at set
    tauto

/-! ## Declarations -/

/-- A container has bindings for types of these names, in this order, and each leads to the type
itself. -/
structure Declares (c : ContainerRef) (names : List String) (h : Host) : Prop where
  container : c.index < h.containers.size
  depth : (h.container c).depth = 0
  names : (h.container c).bindings.map (·.1) = names
  own : ∀ b ∈ (h.container c).bindings, b.2.index < h.bindings.size ∧
    ∃ scope, scope ≠ .unset ∧ h.binding b.2 = { requested := b.1, concrete := b.1, scope }

lemma declares_addContainer (h : Host) : Declares h.addContainer.1 [] h.addContainer.2 := by
  have empty : h.addContainer.2.container h.addContainer.1 = {} := by
    simp [addContainer, container, Array.getD_eq_getD_getElem?]
  refine ⟨by simp [addContainer], by rw [empty], by rw [empty]; rfl, fun b member => ?_⟩
  rw [empty] at member
  cases member

/-- One more binding is declared. -/
lemma Declares.declareWith (declares : Declares c names h) (own : BindingStep.Own ty steps) :
    Declares c (names ++ [ty]) (h.declareWith c ty steps) := by
  let h₁ := (h.bind c ty).2
  let ref : BindingRef := ⟨h.bindings.size⟩
  have whole : h.declareWith c ty steps = h₁.configure ref steps := rfl
  have bound : h₁.container c
      = { h.container c with bindings := (h.container c).bindings ++ [(ty, ref)] } := by
    change (Host.updateContainer _ c _).container c = _
    rw [container_updateContainer, if_pos ⟨rfl, declares.container⟩]
    rfl
  obtain ⟨bindings, same, size⟩ := exists_configure own.kinds h₁ ref
  have still : (h.declareWith c ty steps).container c = h₁.container c := by
    rw [whole, same]
    rfl
  have size : (h.declareWith c ty steps).bindings.size = h.bindings.size + 1 := by
    rw [whole, same, size, bindings_bind, Array.size_push]
  refine ⟨?_, ?_, ?_, fun b member => ?_⟩
  · rw [whole, same]
    exact (size_updateContainer _ c _).symm ▸ declares.container
  · rw [still, bound]
    exact declares.depth
  · rw [still, bound, List.map_append, declares.names]
    rfl
  · rw [still, bound] at member
    rw [size]
    rcases List.mem_append.1 member with old | new
    · obtain ⟨valid, scope, set, there⟩ := declares.own b old
      refine ⟨Nat.lt_succ_of_lt valid, scope, set, ?_⟩
      rw [binding_declareWith_of_lt valid, there]
    · rw [List.mem_singleton.1 new]
      have valid : ref.index < h₁.bindings.size := by
        rw [bindings_bind, Array.size_push]
        exact Nat.lt_succ_self _
      have fresh : h₁.binding ref = { requested := ty, concrete := ty } := by
        simp [h₁, ref, binding, bindings_bind, Array.getD_eq_getD_getElem?]
      obtain ⟨scope, there, set⟩ := exists_scope_of_configure own.kinds valid fresh
      exact ⟨Nat.lt_succ_self _, scope, set (.inr own.scope), there⟩

/-- Types are bound to themselves, one after the other. -/
lemma Declares.declare {bindings : List (String × List BindingStep)} (declares : Declares c names h)
    (own : ∀ b ∈ bindings, BindingStep.Own b.1 b.2) :
    Declares c (names ++ bindings.map (·.1)) (h.declare c bindings) := by
  induction bindings generalizing h names with
  | nil => simpa [Host.declare] using declares
  | cons b rest ih =>
    have first := declares.declareWith (own b List.mem_cons_self)
    have later := ih first fun b' member => own b' (List.mem_cons_of_mem _ member)
    rw [List.append_assoc] at later
    exact later

/-- Declarations of this kind change nothing but containers and bindings. -/
lemma exists_declare {bindings : List (String × List BindingStep)}
    (own : ∀ b ∈ bindings, BindingStep.Own b.1 b.2) (h : Host) (c : ContainerRef) :
    ∃ containers bindings',
      h.declare c bindings = { h with containers, bindings := bindings' } := by
  induction bindings generalizing h with
  | nil => exact ⟨h.containers, h.bindings, rfl⟩
  | cons b rest ih =>
    obtain ⟨bindings₁, first, -⟩ :=
      exists_configure (own b List.mem_cons_self).kinds (h.bind c b.1).2 (h.bind c b.1).1
    obtain ⟨containers₂, bindings₂, later⟩ := ih
      (fun b' member => own b' (List.mem_cons_of_mem _ member))
      ((h.bind c b.1).2.configure (h.bind c b.1).1 b.2)
    refine ⟨containers₂, bindings₂, ?_⟩
    show Host.declare _ c rest = _
    rw [later, first]
    rfl

/-! ## Lookups -/

/-- For a type without a supertype, only its own bindings are searched. -/
lemma bindingFor?_of_base (base : h.types.supertype? ty = none) : h.bindingFor? c ty
    = ((h.container c).bindings.find? (·.1 == ty)).map (·.2) := by
  have chain : h.types.chain maxHierarchyDepth ty = [ty] := by
    rw [maxHierarchyDepth, Universe.chain, base]
  rw [bindingFor?, chain, List.findSome?_cons, bindingsFor, List.head?_map, List.head?_filter]
  cases (h.container c).bindings.find? (·.1 == ty) with
  | none => rfl
  | some b => rfl

/-- A declared type is found with its binding. -/
lemma bindingFor?_of_declares (declares : Declares c names h) (base : h.types.supertype? ty = none)
    (declared : ty ∈ names) : ∃ ref, h.bindingFor? c ty = some ref ∧
      ref.index < h.bindings.size ∧
      ∃ scope, scope ≠ .unset ∧ h.binding ref = { requested := ty, concrete := ty, scope } := by
  rw [← declares.names] at declared
  obtain ⟨b, member, rfl⟩ := List.mem_map.1 declared
  have there : ((h.container c).bindings.find? (·.1 == b.1)).isSome :=
    List.find?_isSome.2 ⟨b, member, beq_self_eq_true _⟩
  obtain ⟨first, found⟩ := Option.isSome_iff_exists.1 there
  obtain ⟨valid, scope, set, same⟩ := declares.own first (List.mem_of_find?_eq_some found)
  have named : first.1 = b.1 := by simpa using List.find?_some found
  refine ⟨first.2, ?_, valid, scope, set, named ▸ same⟩
  rw [bindingFor?_of_base base, found]
  rfl

/-- Other types are not found. -/
lemma bindingFor?_eq_none_of_declares (declares : Declares c names h)
    (base : h.types.supertype? ty = none) (undeclared : ty ∉ names) :
    h.bindingFor? c ty = none := by
  have missing : (h.container c).bindings.find? (·.1 == ty) = none := by
    refine List.find?_eq_none.2 fun b member same => undeclared ?_
    rw [← declares.names, ← eq_of_beq same]
    exact List.mem_map_of_mem member
  rw [bindingFor?_of_base base, missing]
  rfl

end Host
end Weaver
