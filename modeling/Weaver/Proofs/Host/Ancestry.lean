import Weaver.Proofs.Engine.Resolutions
import Weaver.Proofs.Host.LifeCycle

/-!
# The binding that governs a resolution

A container without a binding for a type uses the one of its nearest supertype that has any. The
supertypes are names, which may lead around in circles or to types that are not loaded, so the lookup
gives up after so many of them; so does the layout of objects, by a count of its own.

Three things live here:

* `Universe.ancestor?`, the name so many steps above a type, what of it a lookup consults and which
  types can be laid out;
* `Host.Earliest`, the binding of a name that was declared before all others, and `Host.Governs`;
* `Host.Consults`, what the lookup of a type does on any host: it finds the governing binding, and
  whatever can be instantiated has no ancestor beyond its reach.
-/

namespace Weaver

/-! ## Ancestors -/

namespace Universe

variable {u : Universe} {ty name : String} {n : ℕ}

/-- The name that many steps up the supertypes of a type. -/
def ancestor? (u : Universe) (ty : String) : ℕ → Option String
  | 0 => some ty
  | n + 1 => (u.ancestor? ty n).bind u.supertype?

@[simp] lemma ancestor?_zero : u.ancestor? ty 0 = some ty := rfl

/-- The first step up may be taken first. -/
lemma ancestor?_succ (u : Universe) (ty : String) (n : ℕ) :
    u.ancestor? ty (n + 1) = (u.supertype? ty).bind fun parent => u.ancestor? parent n := by
  induction n with
  | zero => cases parent : u.supertype? ty <;> simp [ancestor?, parent]
  | succ n ih =>
    rw [ancestor?, ih, Option.bind_assoc]
    rfl

/-- The names of a chain are the first ancestors. -/
lemma getElem?_chain (u : Universe) (bound : ℕ) (ty : String) (n : ℕ) :
    (u.chain bound ty)[n]? = if n < bound then u.ancestor? ty n else none := by
  induction bound generalizing ty n with
  | zero => rfl
  | succ bound ih =>
    rw [chain]
    cases n with
    | zero => simp
    | succ n =>
      rw [List.getElem?_cons_succ, ancestor?_succ]
      cases u.supertype? ty with
      | none => simp
      | some parent => simpa using ih parent n

/-- Only a loaded type has a supertype. -/
lemma isSome_find?_of_ancestor?_succ {above : String} (here : u.ancestor? ty n = some name)
    (next : u.ancestor? ty (n + 1) = some above) : (u.find? name).isSome := by
  rw [ancestor?, here, Option.bind_some, supertype?] at next
  cases found : u.find? name with
  | none =>
    rw [found] at next
    cases next
  | some t => rfl

/-- There is an ancestor below each ancestor. -/
lemma exists_ancestor?_of_le {m : ℕ} (le : m ≤ n) (here : u.ancestor? ty n = some name) :
    ∃ nearer, u.ancestor? ty m = some nearer := by
  induction le generalizing name with
  | refl => exact ⟨name, here⟩
  | step le ih =>
    obtain ⟨nearer, below, -⟩ := Option.bind_eq_some_iff.1 here
    exact ih below

/-- The fields of a type can be laid out exactly when so many steps up there is no loaded type any
more. -/
lemma isSome_slots?_iff (u : Universe) (bound : ℕ) (ty : String) :
    (u.slots? bound ty).isSome ↔
      ∀ name, u.ancestor? ty bound = some name → u.find? name = none := by
  induction bound generalizing ty with
  | zero =>
    rw [slots?]
    cases found : u.find? ty <;> simp [found]
  | succ bound ih =>
    rw [slots?, ancestor?_succ, supertype?]
    cases u.find? ty with
    | none => simp
    | some t =>
      dsimp only [Option.bind_some]
      cases t.definition.supertype with
      | none => simp
      | some parent => simpa using ih parent

/-- Which types have a layout. -/
lemma exists_layout_iff (u : Universe) (ty : String) :
    (∃ slots, u.layout ty = .ok slots) ↔ (u.find? ty).isSome ∧
      ∀ name, u.ancestor? ty maxHierarchyDepth = some name → u.find? name = none := by
  rw [← isSome_slots?_iff, layout]
  cases u.find? ty with
  | none => simp
  | some t => cases u.slots? maxHierarchyDepth ty <;> simp

/-- The loaded ancestors of a type that has a layout are among the first ones. -/
lemma lt_of_layout {slots : List Slot} (laid : u.layout ty = .ok slots)
    (above : u.ancestor? ty n = some name) (loaded : (u.find? name).isSome) :
    n < maxHierarchyDepth := by
  have ends := ((exists_layout_iff u ty).1 ⟨slots, laid⟩).2
  by_contra far
  obtain ⟨last, there⟩ := exists_ancestor?_of_le (Nat.le_of_not_lt far) above
  have unloaded := ends last there
  rcases Nat.eq_or_lt_of_le (Nat.le_of_not_lt far) with same | beyond
  · rw [same, above] at there
    cases there
    rw [unloaded] at loaded
    cases loaded
  · -- the type at the bound would have a supertype
    obtain ⟨next, there'⟩ := exists_ancestor?_of_le beyond above
    have loaded' := isSome_find?_of_ancestor?_succ there there'
    rw [unloaded] at loaded'
    cases loaded'

end Universe

namespace Host

variable {h h' : Host} {c : ContainerRef} {ty name : String} {ref : BindingRef}

/-! ## The earliest binding -/

/-- The first of the bindings that a container has for a name. -/
def Earliest (h : Host) (c : ContainerRef) (name : String) (ref : BindingRef) : Prop :=
  ∃ before after, (h.container c).bindings = before ++ (name, ref) :: after ∧
    ∀ b ∈ before, b.1 ≠ name

lemma head?_bindingsFor_eq_some_iff :
    (h.bindingsFor c name).head? = some ref ↔ h.Earliest c name ref := by
  rw [bindingsFor, List.head?_map, List.head?_filter, Option.map_eq_some_iff, Earliest]
  constructor
  · rintro ⟨b, first, rfl⟩
    obtain ⟨same, before, after, split, others⟩ := List.find?_eq_some_iff_append.1 first
    rw [beq_iff_eq] at same
    subst same
    exact ⟨before, after, split, fun b member => by simpa using others b member⟩
  · rintro ⟨before, after, split, others⟩
    refine ⟨(name, ref), List.find?_eq_some_iff_append.2 ⟨beq_self_eq_true _, before, after, split,
      fun b member => ?_⟩, rfl⟩
    simpa using others b member

lemma Earliest.later (earliest : h.Earliest c name ref)
    (longer : (h.container c).bindings <+: (h'.container c).bindings) : h'.Earliest c name ref := by
  obtain ⟨before, after, split, others⟩ := earliest
  obtain ⟨more, same⟩ := longer
  exact ⟨before, after ++ more, by rw [← same, split, List.append_assoc, List.cons_append], others⟩

lemma container_bind (h : Host) (c c' : ContainerRef) (ty : String) :
    (h.bind c ty).2.container c'
      = if c = c' ∧ c.index < h.containers.size then
          { h.container c' with bindings := (h.container c').bindings ++ [(ty, (h.bind c ty).1)] }
        else h.container c' :=
  container_updateContainer _ c c' _

/-- A move leaves the bindings of containers as they are, or adds one to one of them. -/
lemma Move.bindings {may : BindingRef → BindingStep → Prop} (move : Move may h h') :
    (∀ c, (h'.container c).bindings = (h.container c).bindings) ∨
      ∃ c ty, h' = (h.bind c ty).2 := by
  cases move with
  | change change bindings containers => exact .inl fun c => by rw [container, container, containers]
  | enterResolution c room => exact .inl (bindings_updateContainer (by exact fun _ => rfl) h c)
  | leaveResolution c => exact .inl (bindings_updateContainer (by exact fun _ => rfl) h c)
  | bind c ty => exact .inr ⟨c, ty, rfl⟩
  | @configure ref step =>
    refine .inl fun c => ?_
    have same : (h.configureStep ref step).containers = h.containers := by
      cases step with
      | fromInstance source => cases source <;> rfl
      | _ => rfl
    rw [container, container, same]
  | addContainer =>
    exact .inl fun c => by rw [container_addContainer]
  | _ => exact .inl fun _ => rfl

/-- No binding is ever taken from a container or put in front of another. -/
lemma ComesTo.bindings_grow (later : h.ComesTo h') (c : ContainerRef) :
    (h.container c).bindings <+: (h'.container c).bindings := by
  induction later with
  | refl => exact List.prefix_rfl
  | tail _ move ih =>
    rcases move.bindings with same | ⟨c', ty, rfl⟩
    · rw [same]
      exact ih
    · rw [container_bind]
      split
      · exact ih.trans (List.prefix_append _ _)
      · exact ih

/-- The earliest binding of a name is the one that was declared when the container had none for the
name. -/
theorem exists_bind_of_earliest {config : HostConfig} (reached : (Host.new config).ComesTo h)
    (earliest : h.Earliest c name ref) :
    ∃ h₀, (Host.new config).ComesTo h₀ ∧ h₀.bindingsFor c name = [] ∧ ref = (h₀.bind c name).1 ∧
      (h₀.bind c name).2.ComesTo h := by
  induction reached with
  | refl =>
    obtain ⟨before, after, split, -⟩ := earliest
    have none : ((Host.new config).container c).bindings = [] := rfl
    rw [none] at split
    simp at split
  | @tail h h' way move ih =>
    cases first : (h.bindingsFor c name).head? with
    | some ref' =>
      -- it has been there before
      have still := (head?_bindingsFor_eq_some_iff.1 first).later
        (ComesTo.bindings_grow (.move move) c)
      have same := (head?_bindingsFor_eq_some_iff.2 still).symm.trans
        (head?_bindingsFor_eq_some_iff.2 earliest)
      cases same
      obtain ⟨h₀, before, unbound, made, after⟩ := ih (head?_bindingsFor_eq_some_iff.1 first)
      exact ⟨h₀, before, unbound, made, after.trans (.move move)⟩
    | none =>
      have unbound := List.head?_eq_none_iff.1 first
      have there := head?_bindingsFor_eq_some_iff.2 earliest
      rcases move.bindings with same | ⟨c', ty, rfl⟩
      · rw [bindingsFor, same, ← bindingsFor, first] at there
        cases there
      · -- the move is the declaration
        rw [bindingsFor, container_bind] at there
        split at there
        next here =>
          obtain ⟨rfl, valid⟩ := here
          rw [List.filter_append, List.map_append, ← bindingsFor, unbound, List.nil_append] at there
          by_cases same : ty = name
          · subst same
            have own : ref = (h.bind c' ty).1 := by simpa using there.symm
            exact ⟨h, way, unbound, own, .refl _⟩
          · simp [same] at there
        next =>
          rw [← bindingsFor, first] at there
          cases there

/-! ## The lookup -/

/-- The binding that a container is to use for a type: the earliest one of the first name that has
any, among so many names up the supertypes. -/
def Governs (h : Host) (c : ContainerRef) (ty : String) (ref : BindingRef) : Prop :=
  ∃ n name, n < maxHierarchyDepth ∧ h.types.ancestor? ty n = some name ∧ h.Earliest c name ref ∧
    ∀ m < n, ∀ nearer, h.types.ancestor? ty m = some nearer → h.bindingsFor c nearer = []

/-- None of these names has a binding. -/
def Ungoverned (h : Host) (c : ContainerRef) (ty : String) : Prop :=
  ∀ n < maxHierarchyDepth, ∀ name, h.types.ancestor? ty n = some name → h.bindingsFor c name = []

lemma bindingFor?_eq_some_iff : h.bindingFor? c ty = some ref ↔ h.Governs c ty ref := by
  rw [bindingFor?, List.findSome?_eq_some_iff]
  constructor
  · rintro ⟨nearer, name, farther, split, first, unbound⟩
    have at_ (n : ℕ) : (nearer ++ name :: farther)[n]?
        = if n < maxHierarchyDepth then h.types.ancestor? ty n else none := by
      rw [← split, Universe.getElem?_chain]
    have here := at_ nearer.length
    rw [List.getElem?_append_right (Nat.le_refl _), Nat.sub_self, List.getElem?_cons_zero] at here
    have within : nearer.length < maxHierarchyDepth := by
      by_contra far
      rw [if_neg far] at here
      cases here
    rw [if_pos within] at here
    refine ⟨nearer.length, name, within, here.symm, head?_bindingsFor_eq_some_iff.1 first,
      fun m below other above => List.head?_eq_none_iff.1 (unbound other ?_)⟩
    have there := at_ m
    rw [List.getElem?_append_left below, if_pos (below.trans within), above] at there
    exact List.mem_of_getElem? there
  · rintro ⟨n, name, within, above, earliest, unbound⟩
    have here := h.types.getElem?_chain maxHierarchyDepth ty n
    rw [if_pos within, above] at here
    obtain ⟨lt, same⟩ := List.getElem?_eq_some_iff.1 here
    refine ⟨(h.types.chain maxHierarchyDepth ty).take n, name,
      (h.types.chain maxHierarchyDepth ty).drop (n + 1), ?_,
      head?_bindingsFor_eq_some_iff.2 earliest, fun other member => ?_⟩
    · rw [← same, ← List.drop_eq_getElem_cons lt, List.take_append_drop]
    · obtain ⟨m, below, rfl⟩ := List.mem_take_iff_getElem.1 member
      have below := Nat.lt_min.1 below
      have there := h.types.getElem?_chain maxHierarchyDepth ty m
      rw [if_pos (below.1.trans within), List.getElem?_eq_getElem below.2] at there
      rw [unbound m below.1 _ there.symm]
      rfl

lemma bindingFor?_eq_none_iff : h.bindingFor? c ty = none ↔ h.Ungoverned c ty := by
  rw [bindingFor?, List.findSome?_eq_none_iff]
  constructor
  · intro unbound n within name above
    have here := h.types.getElem?_chain maxHierarchyDepth ty n
    rw [if_pos within, above] at here
    exact List.head?_eq_none_iff.1 (unbound name (List.mem_of_getElem? here))
  · intro unbound name member
    obtain ⟨n, here⟩ := List.mem_iff_getElem?.1 member
    rw [Universe.getElem?_chain] at here
    split at here
    next within =>
      rw [unbound n within name here]
      rfl
    next => cases here

/-- Finds the binding for a type. -/
def findBinding (c : ContainerRef) (ty : String) : Run BindingRef := do
  match (← get).bindingFor? c ty with
  | none => throw (.notFound ty)
  | some ref => return ref

/-- What a resolution that the limit permits does with the binding that is found. -/
lemma run_resolve_eq (room : (h.container c).depth < maxResolveDepth) :
    (resolve c ty).run h
      = (Run.between (·.enterResolution c) (·.leaveResolution c)
          (findBinding c ty >>= Engine.unlimited.resolveBinding c ty)).run h := by
  rw [resolve_eq, Engine.run_resolve_of_lt room, Run.run_between, Run.run_between, findBinding,
    bind_assoc, Run.run_get_bind, Run.run_get_bind]
  cases (h.enterResolution c).bindingFor? c ty <;> rfl

/-- How a container finds the binding for a type, on a host with any types and any bindings. -/
structure Consults (h : Host) (c : ContainerRef) (ty : String) : Prop where
  /-- A resolution goes on with what is found, and fails if nothing is. -/
  resolve : (h.container c).depth < maxResolveDepth →
    (resolve c ty).run h
      = (Run.between (·.enterResolution c) (·.leaveResolution c)
          (findBinding c ty >>= Engine.unlimited.resolveBinding c ty)).run h
  /-- What is found on the way in is what is found before. -/
  enters : (findBinding c ty).run (h.enterResolution c)
    = ((findBinding c ty).run h).map fun (r, _) => (r, h.enterResolution c)
  found (ref : BindingRef) : (findBinding c ty).run h = some (.ok ref, h) ↔ h.Governs c ty ref
  missing : (findBinding c ty).run h = some (.error (.notFound ty), h) ↔ h.Ungoverned c ty
  /-- There are no other ends. -/
  ends : (∃ ref, h.Governs c ty ref) ∨ h.Ungoverned c ty
  /-- The earliest binding is the one that was declared while there was none for the name. -/
  earliest {config : HostConfig} {name : String} {ref : BindingRef} :
    (Host.new config).ComesTo h → h.Earliest c name ref →
      ∃ h₀, (Host.new config).ComesTo h₀ ∧ h₀.bindingsFor c name = [] ∧
        ref = (h₀.bind c name).1 ∧ (h₀.bind c name).2.ComesTo h
  /-- It remains the earliest. -/
  remains {name : String} {ref : BindingRef} {h' : Host} :
    h.Earliest c name ref → h.ComesTo h' → h'.Earliest c name ref
  /-- A type can be instantiated exactly when it is loaded and there is no loaded type beyond the
  names that the lookup consults. -/
  instantiable : (∃ value h', (Run.instantiate ty).run h = some (.ok value, h')) ↔
    (h.types.find? ty).isSome ∧
      ∀ name, h.types.ancestor? ty maxHierarchyDepth = some name → h.types.find? name = none
  /-- So a binding for a loaded ancestor is consulted: no later one governs, and one does. -/
  reaches {value : Value} {h' : Host} {n : ℕ} {name : String} :
    (Run.instantiate ty).run h = some (.ok value, h') → h.types.ancestor? ty n = some name →
      (h.types.find? name).isSome → n < maxHierarchyDepth ∧ (h.bindingsFor c name ≠ [] →
        ∃ m ≤ n, ∃ nearer ref, h.types.ancestor? ty m = some nearer ∧ h.Earliest c nearer ref ∧
          h.Governs c ty ref ∧ (findBinding c ty).run h = some (.ok ref, h))

lemma run_instantiate_eq_ok_iff {value : Value} :
    (Run.instantiate ty).run h = some (.ok value, h') ↔
      ∃ slots, h.types.layout ty = .ok slots ∧ value = .object (h.allocate { ty, slots }).1 ∧
        h' = (h.allocate { ty, slots }).2 := by
  rw [Run.instantiate, Run.run_get_bind]
  cases h.types.layout ty with
  | error e => exact ⟨nofun, fun ⟨_, laid, _⟩ => nomatch laid⟩
  | ok slots =>
    constructor
    · intro run
      cases run
      exact ⟨slots, rfl, rfl, rfl⟩
    · rintro ⟨_, laid, rfl, rfl⟩
      cases laid
      rfl

/-- What every host does to find the binding for a type. -/
theorem consults (h : Host) (c : ContainerRef) (ty : String) : h.Consults c ty := by
  have finds : (findBinding c ty).run h = some (match h.bindingFor? c ty with
      | none => .error (.notFound ty)
      | some ref => .ok ref, h) := by
    rw [findBinding, Run.run_get_bind]
    cases h.bindingFor? c ty <;> rfl
  have found (ref : BindingRef) :
      (findBinding c ty).run h = some (.ok ref, h) ↔ h.Governs c ty ref := by
    rw [finds, ← bindingFor?_eq_some_iff]
    cases h.bindingFor? c ty <;> simp
  exact
    { resolve := run_resolve_eq
      enters := by
        rw [finds, findBinding, Run.run_get_bind, bindingFor?_enterResolution]
        cases h.bindingFor? c ty <;> rfl
      found
      missing := by
        rw [finds, ← bindingFor?_eq_none_iff]
        cases h.bindingFor? c ty <;> simp
      ends := by
        cases governing : h.bindingFor? c ty with
        | some ref => exact .inl ⟨ref, bindingFor?_eq_some_iff.1 governing⟩
        | none => exact .inr (bindingFor?_eq_none_iff.1 governing)
      earliest := exists_bind_of_earliest
      remains := fun earliest later => earliest.later (later.bindings_grow c)
      instantiable := by
        rw [← Universe.exists_layout_iff]
        constructor
        · rintro ⟨value, h', made⟩
          obtain ⟨slots, laid, -⟩ := run_instantiate_eq_ok_iff.1 made
          exact ⟨slots, laid⟩
        · rintro ⟨slots, laid⟩
          exact ⟨_, _, run_instantiate_eq_ok_iff.2 ⟨slots, laid, rfl, rfl⟩⟩
      reaches := fun {value h' n name} made above loaded => by
        obtain ⟨slots, laid, -⟩ := run_instantiate_eq_ok_iff.1 made
        have within := Universe.lt_of_layout laid above loaded
        refine ⟨within, fun bound => ?_⟩
        cases governing : h.bindingFor? c ty with
        | none => exact absurd (bindingFor?_eq_none_iff.1 governing n within name above) bound
        | some ref =>
          have governs := bindingFor?_eq_some_iff.1 governing
          obtain ⟨m, nearer, -, there, earliest, unbound⟩ := id governs
          refine ⟨m, Nat.le_of_not_lt fun farther => ?_, nearer, ref, there, earliest, governs,
            (found ref).2 governs⟩
          exact bound (unbound n farther name above) }

end Host
end Weaver
