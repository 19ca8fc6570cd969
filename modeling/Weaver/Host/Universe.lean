import Weaver.Host.Error
import Weaver.Host.Value

/-!
# Loaded types

The types of all loaded modules, each with its module. Supertypes and interfaces are names: they may
lead to types that are not loaded, and around in circles.
-/

namespace Weaver

/-- A type and the module that declares it. -/
structure LoadedType where
  module : String
  definition : TypeDef
deriving DecidableEq, Inhabited

/-- A field of an object: the type that declares it, its name and its value. -/
structure Slot where
  owner : String
  name : String
  value : Value
deriving DecidableEq, Inhabited

/-- The loaded types in the order of loading. -/
abbrev Universe := List LoadedType

namespace Universe

/-- The loaded type of a name. -/
def find? (u : Universe) (ty : String) : Option LoadedType :=
  List.find? (·.definition.name == ty) u

/-- The declared supertype of a loaded type. -/
def supertype? (u : Universe) (ty : String) : Option String :=
  (u.find? ty).bind (·.definition.supertype)

/-! ## Conformance -/

/-- The names one step up from a type: its supertype and its interfaces. -/
def parents (t : TypeDef) : List String :=
  t.supertype.toList ++ t.interfaces

/-- The loaded types that a search has not seen yet. -/
def unseen (u : Universe) (seen : List String) : Universe :=
  u.filter fun t => !seen.contains t.definition.name

theorem unseen_cons (u : Universe) (ty : String) (seen : List String) :
    u.unseen (ty :: seen) = (u.unseen seen).filter fun t => !(t.definition.name == ty) := by
  simp only [unseen, List.filter_filter, List.contains_cons, Bool.not_or]

theorem length_unseen_cons_le (u : Universe) (ty : String) (seen : List String) :
    (u.unseen (ty :: seen)).length ≤ (u.unseen seen).length := by
  rw [unseen_cons]
  exact List.length_filter_le _ _

theorem length_unseen_lt {u : Universe} {seen : List String} {ty : String} {t : LoadedType}
    (found : u.find? ty = some t) (fresh : seen.contains ty = false) :
    (u.unseen (ty :: seen)).length < (u.unseen seen).length := by
  have named : t.definition.name = ty := by
    simpa using List.find?_some found
  have member : t ∈ u := List.mem_of_find?_eq_some found
  rw [unseen_cons]
  apply List.length_filter_lt_length_iff_exists.2
  refine ⟨t, ?_, by simp [named]⟩
  simp only [unseen, List.mem_filter]
  exact ⟨member, by rw [named, fresh]; rfl⟩

/-- A bound on the number of names that one more type adds to a search. -/
def width (u : Universe) : Nat :=
  (u.flatMap fun t => parents t.definition).length

theorem length_parents_le_width {u : Universe} {ty : String} {t : LoadedType}
    (found : u.find? ty = some t) : (parents t.definition).length ≤ u.width := by
  obtain ⟨before, after, rfl⟩ := List.append_of_mem (List.mem_of_find?_eq_some found)
  simp only [width, List.flatMap_append, List.flatMap_cons, List.length_append]
  omega

/-- Searches for a target among pending names and what lies above them, past what was seen. -/
def search (u : Universe) (target : String) (seen pending : List String) : Bool :=
  match pending with
  | [] => false
  | ty :: pending =>
    if ty = target then true
    else if _fresh : seen.contains ty then u.search target seen pending
    else match _found : u.find? ty with
      | none => u.search target (ty :: seen) pending
      | some t => u.search target (ty :: seen) (parents t.definition ++ pending)
-- one number instead of a pair, so that searches of given types can be computed in proofs
termination_by (u.unseen seen).length * (u.width + 1) + pending.length
decreasing_by
  · exact Nat.add_lt_add_left (Nat.lt_succ_self _) _
  · have fewer := Nat.mul_le_mul_right (u.width + 1) (u.length_unseen_cons_le ty seen)
    rw [List.length_cons]
    omega
  · have fewer := Nat.mul_le_mul_right (u.width + 1)
      (Nat.succ_le_of_lt (length_unseen_lt _found (by simpa using _fresh)))
    have added := length_parents_le_width _found
    rw [Nat.succ_mul] at fewer
    rw [List.length_append, List.length_cons]
    omega

/-- Whether a type is another, or that one lies above it through supertypes and interfaces of loaded
types. -/
def conforms (u : Universe) (ty target : String) : Bool :=
  u.search target [] [ty]

/-! ## Layout -/

/-- The fields that a type declares, with the values they start with. -/
def ownSlots (t : TypeDef) : List Slot :=
  t.fields.map fun f => { owner := t.name, name := f.name, value := .defaultOf f.ty }

/-- The fields of a type and of the loaded types above it, at most `bound` of them; `none` when
there are more. -/
def slots? (u : Universe) : (bound : Nat) → String → Option (List Slot)
  | bound, ty =>
    match u.find? ty with
    | none => some []
    | some t =>
      match bound, t.definition.supertype with
      | 0, _ => none
      | _ + 1, none => some (ownSlots t.definition)
      | bound + 1, some parent => (u.slots? bound parent).map (ownSlots t.definition ++ ·)

/-- The fields of a new object of a loaded type: its own first, then those of its supertypes. -/
def layout (u : Universe) (ty : String) : Except HostError (List Slot) :=
  if (u.find? ty).isNone then .error (.execution (.unknownType ty))
  else match u.slots? maxHierarchyDepth ty with
    | some slots => .ok slots
    | none => .error (.execution (.hierarchyTooDeep ty))

/-! ## Chains -/

/-- The first `bound` names of a type and its supertypes. -/
def chain (u : Universe) : (bound : Nat) → String → List String
  | 0, _ => []
  | bound + 1, ty =>
    ty :: match u.supertype? ty with
      | some parent => u.chain bound parent
      | none => []

end Universe

end Weaver
