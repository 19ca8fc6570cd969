import Weaver.Proofs.Host.Conformance
import Weaver.Proofs.Host.Loading
import Weaver.Proofs.Host.Validity

/-!
# Type tests

An object is an instance of its type and of every name that lies above it. The search for a name may
be written as a loop over a stack: a round takes the top name, puts what lies above it in its place,
and only then marks the name and clears the stack of all that is marked. No name is taken twice, so
the loop ends even where supertypes and interfaces lead around in circles.

Three things live here:

* `Universe.climb`, the loop with a limit on its rounds, and `Universe.climb_eq_conforms`, by which it
  needs no more rounds than there are links between types, and one;
* `Host.TypeTests`, what the tests of a host answer: exactly what lies above, reflexively and
  transitively, and once and for all;
* `exists_broken_chain`, the exception: every object is an instance of the root type, so a loaded
  type of that name may have a supertype that other objects are no instances of.
-/

namespace Weaver
namespace Universe

variable {u : Universe} {target : String}

/-! ## The loop -/

/-- Searches for a target in so many rounds: what lies above the top of the stack goes onto the
stack, and then everything that was marked comes off it. -/
def climb (u : Universe) (target : String) :
    (rounds : ℕ) → (marked stack : List String) → Option Bool
  | _, _, [] => some false
  | 0, _, _ :: _ => none
  | rounds + 1, marked, ty :: stack =>
    if ty = target then some true
    else u.climb target rounds (ty :: marked)
      (((u.parentsOf ty).reverse ++ stack).filter (· ∉ ty :: marked))

/-- The names that something lies below, once for each link. -/
def upperNames (u : Universe) : List String :=
  u.flatMap fun t => parents t.definition

lemma parentsOf_subset_upperNames (u : Universe) (ty : String) : u.parentsOf ty ⊆ u.upperNames := by
  intro parent member
  rw [parentsOf] at member
  cases found : u.find? ty with
  | none =>
    rw [found] at member
    cases member
  | some t =>
    rw [found] at member
    exact List.mem_flatMap.2 ⟨t, List.mem_of_find?_eq_some found, member⟩

/-- Marking a name leaves fewer of the names unmarked. -/
lemma countP_unmarked_lt {names marked : List String} {ty : String} (member : ty ∈ names)
    (fresh : ty ∉ marked) :
    names.countP (· ∉ ty :: marked) < names.countP (· ∉ marked) := by
  rw [List.countP_eq_length_filter, List.countP_eq_length_filter]
  have split : names.filter (· ∉ ty :: marked)
      = (names.filter (· ∉ marked)).filter (· ≠ ty) := by
    rw [List.filter_filter]
    refine List.filter_congr fun name _ => ?_
    simp [not_or]
  rw [split]
  refine List.length_filter_lt_length_iff_exists.2 ⟨ty, ?_, by simp⟩
  simp [member, fresh]

/-- A name that was seen need not be pending. -/
lemma Searching.clear {seen pending : List String} (searching : u.Searching target seen pending) :
    u.Searching target seen (pending.filter (· ∉ seen)) := by
  intro ty member
  obtain ⟨other, parents⟩ := searching ty member
  refine ⟨other, fun parent hp => ?_⟩
  by_cases known : parent ∈ seen
  · exact .inl known
  · refine .inr (List.mem_filter.2 ⟨(parents parent hp).resolve_left known, by simpa using known⟩)

/-- Neither the order of what is pending matters nor what was seen already. -/
lemma Searching.search_eq {seen pending pending' : List String}
    (searching : u.Searching target seen pending')
    (sound : ∀ ty ∈ pending', ty ∈ pending)
    (complete : ∀ ty ∈ pending, ty ∈ seen ∨ ty ∈ pending') :
    u.search target seen pending = u.search target seen pending' := by
  have weaker : u.Searching target seen pending := fun ty member =>
    ⟨(searching ty member).1, fun parent hp => ((searching ty member).2 parent hp).imp_right
      (sound parent)⟩
  rw [Bool.eq_iff_iff]
  constructor
  · intro found
    obtain ⟨ty, member, above⟩ := exists_above_of_search found
    exact search_of_above searching (complete ty member) above
  · intro found
    obtain ⟨ty, member, above⟩ := exists_above_of_search found
    exact search_of_above weaker (.inr (sound ty member)) above

/-- With a round for each name that is not marked yet, the loop ends as the search does. -/
lemma climb_eq_search {names : List String} (closed : u.upperNames ⊆ names) {rounds : ℕ}
    {marked stack : List String} (fresh : ∀ ty ∈ stack, ty ∉ marked) (known : stack ⊆ names)
    (searching : u.Searching target marked stack) (enough : names.countP (· ∉ marked) ≤ rounds) :
    u.climb target rounds marked stack = some (u.search target marked stack) := by
  induction rounds generalizing marked stack with
  | zero =>
    cases stack with
    | nil => rw [climb, search_nil]
    | cons ty stack =>
      -- the top of the stack is a name that is not marked
      have left := countP_unmarked_lt (known List.mem_cons_self) (fresh ty List.mem_cons_self)
      omega
  | succ rounds ih =>
    cases stack with
    | nil => rw [climb, search_nil]
    | cons ty stack =>
      have unmarked := fresh ty List.mem_cons_self
      rw [climb, search_cons]
      by_cases same : ty = target
      · rw [if_pos same, if_pos same]
      rw [if_neg same, if_neg same, if_neg (by simpa using unmarked)]
      have visited : u.Searching target (ty :: marked) ((u.parentsOf ty).reverse ++ stack) := by
        intro low member
        obtain ⟨other, parents⟩ := searching.visit same low member
        exact ⟨other, fun parent hp => (parents parent hp).imp_right (by simp)⟩
      have fewer := countP_unmarked_lt (known List.mem_cons_self) unmarked
      rw [ih (fun low member => by simpa using (List.mem_filter.1 member).2) ?_ visited.clear
        (by omega)]
      · refine congrArg some (visited.clear.search_eq (fun low member => ?_) fun low member => ?_).symm
        · have there := (List.mem_filter.1 member).1
          simpa using there
        · by_cases seen : low ∈ ty :: marked
          · exact .inl seen
          · refine .inr (List.mem_filter.2 ⟨by simpa using member, by simpa using seen⟩)
      · intro low member
        rcases List.mem_append.1 (List.mem_filter.1 member).1 with parent | below
        · exact closed (u.parentsOf_subset_upperNames ty (List.mem_reverse.1 parent))
        · exact known (List.mem_cons_of_mem _ below)

/-- Nothing lies above a type without parents but the type. -/
lemma eq_of_above {ty : String} (top : u.parentsOf ty = []) (above : u.Above ty target) :
    target = ty := by
  rcases Relation.ReflTransGen.cases_head above with same | ⟨next, parent, -⟩
  · exact same.symm
  · rw [top] at parent
    cases parent

/-- The loop ends within a round for the type and one for each link, with what the search finds. -/
theorem climb_eq_conforms {rounds : ℕ} {ty : String} (enough : u.upperNames.length < rounds) :
    u.climb target rounds [] [ty] = some (u.conforms ty target) := by
  have known : u.upperNames ⊆ ty :: u.upperNames := List.subset_cons_self _ _
  refine climb_eq_search known (by simp) (by simp)
    (fun _ member => absurd member List.not_mem_nil) ?_
  exact List.countP_le_length.trans enough

end Universe

namespace Host

variable {h h' : Host}

/-! ## The tests -/

/-- What type tests answer, on a host with any types. -/
structure TypeTests (h : Host) : Prop where
  /-- The names above a type are found by a loop that ends, and no other names are. -/
  ends (ty target : String) {rounds : ℕ} : h.types.upperNames.length < rounds →
    h.types.climb target rounds [] [ty] = some (h.types.conforms ty target)
  conforms (ty target : String) : h.types.conforms ty target = true ↔ h.types.Above ty target
  object (ref : ObjectRef) (ty : String) : h.isInstance (.object ref) ty = true ↔
    ty = objectType ∨ h.types.Above (h.object ref).ty ty
  reflexive (ref : ObjectRef) : h.isInstance (.object ref) (h.object ref).ty = true
  /-- Names above names above a type are above it. -/
  conforms_trans {lower middle upper : String} : h.types.conforms lower middle = true →
    h.types.conforms middle upper = true → h.types.conforms lower upper = true
  /-- An object is an instance of whatever the objects of a type are that it is an instance of,
  unless that is the root type, which has supertypes, and the object comes by it in no other way. -/
  transitive {ref middle : ObjectRef} {upper : String} :
    h.isInstance (.object ref) (h.object middle).ty = true →
    h.isInstance (.object middle) upper = true →
    ((h.object middle).ty = objectType →
      h.types.conforms (h.object ref).ty objectType = true ∨ h.types.parentsOf objectType = []) →
    h.isInstance (.object ref) upper = true
  /-- What a type conforms to, it conforms to ever after, whatever modules are loaded, -/
  conforms_later {h' : Host} {ty target : String} : Reaches h h' →
    h.types.conforms ty target = true → h'.types.conforms ty target = true
  /-- and so is a value an instance of what it was an instance of, -/
  instance_later {h' : Host} {value : Value} {ty : String} : Reaches h h' → h.Knows value →
    h.isInstance value ty = true → h'.isInstance value ty = true
  /-- also when the load fails. -/
  loads {m : Module} {h' : Host} {r : Except HostError LoadReport} {value : Value} {ty : String} :
    (load m).run h = some (r, h') → h.Knows value →
    h.isInstance value ty = true → h'.isInstance value ty = true

lemma isInstance_object_iff {ref : ObjectRef} {ty : String} :
    h.isInstance (.object ref) ty = true ↔ ty = objectType ∨ h.types.Above (h.object ref).ty ty := by
  rw [isInstance, Bool.or_eq_true, beq_iff_eq, Universe.conforms_iff]

/-- Every host tests types so. -/
theorem typeTests (h : Host) : h.TypeTests where
  ends ty target rounds enough := Universe.climb_eq_conforms enough
  conforms ty target := Universe.conforms_iff
  object ref ty := isInstance_object_iff
  reflexive ref := isInstance_object_iff.2 (.inr .refl)
  conforms_trans lower upper := by
    rw [Universe.conforms_iff] at lower upper ⊢
    exact lower.trans upper
  transitive {ref middle upper} lower higher root := by
    rw [isInstance_object_iff] at lower higher ⊢
    rcases higher with top | above
    · exact .inl top
    rcases lower with same | below
    · -- the middle type is the root type
      rcases root same with below | top
      · rw [Universe.conforms_iff] at below
        exact .inr (below.trans (same ▸ above))
      · exact .inl (Universe.eq_of_above top (same ▸ above))
    · exact .inr (below.trans above)
  conforms_later reached := Universe.conforms_of_prefix reached.types
  instance_later := Reaches.isInstance
  loads run := (Reaches.of_load run).isInstance

/-! ## A root type with a supertype -/

/-- A module that declares the root type, below another one. -/
def oddity : Module :=
  { name := "Odd"
    types :=
      [{ TypeDef.newClass (Uuid.numbered 1) objectType with supertype := some "Odd.Base" },
        TypeDef.newClass (Uuid.numbered 2) "Odd.Base",
        TypeDef.newClass (Uuid.numbered 3) "Odd.Thing"] }

/-- With such a module, an object is an instance of the root type, whose objects are instances of a
type that the object is no instance of. -/
theorem exists_broken_chain :
    ∃ h report thing root, ((load oddity).run (Host.new {}) = some (.ok report, h) ∧
      ∃ h₁ h₂, (Run.instantiate "Odd.Thing").run h = some (.ok (.object thing), h₁) ∧
        (Run.instantiate objectType).run h₁ = some (.ok (.object root), h₂) ∧
        (h₂.object root).ty = objectType ∧
        h₂.isInstance (.object thing) objectType = true ∧
        h₂.isInstance (.object root) "Odd.Base" = true ∧
        ¬h₂.isInstance (.object thing) "Odd.Base" = true) := by
  refine ⟨_, _, ⟨0⟩, ⟨1⟩, rfl, _, _, rfl, rfl, rfl, ?_, ?_, ?_⟩
  · exact isInstance_object_iff.2 (.inl rfl)
  · exact isInstance_object_iff.2 (.inr (.single (List.mem_singleton.2 rfl)))
  · rw [isInstance_object_iff]
    rintro (same | above)
    · exact absurd same (by decide)
    · exact absurd (Universe.eq_of_above rfl above) (by decide)

end Host
end Weaver
