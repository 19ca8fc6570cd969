import Mathlib.Data.List.Infix
import Mathlib.Logic.Relation
import Weaver.Proofs.Lookups
import Weaver.Proofs.Weave.Hierarchy

/-!
# Conformance

Whether a type conforms to another is found out by a search that remembers what it has seen, so that
supertypes and interfaces may lead around in circles. This file says what the search finds: the
names that lie above a type, by any number of steps up through loaded types. It follows that a type
goes on to conform to whatever it conforms to when more types are loaded.
-/

namespace Weaver
namespace Universe

variable {u v : Universe} {ty target : String}

/-- The second name is reached from the first by steps up through loaded types. -/
def Above (u : Universe) : String → String → Prop :=
  Relation.ReflTransGen fun lower upper => upper ∈ u.parentsOf lower

/-- What a search finds lies above one of the pending names. -/
lemma exists_above_of_search {seen pending : List String}
    (found : u.search target seen pending = true) : ∃ ty ∈ pending, u.Above ty target := by
  induction seen, pending using Universe.search.induct u target with
  | case1 seen =>
    rw [search_nil] at found
    cases found
  | case2 seen pending => exact ⟨target, List.mem_cons_self, .refl⟩
  | case3 seen ty pending other known ih =>
    rw [search_cons, if_neg other, if_pos known] at found
    obtain ⟨low, member, above⟩ := ih found
    exact ⟨low, List.mem_cons_of_mem _ member, above⟩
  | case4 seen ty pending other fresh missing ih =>
    have none : u.parentsOf ty = [] := by rw [parentsOf, missing]
    rw [search_cons, if_neg other, if_neg fresh, none, List.nil_append] at found
    obtain ⟨low, member, above⟩ := ih found
    exact ⟨low, List.mem_cons_of_mem _ member, above⟩
  | case5 seen ty pending other fresh t loaded ih =>
    have parents : u.parentsOf ty = Universe.parents t.definition := by rw [parentsOf, loaded]
    rw [search_cons, if_neg other, if_neg fresh, parents] at found
    obtain ⟨low, member, above⟩ := ih found
    rcases List.mem_append.1 member with parent | pending
    · exact ⟨ty, List.mem_cons_self, .head (by rw [parents]; exact parent) above⟩
    · exact ⟨low, List.mem_cons_of_mem _ pending, above⟩

/-- The state of a search for a target: nothing that it has seen is the target, and what lies one
step above was seen as well or is pending. -/
def Searching (u : Universe) (target : String) (seen pending : List String) : Prop :=
  ∀ ty ∈ seen, ty ≠ target ∧ ∀ parent ∈ u.parentsOf ty, parent ∈ seen ∨ parent ∈ pending

lemma Searching.skip {seen pending : List String}
    (searching : u.Searching target seen (ty :: pending)) (known : ty ∈ seen) :
    u.Searching target seen pending := by
  intro low member
  obtain ⟨other, parents⟩ := searching low member
  refine ⟨other, fun parent hp => ?_⟩
  rcases parents parent hp with old | pending
  · exact .inl old
  · rcases List.mem_cons.1 pending with rfl | pending
    · exact .inl known
    · exact .inr pending

lemma Searching.visit {seen pending : List String}
    (searching : u.Searching target seen (ty :: pending)) (other : ty ≠ target) :
    u.Searching target (ty :: seen) (u.parentsOf ty ++ pending) := by
  intro low member
  rcases List.mem_cons.1 member with rfl | member
  · exact ⟨other, fun parent hp => .inr (List.mem_append_left _ hp)⟩
  · obtain ⟨apart, parents⟩ := searching low member
    refine ⟨apart, fun parent hp => ?_⟩
    rcases parents parent hp with old | pending
    · exact .inl (List.mem_cons_of_mem _ old)
    · rcases List.mem_cons.1 pending with rfl | pending
      · exact .inl List.mem_cons_self
      · exact .inr (List.mem_append_right _ pending)

/-- When nothing is pending any more, the target lies above nothing that was seen. -/
lemma Searching.not_above {seen : List String} (searching : u.Searching target seen [])
    (member : ty ∈ seen) : ¬u.Above ty target := by
  intro above
  have all : ∀ low, u.Above ty low → low ∈ seen := by
    intro low path
    induction path with
    | refl => exact member
    | tail _ parent ih =>
      rcases (searching _ ih).2 _ parent with seen | pending
      · exact seen
      · cases pending
  exact (searching target (all target above)).1 rfl

/-- A search finds the target if it lies above anything seen or pending. -/
lemma search_of_above {seen pending : List String} (searching : u.Searching target seen pending)
    (low : ty ∈ seen ∨ ty ∈ pending) (above : u.Above ty target) :
    u.search target seen pending = true := by
  induction seen, pending using Universe.search.induct u target with
  | case1 seen =>
    rcases low with member | pending
    · exact absurd above (searching.not_above member)
    · cases pending
  | case2 seen pending => rw [search_cons, if_pos rfl]
  | case3 seen next pending other known ih =>
    have known' : next ∈ seen := by simpa using known
    rw [search_cons, if_neg other, if_pos known]
    refine ih (searching.skip known') (low.elim .inl fun member => ?_)
    rcases List.mem_cons.1 member with rfl | member
    · exact .inl known'
    · exact .inr member
  | case4 seen next pending other fresh missing ih =>
    have none : u.parentsOf next = [] := by rw [parentsOf, missing]
    have visited := searching.visit other
    rw [search_cons, if_neg other, if_neg fresh]
    rw [none, List.nil_append] at visited ⊢
    refine ih visited (low.elim (fun member => .inl (List.mem_cons_of_mem _ member)) ?_)
    intro member
    rcases List.mem_cons.1 member with rfl | member
    · exact .inl List.mem_cons_self
    · exact .inr member
  | case5 seen next pending other fresh t loaded ih =>
    have parents : u.parentsOf next = Universe.parents t.definition := by rw [parentsOf, loaded]
    have visited := searching.visit other
    rw [search_cons, if_neg other, if_neg fresh]
    rw [parents] at visited ⊢
    refine ih visited (low.elim (fun member => .inl (List.mem_cons_of_mem _ member)) ?_)
    intro member
    rcases List.mem_cons.1 member with rfl | member
    · exact .inl List.mem_cons_self
    · exact .inr (List.mem_append_right _ member)

/-- A type conforms to what lies above it, and to nothing else. -/
theorem conforms_iff : u.conforms ty target = true ↔ u.Above ty target := by
  constructor
  · intro found
    obtain ⟨low, member, above⟩ := exists_above_of_search found
    rw [List.mem_singleton.1 member] at above
    exact above
  · intro above
    exact search_of_above (fun _ member => absurd member List.not_mem_nil)
      (.inr List.mem_cons_self) above

/-! ## More types -/

/-- The names above a loaded type stay above it. -/
lemma parentsOf_subset (longer : u <+: v) (ty : String) : u.parentsOf ty ⊆ v.parentsOf ty := by
  intro parent member
  rw [parentsOf] at member
  cases found : u.find? ty with
  | none =>
    rw [found] at member
    cases member
  | some t =>
    have kept : v.find? ty = some t := find?_of_prefix longer found
    rw [found] at member
    rw [parentsOf, kept]
    exact member

/-- What a type conforms to, it conforms to when more types are loaded. -/
theorem conforms_of_prefix (longer : u <+: v) (conforms : u.conforms ty target = true) :
    v.conforms ty target = true := by
  rw [conforms_iff] at conforms ⊢
  exact Relation.ReflTransGen.mono (fun lower _ parent => parentsOf_subset longer lower parent) _ _
    conforms

end Universe
end Weaver
