import Mathlib.Data.List.Infix
import Mathlib.Data.List.Nodup
import Mathlib.Tactic.Common

/-!
# First matches

Every table is searched for the first entry that fits. These lemmas tell which entry that is: when
the entries before it do not fit, when no two entries share a key, when the table is continued.
-/

namespace Weaver

section FirstMatch

variable {α : Type} {p : α → Bool} {l r : List α} {a : α}

lemma find?_append_cons (before : ∀ b ∈ l, p b = false) (found : p a = true) :
    (l ++ a :: r).find? p = some a :=
  List.find?_eq_some_iff_append.2 ⟨found, l, r, rfl, fun b hb => by rw [before b hb]; rfl⟩

/-- The first match of a condition, found again by a key that no other element has. -/
lemma find?_key_of_find? {κ : Type} [BEq κ] [LawfulBEq κ] (key : α → κ)
    (keys : (l.map key).Nodup) (found : l.find? p = some a) :
    l.find? (key · == key a) = some a := by
  obtain ⟨-, before, after, rfl, -⟩ := List.find?_eq_some_iff_append.1 found
  refine find?_append_cons (fun b hb => ?_) (beq_self_eq_true _)
  rw [List.map_append, List.map_cons, List.nodup_append] at keys
  exact beq_false_of_ne (keys.2.2 _ (List.mem_map_of_mem hb) _ List.mem_cons_self)

/-- An element is found by a key that no other element has. -/
lemma find?_key_of_mem {κ : Type} [BEq κ] [LawfulBEq κ] (key : α → κ) (keys : (l.map key).Nodup)
    (member : a ∈ l) : l.find? (key · == key a) = some a := by
  obtain ⟨before, after, rfl⟩ := List.append_of_mem member
  rw [List.map_append, List.map_cons, List.nodup_append] at keys
  refine find?_append_cons (fun b hb => ?_) (beq_self_eq_true _)
  exact beq_false_of_ne (keys.2.2 _ (List.mem_map_of_mem hb) _ List.mem_cons_self)

/-- An element that is found by a key has the key. -/
lemma key_of_find? {κ : Type} [BEq κ] [LawfulBEq κ] (key : α → κ) {k : κ}
    (found : l.find? (key · == k) = some a) : key a = k :=
  eq_of_beq (List.find?_some (p := fun a => key a == k) found)

/-- What a list says about a condition, a continuation of it says as well. -/
lemma find?_of_prefix (longer : l <+: r) (found : l.find? p = some a) : r.find? p = some a := by
  obtain ⟨more, rfl⟩ := longer
  rw [List.find?_append, found]
  rfl

end FirstMatch

/-- A sequence of two steps that succeeds is two steps that succeed. -/
lemma exists_of_bind_eq_ok {ε α β : Type} {x : Except ε α} {f : α → Except ε β} {b : β}
    (ok : x >>= f = .ok b) : ∃ a, x = .ok a ∧ f a = .ok b := by
  cases x with
  | error e => cases ok
  | ok a => exact ⟨a, rfl, ok⟩

end Weaver
