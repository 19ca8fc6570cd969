import Mathlib.Data.List.Basic
import Mathlib.Data.List.TakeDrop
import Mathlib.Data.List.TakeWhile
import Mathlib.Tactic.Common
import Weaver.Json.Lexer

/-!
# The numbers of JSON text

Three things live here:

* `Number.Spelled`, the spellings that numbers may have;
* `Number.ofChars?_of_spelled`, by which the value of every spelling is found;
* `Number.legible_integer`, by which integers are written in one of their spellings.
-/

namespace Weaver.Json.Number

open Lexer (isNumberChar)

variable {n : Number} {literal digits tail : List Char}

/-! ## Spellings -/

/-- One digit or more. -/
structure Digits (cs : List Char) : Prop where
  filled : cs ≠ []
  all : ∀ c ∈ cs, c.isDigit = true

/-- The digits in front of a point or exponent. A zero stands first only if it stands alone. -/
structure Whole (cs : List Char) : Prop extends Digits cs where
  zero : 1 < cs.length → cs.head? ≠ some '0'

/-- A point with digits behind it, or nothing. -/
inductive Fraction : List Char → Prop where
  | none : Fraction []
  | some {digits : List Char} (all : Digits digits) : Fraction ('.' :: digits)

/-- A letter with digits behind it, a sign between them or not, or nothing at all. -/
inductive Exponent : List Char → Prop where
  | none : Exponent []
  | plain {e : Char} {digits : List Char} (letter : e = 'e' ∨ e = 'E')
      (all : Digits digits) : Exponent (e :: digits)
  | signed {e sign : Char} {digits : List Char} (letter : e = 'e' ∨ e = 'E')
      (mark : sign = '+' ∨ sign = '-') (all : Digits digits) : Exponent (e :: sign :: digits)

/-- The spellings of a number. One that is no integer is known by its spelling. -/
inductive Spelled : Number → List Char → Prop where
  | natural {digits : List Char} (whole : Whole digits) :
      Spelled (.integer (digitsValue digits)) digits
  | negative {digits : List Char} (whole : Whole digits) (nonzero : digitsValue digits ≠ 0) :
      Spelled (.integer (-digitsValue digits)) ('-' :: digits)
  | negativeZero : Spelled (.decimal ['-', '0']) ['-', '0']
  | decimal {sign digits fraction exponent : List Char} (signed : sign = [] ∨ sign = ['-'])
      (whole : Whole digits) (point : Fraction fraction) (power : Exponent exponent)
      (more : fraction ++ exponent ≠ []) :
      Spelled (.decimal (sign ++ digits ++ (fraction ++ exponent)))
        (sign ++ digits ++ (fraction ++ exponent))

/-- Every spelling has its parts, if some of them may be missing. -/
lemma Spelled.exists_parts (spelled : Spelled n literal) : ∃ sign digits fraction exponent,
    literal = sign ++ digits ++ (fraction ++ exponent) ∧ (sign = [] ∨ sign = ['-']) ∧
      Whole digits ∧ Fraction fraction ∧ Exponent exponent := by
  cases spelled with
  | natural whole => exact ⟨[], literal, [], [], by simp, .inl rfl, whole, .none, .none⟩
  | @negative digits whole => exact ⟨['-'], digits, [], [], by simp, .inr rfl, whole, .none, .none⟩
  | negativeZero =>
    have zero : Whole ['0'] := ⟨⟨nofun, List.all_eq_true.1 rfl⟩, by decide⟩
    exact ⟨['-'], ['0'], [], [], rfl, .inr rfl, zero, .none, .none⟩
  | @decimal sign digits fraction exponent signed whole point power =>
    exact ⟨sign, digits, fraction, exponent, rfl, signed, whole, point, power⟩

/-! ### Characters -/

lemma isNumberChar_of_isDigit {c : Char} (digit : c.isDigit = true) : isNumberChar c = true := by
  simp [isNumberChar, digit]

lemma Digits.forall_isNumberChar (all : Digits digits) : ∀ c ∈ digits, isNumberChar c = true :=
  fun c member => isNumberChar_of_isDigit (all.all c member)

lemma Fraction.forall_isNumberChar {fraction : List Char} (point : Fraction fraction) :
    ∀ c ∈ fraction, isNumberChar c = true := by
  cases point with
  | none => exact nofun
  | some all => exact List.forall_mem_cons.2 ⟨by decide, all.forall_isNumberChar⟩

lemma Exponent.forall_isNumberChar {exponent : List Char} (power : Exponent exponent) :
    ∀ c ∈ exponent, isNumberChar c = true := by
  have letter {e : Char} (letter : e = 'e' ∨ e = 'E') : isNumberChar e = true := by
    rcases letter with rfl | rfl <;> decide
  cases power with
  | none => exact nofun
  | plain e all => exact List.forall_mem_cons.2 ⟨letter e, all.forall_isNumberChar⟩
  | signed e mark all =>
    refine List.forall_mem_cons.2 ⟨letter e, List.forall_mem_cons.2 ⟨?_, all.forall_isNumberChar⟩⟩
    rcases mark with rfl | rfl <;> decide

/-- A spelling starts with a digit or a sign and has no characters of other words. -/
lemma Spelled.chars (spelled : Spelled n literal) :
    (∃ c rest, literal = c :: rest ∧ (c = '-' ∨ c.isDigit = true)) ∧
      ∀ c ∈ literal, isNumberChar c = true := by
  obtain ⟨sign, digits, fraction, exponent, rfl, signed, whole, point, power⟩ :=
    spelled.exists_parts
  have rest : ∀ c ∈ digits ++ (fraction ++ exponent), isNumberChar c = true :=
    List.forall_mem_append.2 ⟨whole.forall_isNumberChar,
      List.forall_mem_append.2 ⟨point.forall_isNumberChar, power.forall_isNumberChar⟩⟩
  rw [List.append_assoc]
  rcases signed with rfl | rfl
  · obtain ⟨c, cs, rfl⟩ := List.exists_cons_of_ne_nil whole.filled
    exact ⟨⟨c, _, rfl, .inr (whole.all c List.mem_cons_self)⟩, rest⟩
  · exact ⟨⟨'-', _, rfl, .inl rfl⟩, List.forall_mem_cons.2 ⟨by decide, rest⟩⟩

/-! ## Reading -/

/-- What follows on digits is none. -/
lemma Exponent.head?_eq {exponent : List Char} (spelled : Exponent exponent) :
    ∀ c ∈ exponent.head?, c.isDigit = false := by
  cases spelled with
  | none => exact nofun
  | plain letter | signed letter =>
    rintro _ ⟨⟩
    rcases letter with rfl | rfl <;> decide

lemma Fraction.head?_eq {fraction exponent : List Char} (spelled : Fraction fraction)
    (power : Exponent exponent) : ∀ c ∈ (fraction ++ exponent).head?, c.isDigit = false := by
  cases spelled with
  | none => exact power.head?_eq
  | some => rintro _ ⟨⟩; decide

/-- Digits end where something else begins. -/
lemma span_append (digits_all : ∀ c ∈ digits, c.isDigit = true)
    (stops : ∀ c ∈ tail.head?, c.isDigit = false) :
    (digits ++ tail).span Char.isDigit = (digits, tail) := by
  have taken : tail.takeWhile Char.isDigit = [] ∧ tail.dropWhile Char.isDigit = tail := by
    cases tail with
    | nil => exact ⟨rfl, rfl⟩
    | cons c rest =>
      have other : ¬ c.isDigit = true := by simp [stops c rfl]
      exact ⟨List.takeWhile_cons_of_neg other, List.dropWhile_cons_of_neg other⟩
  rw [List.span_eq_takeWhile_dropWhile, List.takeWhile_append_of_pos digits_all,
    List.dropWhile_append_of_pos digits_all, taken.1, taken.2, List.append_nil]

lemma isExponent_of_digits (all : Digits digits) : isExponent digits = true := by
  have plain : (!digits.isEmpty && digits.all Char.isDigit) = true := by
    simpa using ⟨all.filled, all.all⟩
  unfold isExponent
  split
  · exact absurd (all.all _ List.mem_cons_self) (by decide)
  · exact absurd (all.all _ List.mem_cons_self) (by decide)
  · exact plain

lemma Exponent.eq_nil_or {exponent : List Char} (spelled : Exponent exponent) :
    exponent = [] ∨ ∃ e rest, exponent = e :: rest ∧ (e == 'e' || e == 'E') = true ∧
      isExponent rest = true := by
  have mark {e : Char} (letter : e = 'e' ∨ e = 'E') : (e == 'e' || e == 'E') = true := by
    simpa using letter
  cases spelled with
  | none => exact .inl rfl
  | plain letter digits => exact .inr ⟨_, _, rfl, mark letter, isExponent_of_digits digits⟩
  | @signed e sign digits letter signed all =>
    refine .inr ⟨_, _, rfl, mark letter, ?_⟩
    have plain : (!digits.isEmpty && digits.all Char.isDigit) = true := by
      simpa using ⟨all.filled, all.all⟩
    rcases signed with rfl | rfl <;> exact plain

lemma isTail_append {fraction exponent : List Char} (spelled : Fraction fraction)
    (power : Exponent exponent) (more : fraction ++ exponent ≠ []) :
    isTail (fraction ++ exponent) = true := by
  cases spelled with
  | none =>
    rcases power.eq_nil_or with rfl | ⟨e, rest, rfl, letter, digits⟩
    · exact absurd rfl more
    · unfold isTail
      split
      next point => 
        rw [List.nil_append, List.cons.injEq] at point
        rw [point.1] at letter
        cases letter
      next same =>
        cases same
        rw [letter, digits]
        rfl
      next same => cases same
  | @some ds all =>
    rw [List.cons_append, isTail, span_append all.all power.head?_eq]
    have filled : (!ds.isEmpty) = true := by simpa using all.filled
    dsimp only
    rw [filled]
    rcases power.eq_nil_or with rfl | ⟨e, rest, rfl, letter, digits⟩
    · rfl
    · dsimp only
      rw [letter, digits]
      rfl

/-- The parts of a number are found in its spelling. -/
lemma ofChars?_append {sign : List Char} (signed : sign = [] ∨ sign = ['-'])
    (whole : Whole digits) (stops : ∀ c ∈ tail.head?, c.isDigit = false) :
    ofChars? (sign ++ digits ++ tail) =
      if tail.isEmpty then
        if sign = [] then some (.integer (digitsValue digits))
        else if (digitsValue digits : ℤ) = 0 then some (.decimal (sign ++ digits ++ tail))
        else some (.integer (-digitsValue digits))
      else if isTail tail then some (.decimal (sign ++ digits ++ tail))
      else none := by
  have shape : (digits.isEmpty || digits.length > 1 && digits.head? == some '0') = false := by
    rw [Bool.or_eq_false_iff, Bool.and_eq_false_imp]
    exact ⟨by simpa using whole.filled, by simpa using whole.zero⟩
  rcases signed with rfl | rfl
  · have plain : ∀ rest, [] ++ digits ++ tail ≠ '-' :: rest := by
      intro rest same
      obtain ⟨c, cs, rfl⟩ := List.exists_cons_of_ne_nil whole.filled
      have digit := whole.all c List.mem_cons_self
      rw [List.nil_append, List.cons_append, List.cons.injEq] at same
      rw [same.1] at digit
      cases digit
    rw [ofChars?]
    · rw [List.nil_append, span_append whole.all stops]
      dsimp only
      rw [shape]
      rfl
    · exact plain
  · show ofChars? ('-' :: (digits ++ tail)) = _
    simp only [ofChars?, span_append whole.all stops, shape]
    rfl

/-- Every spelling of a number is read as the number. -/
theorem ofChars?_of_spelled (spelled : Spelled n literal) : ofChars? literal = some n := by
  cases spelled with
  | natural whole =>
    have none : ∀ c ∈ ([] : List Char).head?, c.isDigit = false := nofun
    have read := ofChars?_append (.inl rfl) whole none
    rwa [List.append_nil, List.nil_append] at read
  | negative whole nonzero =>
    have none : ∀ c ∈ ([] : List Char).head?, c.isDigit = false := nofun
    have read := ofChars?_append (.inr rfl) whole none
    rw [List.append_nil] at read
    simpa [nonzero] using read
  | negativeZero => rfl
  | decimal signed whole point power more =>
    rw [ofChars?_append signed whole (point.head?_eq power), if_neg (by simpa using more),
      if_pos (isTail_append point power more)]

/-! ## Writing -/

/-- A number that is written in one of its spellings. -/
def Legible (n : Number) : Prop :=
  Spelled n n.chars

lemma digitsValue_toDigits (n : ℕ) : digitsValue (Nat.toDigits 10 n) = n := by
  have value := Nat.ofDigitChars_toDigits (b := 10) (n := n) (by decide) (by decide)
  rwa [Nat.ofDigitChars_eq_foldl] at value

/-- The digits of a number start with a zero only if it is zero. -/
lemma head?_toDigits {n : ℕ} (positive : 0 < n) : (Nat.toDigits 10 n).head? ≠ some '0' := by
  induction n using Nat.strongRecOn with
  | ind n ih =>
    rw [Nat.toDigits_eq_if (by decide)]
    split
    next small =>
      intro zero
      have same : n = 0 := Nat.digitChar_eq_zero.1 (Option.some.inj zero)
      omega
    next large =>
      rw [List.head?_append_of_ne_nil _ Nat.toDigits_ne_nil]
      exact ih (n / 10) (by omega) (by omega)

lemma whole_toDigits (n : ℕ) : Whole (Nat.toDigits 10 n) where
  filled := Nat.toDigits_ne_nil
  all _ member := Nat.isDigit_of_mem_toDigits (by decide) (by decide) member
  zero long := by
    refine head?_toDigits (Nat.pos_of_ne_zero ?_)
    rintro rfl
    exact absurd long (by decide)

/-- Integers are written in their digits. -/
theorem legible_integer (n : ℤ) : (integer n).Legible := by
  rw [Legible]
  cases n with
  | ofNat n =>
    have digits : (integer (Int.ofNat n)).chars = Nat.toDigits 10 n := by
      show n.repr.toList = _
      rw [Nat.repr_eq_ofList_toDigits, String.toList_ofList]
    have spelled := Spelled.natural (whole_toDigits n)
    rw [digitsValue_toDigits] at spelled
    rw [digits]
    exact spelled
  | negSucc n =>
    have digits : (integer (Int.negSucc n)).chars = '-' :: Nat.toDigits 10 (n + 1) := by
      show ("-" ++ (n + 1).repr).toList = _
      rw [Nat.repr_eq_ofList_toDigits, String.toList_append, String.toList_ofList,
        String.toList_ofList]
      rfl
    have value := digitsValue_toDigits (n + 1)
    have nonzero : digitsValue (Nat.toDigits 10 (n + 1)) ≠ 0 := by
      rw [value]
      exact n.succ_ne_zero
    have spelled := Spelled.negative (whole_toDigits (n + 1)) nonzero
    rw [value] at spelled
    rw [digits]
    exact spelled

end Weaver.Json.Number
