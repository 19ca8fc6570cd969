import Mathlib.Tactic.Common
import Weaver.Uuid

/-!
# Identifiers there and back

Hexadecimal digits are read as the bytes that they were written for, and so an identifier is read
from the text that it is written as.
-/

namespace Weaver

/-! ## Hexadecimal digits -/

namespace Bytes

lemma hexValue?_digitChar {d : ℕ} (small : d < 16) : hexValue? (Nat.digitChar d) = some d := by
  have all : ∀ d < 16, hexValue? (Nat.digitChar d) = some d := by decide
  exact all d small

lemma length_hexChars (bytes : List UInt8) : (hexChars bytes).length = 2 * bytes.length := by
  induction bytes with
  | nil => rfl
  | cons b rest ih =>
    rw [hexChars, List.flatMap_cons, List.length_append, ← hexChars, ih, List.length_cons]
    simp only [hexPair, List.length_cons, List.length_nil]
    omega

lemma ofHexChars?_hexChars (bytes : List UInt8) : ofHexChars? (hexChars bytes) = some bytes := by
  induction bytes with
  | nil => rfl
  | cons b rest ih =>
    have high : hexValue? (Nat.digitChar (b.toNat / 16)) = some (b.toNat / 16) :=
      hexValue?_digitChar (by have := b.toNat_lt; omega)
    have low : hexValue? (Nat.digitChar (b.toNat % 16)) = some (b.toNat % 16) :=
      hexValue?_digitChar (Nat.mod_lt _ (by decide))
    have whole : (16 * (b.toNat / 16) + b.toNat % 16).toUInt8 = b := by
      rw [Nat.div_add_mod]
      exact UInt8.ofNat_toNat
    show (hexValue? _).bind _ = _
    rw [high, Option.bind_some]
    show (hexValue? _).bind _ = _
    rw [low, Option.bind_some]
    show (ofHexChars? (hexChars rest)).bind _ = _
    rw [ih, Option.bind_some, whole]
    rfl

end Bytes

/-! ## Identifiers -/

namespace Uuid

/-- The hyphenated spelling of five groups of digits is read as the digits of the groups. -/
lemma ofHyphenated?_intercalate {a b c d e : List Char} (ha : a.length = 8) (hb : b.length = 4)
    (hc : c.length = 4) (hd : d.length = 4) :
    ofHyphenated? (List.intercalate ['-'] [a, b, c, d, e]) = ofDigits? (a ++ b ++ c ++ d ++ e) := by
  have chars : List.intercalate ['-'] [a, b, c, d, e]
      = a ++ '-' :: (b ++ '-' :: (c ++ '-' :: (d ++ '-' :: e))) := by
    simp [List.intercalate]
  have hyphens : ([8, 13, 18, 23].all fun i =>
      (a ++ '-' :: (b ++ '-' :: (c ++ '-' :: (d ++ '-' :: e))))[i]? == some '-') = true := by
    simp [List.getElem?_append, ha, hb, hc, hd]
  rw [chars, ofHyphenated?, if_pos hyphens]
  simp (disch := omega) [List.drop_append, List.drop_eq_nil_of_le, ha, hb, hc, hd]

/-- An identifier is read from its text. -/
theorem ofText?_toText (id : Uuid) : ofText? id.toText = some id := by
  have length : (Bytes.hexChars id.bytes).length = 32 := by
    rw [Bytes.length_hexChars, id.length_bytes]
  generalize read : Bytes.hexChars id.bytes = digits at length
  have whole : digits.take 8 ++ (digits.drop 8).take 4 ++ (digits.drop 12).take 4
      ++ (digits.drop 16).take 4 ++ digits.drop 20 = digits := by
    have group (k n : ℕ) : (digits.drop k).take n ++ digits.drop (k + n) = digits.drop k := by
      rw [← List.drop_drop]
      exact List.take_append_drop n _
    rw [List.append_assoc, List.append_assoc, List.append_assoc, group 16 4, group 12 4, group 8 4]
    exact List.take_append_drop 8 digits
  have hyphenated := ofHyphenated?_intercalate (a := digits.take 8) (b := (digits.drop 8).take 4)
    (c := (digits.drop 12).take 4) (d := (digits.drop 16).take 4) (e := digits.drop 20)
    (by simp [length]) (by simp [length]) (by simp [length]) (by simp [length])
  have size : (List.intercalate ['-'] (groups digits)).length = 36 := by
    simp [groups, List.intercalate, length]
  rw [ofText?, toText, read, String.toList_ofList, ofChars?, size]
  show ofHyphenated? (List.intercalate ['-'] (groups digits)) = some id
  rw [groups, hyphenated, whole, ofDigits?, ← read, Bytes.ofHexChars?_hexChars]
  exact ofBytes?_bytes id

end Uuid

end Weaver
