/-!
# Bytes: hexadecimal text and little-endian words

The two ways in which this library spells numbers as bytes: two hexadecimal digits per byte in
text, and fixed-width words with the lowest byte first in artifacts.
-/

namespace Weaver.Bytes

/-! ## Hexadecimal text -/

/-- The two lowercase digits of a byte, the high half first. -/
def hexPair (b : UInt8) : List Char :=
  [Nat.digitChar (b.toNat / 16), Nat.digitChar (b.toNat % 16)]

/-- The lowercase hexadecimal digits of a byte sequence. -/
def hexChars (bytes : List UInt8) : List Char :=
  bytes.flatMap hexPair

/-- The lowercase hexadecimal text of a byte sequence. -/
def toHex (bytes : List UInt8) : String :=
  String.ofList (hexChars bytes)

/-- The value of a hexadecimal digit of either case. -/
def hexValue? (c : Char) : Option Nat :=
  if '0' ≤ c ∧ c ≤ '9' then some (c.toNat - '0'.toNat)
  else if 'a' ≤ c ∧ c ≤ 'f' then some (c.toNat - 'a'.toNat + 10)
  else if 'A' ≤ c ∧ c ≤ 'F' then some (c.toNat - 'A'.toNat + 10)
  else none

/-- Reads digits two by two; an odd digit or a character that is none is refused. -/
def ofHexChars? : List Char → Option (List UInt8)
  | [] => some []
  | [_] => none
  | high :: low :: rest => do
    let h ← hexValue? high
    let l ← hexValue? low
    let bytes ← ofHexChars? rest
    return (16 * h + l).toUInt8 :: bytes

/-- The bytes that a hexadecimal text spells. -/
def ofHex? (text : String) : Option (List UInt8) :=
  ofHexChars? text.toList

/-! ## Little-endian words -/

/-- The lowest `width` bytes of `n`, lowest first; higher bytes are dropped. -/
def ofNat : (width : Nat) → (n : Nat) → List UInt8
  | 0, _ => []
  | width + 1, n => n.toUInt8 :: ofNat width (n / 256)

/-- The number whose bytes, lowest first, are these. -/
def toNat : List UInt8 → Nat
  | [] => 0
  | b :: rest => b.toNat + 256 * toNat rest

@[simp] theorem length_ofNat (width n : Nat) : (ofNat width n).length = width := by
  induction width generalizing n with
  | zero => rfl
  | succ width ih => simp [ofNat, ih]

/-! ## Text -/

/-- The UTF-8 bytes of a text. -/
def ofText (text : String) : List UInt8 :=
  text.toUTF8.data.toList

/-- The text whose UTF-8 form these bytes are; `none` when they are not valid UTF-8. -/
def toText? (bytes : List UInt8) : Option String :=
  String.fromUTF8? ⟨bytes.toArray⟩

@[simp] theorem toText?_ofText (text : String) : toText? (ofText text) = some text := by
  have whole : (⟨(ofText text).toArray⟩ : ByteArray) = text.toUTF8 := by simp [ofText]
  have valid : text.toUTF8.IsValidUTF8 := text.isValidUTF8
  rw [toText?, whole, String.fromUTF8?, dif_pos valid]
  rfl

end Weaver.Bytes
