import Weaver.Bytes

/-!
# Identifiers of types and members

An identifier is sixteen bytes. Its text is thirty-two hexadecimal digits in five groups; it is
written in lowercase and read in any of the four customary spellings.
-/

namespace Weaver

/-- A universally unique identifier. -/
structure Uuid where
  bytes : List UInt8
  length_bytes : bytes.length = 16
deriving DecidableEq

namespace Uuid

/-- Sixteen bytes are an identifier; any other number is refused. -/
def ofBytes? (bytes : List UInt8) : Option Uuid :=
  if h : bytes.length = 16 then some ⟨bytes, h⟩ else none

@[simp] theorem ofBytes?_bytes (id : Uuid) : ofBytes? id.bytes = some id := by
  simp [ofBytes?, id.length_bytes]

/-- The identifier whose bytes are all zero. -/
def nil : Uuid := ⟨List.replicate 16 0, rfl⟩

instance : Inhabited Uuid := ⟨nil⟩

/-! ## Text -/

/-- Thirty-two digits cut into groups of eight, four, four, four and twelve. -/
def groups (digits : List Char) : List (List Char) :=
  [digits.take 8, (digits.drop 8).take 4, (digits.drop 12).take 4, (digits.drop 16).take 4,
    digits.drop 20]

/-- The hyphenated lowercase text. -/
def toText (id : Uuid) : String :=
  String.ofList (List.intercalate ['-'] (groups (Bytes.hexChars id.bytes)))

instance : ToString Uuid := ⟨toText⟩

/-- Thirty-two digits without hyphens. -/
def ofDigits? (digits : List Char) : Option Uuid := do
  ofBytes? (← Bytes.ofHexChars? digits)

/-- Thirty-six characters with a hyphen after each group but the last. -/
def ofHyphenated? (chars : List Char) : Option Uuid :=
  if [8, 13, 18, 23].all fun i => chars[i]? == some '-' then
    ofDigits? (chars.take 8 ++ (chars.drop 9).take 4 ++ (chars.drop 14).take 4
      ++ (chars.drop 19).take 4 ++ chars.drop 24)
  else none

/-- The mark before an identifier that is written as a resource name, in any case. -/
def urnMark : List Char := "urn:uuid:".toList

/-- Reads the plain, hyphenated, braced or resource-name spelling, told apart by their lengths. -/
def ofChars? (chars : List Char) : Option Uuid :=
  match chars.length with
  | 32 => ofDigits? chars
  | 36 => ofHyphenated? chars
  | 38 =>
    if chars.head? = some '{' ∧ chars.getLast? = some '}' then
      ofHyphenated? ((chars.drop 1).take 36)
    else none
  | 45 => if (chars.take 9).map Char.toLower = urnMark then ofHyphenated? (chars.drop 9) else none
  | _ => none

/-- The identifier that a text spells. -/
def ofText? (text : String) : Option Uuid :=
  ofChars? text.toList

/-! ## Numbered identifiers -/

/-- Version-4 identifiers that differ only in a counter of six bytes, highest byte first. -/
def numbered (n : Nat) : Uuid :=
  ⟨[0xff, 0xff, 0xff, 0xff, 0, 0, 0x40, 0, 0x80, 0] ++ (Bytes.ofNat 6 n).reverse, by simp⟩

end Uuid

/-! ## Supplies of identifiers -/

/-- Where new identifiers come from: a sequence of them, and how many have been handed out. -/
structure IdSupply where
  ids : Nat → Uuid
  drawn : Nat

namespace IdSupply

/-- The next identifier and the supply after it. -/
def draw (supply : IdSupply) : Uuid × IdSupply :=
  (supply.ids supply.drawn, { supply with drawn := supply.drawn + 1 })

end IdSupply

end Weaver
