import Weaver.Uuid

/-!
# Binary codecs

A codec pairs a writer of bytes with a reader that takes one value off the front of a byte sequence
and leaves the rest. Records are written field after field, sequences and texts behind their length,
variants behind their index, and every number in one to nine bytes: one byte up to 250, or a marker
and two, four or eight bytes, lowest first.
-/

namespace Weaver

/-- A writer of values and the reader that goes with it. -/
structure Codec (α : Type) where
  encode : α → List UInt8
  decode : List UInt8 → Option (α × List UInt8)

namespace Codec

variable {α β : Type}

/-! ## Combinators -/

/-- A codec for values that correspond one to one to those of another codec. -/
def map (c : Codec α) (make : α → β) (back : β → α) : Codec β where
  encode b := c.encode (back b)
  decode bytes := (c.decode bytes).map fun (a, rest) => (make a, rest)

/-- A codec for values that correspond to some of those of another codec. -/
def refine (c : Codec α) (make? : α → Option β) (back : β → α) : Codec β where
  encode b := c.encode (back b)
  decode bytes := (c.decode bytes).bind fun (a, rest) => (make? a).map (·, rest)

/-- One value after the other. -/
def pair (c : Codec α) (d : Codec β) : Codec (α × β) where
  encode p := c.encode p.1 ++ d.encode p.2
  decode bytes := do
    let (a, rest) ← c.decode bytes
    let (b, rest) ← d.decode rest
    return ((a, b), rest)

/-! ## Numbers -/

/-- A single byte. -/
def byte : Codec UInt8 where
  encode b := [b]
  decode
    | [] => none
    | b :: rest => some (b, rest)

/-- Exactly `count` bytes off the front. -/
def takeBytes (count : Nat) (bytes : List UInt8) : Option (List UInt8 × List UInt8) :=
  let taken := bytes.take count
  if taken.length = count then some (taken, bytes.drop count) else none

/-- A little-endian word of fixed width. -/
def word (width : Nat) : Codec Nat where
  encode n := Bytes.ofNat width n
  decode bytes := (takeBytes width bytes).map fun (taken, rest) => (Bytes.toNat taken, rest)

/-- A number in as few bytes as it needs. A reader of numbers of `width` bytes takes longer forms
than needed, but none that is wider than its numbers. -/
def number (width : Nat) : Codec Nat where
  encode n :=
    if n ≤ 250 then [n.toUInt8]
    else if n < UInt16.size then 251 :: (word 2).encode n
    else if n < UInt32.size then 252 :: (word 4).encode n
    else 253 :: (word 8).encode n
  decode
    | [] => none
    | b :: rest =>
      if b ≤ 250 then some (b.toNat, rest)
      else if b = 251 ∧ 2 ≤ width then (word 2).decode rest
      else if b = 252 ∧ 4 ≤ width then (word 4).decode rest
      else if b = 253 ∧ 8 ≤ width then (word 8).decode rest
      else none

/-- Sixteen-bit numbers. -/
def uint16 : Codec UInt16 := (number 2).map UInt16.ofNat UInt16.toNat

/-- Thirty-two-bit numbers. -/
def uint32 : Codec UInt32 := (number 4).map UInt32.ofNat UInt32.toNat

/-- The natural numbers stand for the integers `0, -1, 1, -2, 2, …` in turn. -/
def ofZigzag (n : Nat) : Int :=
  if n % 2 = 0 then (n / 2 : Nat) else -((n / 2 + 1 : Nat) : Int)

/-- The place of an integer in the sequence `0, -1, 1, -2, 2, …`. -/
def toZigzag (n : Int) : Nat :=
  if 0 ≤ n then 2 * n.toNat else 2 * (-n).toNat - 1

/-- Sixty-four-bit integers, small absolute values first. -/
def int64 : Codec Int64 :=
  (number 8).map (fun n => Int64.ofInt (ofZigzag n)) (fun n => toZigzag n.toInt)

/-- A length. -/
def length : Codec Nat := number 8

/-- The index of a variant. -/
def index : Codec Nat := number 4

/-- A truth value is the byte zero or one. -/
def bool : Codec Bool :=
  byte.refine (fun b => if b = 0 then some false else if b = 1 then some true else none)
    (fun b => if b then 1 else 0)

/-! ## Sequences, texts and options -/

/-- `count` values in a row. -/
def decodeMany (c : Codec α) : (count : Nat) → List UInt8 → Option (List α × List UInt8)
  | 0, bytes => some ([], bytes)
  | count + 1, bytes => do
    let (a, rest) ← c.decode bytes
    let (as, rest) ← decodeMany c count rest
    return (a :: as, rest)

/-- A sequence behind its length. -/
def list (c : Codec α) : Codec (List α) where
  encode as := length.encode as.length ++ as.flatMap c.encode
  decode bytes := do
    let (count, rest) ← length.decode bytes
    decodeMany c count rest

/-- Bytes behind their number. -/
def bytes : Codec (List UInt8) where
  encode bs := length.encode bs.length ++ bs
  decode bytes := do
    let (count, rest) ← length.decode bytes
    takeBytes count rest

/-- A text as its UTF-8 bytes; other bytes are refused. -/
def text : Codec String := bytes.refine Bytes.toText? Bytes.ofText

/-- An identifier as sixteen bytes behind their number; other numbers are refused. -/
def uuid : Codec Uuid := bytes.refine Uuid.ofBytes? Uuid.bytes

/-- A value behind the byte one, or the byte zero. -/
def option (c : Codec α) : Codec (Option α) where
  encode
    | none => [0]
    | some a => 1 :: c.encode a
  decode
    | 0 :: rest => some (none, rest)
    | 1 :: rest => (c.decode rest).map fun (a, rest) => (some a, rest)
    | _ => none

/-! ## Variants -/

/-- A variant without content, known by its index among all of them. -/
def enumeration (values : List α) (position : α → Nat) : Codec α :=
  index.refine (fun i => values[i]?) position

/-- Reads the content of a variant and wraps it. -/
def wrap (c : Codec α) (make : α → β) (bytes : List UInt8) : Option (β × List UInt8) :=
  (c.decode bytes).map fun (a, rest) => (make a, rest)

end Codec

end Weaver
