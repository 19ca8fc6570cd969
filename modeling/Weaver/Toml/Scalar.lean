/-!
# Numbers, dates and times in TOML

Nothing here asks for the value of one, only for whether a word is one.
-/

namespace Weaver.Toml

/-! ## Digits -/

/-- Digits of a base with single underscores between them. -/
def isDigitRun (isDigit : Char → Bool) : List Char → Bool
  | [] => false
  | [c] => isDigit c
  | c :: '_' :: rest => isDigit c && isDigitRun isDigit rest
  | c :: rest => isDigit c && isDigitRun isDigit rest

/-- The value of digits of a base, underscores aside. -/
def runValue (base : Nat) (digits : List Char) : Nat :=
  (digits.filter (· != '_')).foldl (fun n c =>
    base * n + (if c.isDigit then c.toNat - '0'.toNat else c.toLower.toNat - 'a'.toNat + 10)) 0

/-- A run of decimal digits without a leading zero, zero itself aside. -/
def isDecimalRun (digits : List Char) : Bool :=
  isDigitRun Char.isDigit digits && (digits.length == 1 || digits.head? != some '0')

/-- Splits off a sign. -/
def unsign : List Char → Bool × List Char
  | '-' :: rest => (true, rest)
  | '+' :: rest => (false, rest)
  | rest => (false, rest)

/-! ## Numbers -/

/-- A hexadecimal digit of either case. -/
def isHexDigit (c : Char) : Bool :=
  c.isDigit || ('a' ≤ c && c ≤ 'f') || ('A' ≤ c && c ≤ 'F')

/-- The least number that is no integer of sixty-four bits. -/
def integerBound : Nat := 0x8000000000000000

/-- An integer of sixty-four bits, in one of four bases. -/
def isInteger : List Char → Bool
  | '0' :: 'x' :: digits => isDigitRun isHexDigit digits && runValue 16 digits < integerBound
  | '0' :: 'o' :: digits =>
    isDigitRun (fun c => '0' ≤ c && c ≤ '7') digits && runValue 8 digits < integerBound
  | '0' :: 'b' :: digits =>
    isDigitRun (fun c => c == '0' || c == '1') digits && runValue 2 digits < integerBound
  | word =>
    let (negative, digits) := unsign word
    isDecimalRun digits && runValue 10 digits < if negative then integerBound + 1 else integerBound

/-- A number as decimal digits times a power of ten. -/
structure Decimal where
  digits : List Char
  exponent : Int

/-- The power of ten behind an exponent's letter. -/
def exponent? (word : List Char) : Option Int :=
  let (negative, digits) := unsign word
  if isDigitRun Char.isDigit digits then
    some (if negative then -(runValue 10 digits : Int) else runValue 10 digits)
  else none

/-- An exponent with its letter, or nothing. -/
def exponentPart? : List Char → Option Int
  | [] => some 0
  | c :: word => if c == 'e' || c == 'E' then exponent? word else none

/-- A number with a fraction, an exponent or both. -/
def decimal? (word : List Char) : Option Decimal :=
  let (whole, tail) := word.span fun c => c.isDigit || c == '_'
  if !isDecimalRun whole then none
  else match tail with
    | [] => none
    | '.' :: tail =>
      let (fraction, tail) := tail.span fun c => c.isDigit || c == '_'
      if isDigitRun Char.isDigit fraction then
        (exponentPart? tail).map fun e =>
          ⟨whole ++ fraction, e - (fraction.filter (· != '_')).length⟩
      else none
    | tail => (exponentPart? tail).map fun e => ⟨whole, e⟩

/-- The least number that no longer rounds to a floating-point number of sixty-four bits: halfway
between the greatest of them and the next power of two. -/
def floatBound : Nat := (1 <<< 1024) - (1 <<< 970)

/-- Whether a number is too large to round to a floating-point number. The number of digits decides
unless it is about that of the bound. -/
def Decimal.isTooLarge (d : Decimal) : Bool :=
  let digits := (d.digits.filter (· != '_')).dropWhile (· == '0')
  let size := digits.length + d.exponent
  let n := runValue 10 digits
  if digits.isEmpty || size ≤ 308 then false
  else if 310 ≤ size then true
  else if 0 ≤ d.exponent then floatBound ≤ n * Nat.pow 10 d.exponent.toNat
  else floatBound * Nat.pow 10 (-d.exponent).toNat ≤ n

/-- A floating-point number: a fraction, an exponent, both, or a word for none of them. A number
without a minus sign has to be finite. -/
def isFloat (word : List Char) : Bool :=
  let (negative, body) := unsign word
  body == "inf".toList || body == "nan".toList
    || match decimal? body with
      | some d => negative || !d.isTooLarge
      | none => false

/-! ## Dates and times -/

/-- A number of exactly two digits. -/
def pairValue? (tens ones : Char) : Option Nat :=
  if tens.isDigit && ones.isDigit then some (runValue 10 [tens, ones]) else none

/-- Two digits of a value between two bounds. -/
def isPairWithin (low high : Nat) (tens ones : Char) : Bool :=
  match pairValue? tens ones with
  | some n => low ≤ n && n ≤ high
  | none => false

/-- The number of days of a month. -/
def daysInMonth (year month : Nat) : Nat :=
  if month = 2 then
    if (year % 4 = 0 ∧ year % 100 ≠ 0) ∨ year % 400 = 0 then 29 else 28
  else if month = 4 ∨ month = 6 ∨ month = 9 ∨ month = 11 then 30
  else 31

/-- A date of the calendar. -/
def isDate : List Char → Bool
  | [y1, y2, y3, y4, '-', m1, m2, '-', d1, d2] =>
    [y1, y2, y3, y4].all Char.isDigit && isPairWithin 1 12 m1 m2 && isPairWithin 1
      (daysInMonth (runValue 10 [y1, y2, y3, y4]) (runValue 10 [m1, m2])) d1 d2
  | _ => false

/-- What may follow the seconds: a fraction. -/
def isFraction : List Char → Bool
  | [] => true
  | '.' :: digits => !digits.isEmpty && digits.all Char.isDigit
  | _ => false

/-- A time of day. -/
def isTime : List Char → Bool
  | h1 :: h2 :: ':' :: m1 :: m2 :: ':' :: s1 :: s2 :: rest =>
    isPairWithin 0 23 h1 h2 && isPairWithin 0 59 m1 m2 && isPairWithin 0 60 s1 s2 && isFraction rest
  | _ => false

/-- The distance from universal time. -/
def isOffset : List Char → Bool
  | ['Z'] | ['z'] => true
  | [sign, h1, h2, ':', m1, m2] =>
    (sign == '+' || sign == '-') && isPairWithin 0 23 h1 h2 && isPairWithin 0 59 m1 m2
  | _ => false

/-- A time of day, with or without its distance from universal time. -/
def isTimeWithOffset (word : List Char) : Bool :=
  let (time, offset) := word.span fun c => c.isDigit || c == ':' || c == '.'
  isTime time && (offset.isEmpty || isOffset offset)

/-- A date, a time of day, or both with a letter or blank between them. -/
def isMoment (word : List Char) : Bool :=
  isDate word || isTime word
    || (isDate (word.take 10) && match word.drop 10 with
      | c :: rest => (c == 'T' || c == 't' || c == ' ') && isTimeWithOffset rest
      | [] => false)

/-- Whether a word is a number, a date or a time. -/
def isScalar (word : List Char) : Bool :=
  isInteger word || isFloat word || isMoment word

end Weaver.Toml
