import Weaver.Bytes
import Weaver.Json.Basic

/-!
# The words of a JSON text

A lexer that takes one character at a time. Between words it skips blanks and punctuation; inside a
number, a word of letters or a text it collects characters until the end shows. Numbers and words
end at the first character that cannot belong to them.
-/

namespace Weaver.Json

/-! ## Numbers -/

/-- The value of a sequence of decimal digits. -/
def digitsValue (digits : List Char) : Nat :=
  digits.foldl (fun n c => 10 * n + (c.toNat - '0'.toNat)) 0

/-- The part of a number after its exponent letter: an optional sign and at least one digit. -/
def isExponent : List Char → Bool
  | '+' :: digits | '-' :: digits => !digits.isEmpty && digits.all Char.isDigit
  | digits => !digits.isEmpty && digits.all Char.isDigit

/-- The part of a number after its integer part: a fraction, an exponent, or both. -/
def isTail : List Char → Bool
  | '.' :: rest =>
    let (digits, rest) := rest.span Char.isDigit
    !digits.isEmpty && match rest with
      | [] => true
      | c :: rest => (c == 'e' || c == 'E') && isExponent rest
  | c :: rest => (c == 'e' || c == 'E') && isExponent rest
  | [] => false

/-- Reads a whole number literal. A leading zero stands alone, and minus zero is no integer. -/
def Number.ofChars? (literal : List Char) : Option Number :=
  let (negative, body) := match literal with
    | '-' :: rest => (true, rest)
    | rest => (false, rest)
  let (digits, tail) := body.span Char.isDigit
  if digits.isEmpty || (digits.length > 1 && digits.head? == some '0') then none
  else if tail.isEmpty then
    let n : Int := digitsValue digits
    if !negative then some (.integer n)
    else if n = 0 then some (.decimal literal)
    else some (.integer (-n))
  else if isTail tail then some (.decimal literal)
  else none

/-- The literal of a number. -/
def Number.chars : Number → List Char
  | .integer n => (toString n).toList
  | .decimal literal => literal

/-! ## Texts -/

/-- A unit of a text's body: a character, or the number behind a `\u` escape. -/
inductive TextUnit where
  | char (c : Char)
  | escape (code : Nat)
deriving DecidableEq, Inhabited

/-- The characters that the units stand for. Escapes of a high and a low surrogate in a row name one
character together; a surrogate on its own names none. -/
def readUnits : List TextUnit → Option (List Char)
  | [] => some []
  | .char c :: rest => (readUnits rest).map (c :: ·)
  | .escape code :: rest =>
    if 0xD800 ≤ code ∧ code < 0xDC00 then
      match rest with
      | .escape low :: rest =>
        if 0xDC00 ≤ low ∧ low < 0xE000 then
          (readUnits rest).map
            (Char.ofNat (0x10000 + 0x400 * (code - 0xD800) + (low - 0xDC00)) :: ·)
        else none
      | _ => none
    else if 0xDC00 ≤ code ∧ code < 0xE000 then none
    else (readUnits rest).map (Char.ofNat code :: ·)

/-- The character behind a one-letter escape. -/
def shortEscape? : Char → Option Char
  | '"' => some '"'
  | '\\' => some '\\'
  | '/' => some '/'
  | 'b' => some '\x08'
  | 'f' => some '\x0c'
  | 'n' => some '\n'
  | 'r' => some '\r'
  | 't' => some '\t'
  | _ => none

/-! ## Lexer -/

/-- What the lexer is inside of. Collected parts are in reverse. -/
inductive Mode where
  | between
  | number (literal : List Char)
  | word (letters : List Char)
  | text (units : List TextUnit)
  /-- After a backslash. -/
  | escape (units : List TextUnit)
  /-- After `\u` and `count` digits. -/
  | unicode (units : List TextUnit) (count code : Nat)
deriving DecidableEq, Inhabited

/-- The tokens read so far, in reverse, and what the lexer is inside of. -/
structure Lexer where
  mode : Mode := .between
  tokens : List Token := []
deriving DecidableEq, Inhabited

namespace Lexer

/-- Adds a token and goes back between words. -/
def emit (s : Lexer) (t : Token) : Lexer :=
  { mode := .between, tokens := t :: s.tokens }

/-- A character that stands between words or starts one. -/
def start (s : Lexer) (c : Char) : Option Lexer :=
  match c with
  | ' ' | '\t' | '\n' | '\r' => some s
  | '{' => some (s.emit .openObject)
  | '}' => some (s.emit .closeObject)
  | '[' => some (s.emit .openArray)
  | ']' => some (s.emit .closeArray)
  | ':' => some (s.emit .colon)
  | ',' => some (s.emit .comma)
  | '"' => some { s with mode := .text [] }
  | c =>
    if c == '-' || c.isDigit then some { s with mode := .number [c] }
    else if c.isLower then some { s with mode := .word [c] }
    else none

/-- Ends the number or word that the lexer is inside of. -/
def settle (s : Lexer) : Option Lexer :=
  match s.mode with
  | .between => some s
  | .number literal => (Number.ofChars? literal.reverse).map fun n => s.emit (.num n)
  | .word letters =>
    if letters.reverse = "null".toList then some (s.emit .null)
    else if letters.reverse = "true".toList then some (s.emit (.bool true))
    else if letters.reverse = "false".toList then some (s.emit (.bool false))
    else none
  | _ => none

/-- The characters that a number consists of. -/
def isNumberChar (c : Char) : Bool :=
  c.isDigit || c == '-' || c == '+' || c == '.' || c == 'e' || c == 'E'

/-- Takes one character. -/
def step (s : Lexer) (c : Char) : Option Lexer :=
  match s.mode with
  | .between => s.start c
  | .number literal =>
    if isNumberChar c then some { s with mode := .number (c :: literal) }
    else s.settle.bind (·.start c)
  | .word letters =>
    if c.isLower then some { s with mode := .word (c :: letters) }
    else s.settle.bind (·.start c)
  | .text units =>
    if c == '"' then some (s.emit (.text ((readUnits units.reverse).map String.ofList)))
    else if c == '\\' then some { s with mode := .escape units }
    else if c.toNat < 0x20 then none
    else some { s with mode := .text (.char c :: units) }
  | .escape units =>
    if c == 'u' then some { s with mode := .unicode units 0 0 }
    else (shortEscape? c).map fun c => { s with mode := .text (.char c :: units) }
  | .unicode units count code =>
    (Bytes.hexValue? c).map fun digit =>
      if count = 3 then { s with mode := .text (.escape (16 * code + digit) :: units) }
      else { s with mode := .unicode units (count + 1) (16 * code + digit) }

/-- Takes a sequence of characters. -/
def run (s : Lexer) : List Char → Option Lexer
  | [] => some s
  | c :: rest => (s.step c).bind (·.run rest)

end Lexer

/-- The tokens of a text; `none` when it has a character that belongs to no word. -/
def lex? (chars : List Char) : Option (List Token) :=
  (Lexer.run {} chars).bind fun s => s.settle.map (·.tokens.reverse)

end Weaver.Json
