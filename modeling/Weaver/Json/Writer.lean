import Weaver.Json.Lexer

/-!
# Writing JSON

Compact text has no blanks: it is the tokens one after the other. Indented text puts every item and
member on a line of its own, two blanks deeper than the line of its array or object.
-/

namespace Weaver.Json

/-! ## Tokens as text -/

/-- A character inside quotes. Quotes, backslashes and control characters are escaped, by a letter
where there is one. -/
def escapeChar (c : Char) : List Char :=
  match c with
  | '"' => ['\\', '"']
  | '\\' => ['\\', '\\']
  | '\x08' => ['\\', 'b']
  | '\x0c' => ['\\', 'f']
  | '\n' => ['\\', 'n']
  | '\r' => ['\\', 'r']
  | '\t' => ['\\', 't']
  | c =>
    if c.toNat < 0x20 then ['\\', 'u', '0', '0'] ++ Bytes.hexPair c.toNat.toUInt8
    else [c]

/-- A text in quotes. One that cannot be read is written as half of a surrogate pair. -/
def quoted : Option String → List Char
  | some s => '"' :: (s.toList.flatMap escapeChar ++ ['"'])
  | none => "\"\\ud800\"".toList

/-- The text of a token. -/
def Token.chars : Token → List Char
  | .openObject => ['{']
  | .closeObject => ['}']
  | .openArray => ['[']
  | .closeArray => [']']
  | .colon => [':']
  | .comma => [',']
  | .null => "null".toList
  | .bool true => "true".toList
  | .bool false => "false".toList
  | .num n => n.chars
  | .text s => quoted s

/-! ## Compact text -/

/-- The compact text of a value. -/
def compact (j : Json) : String :=
  String.ofList (j.tokens.flatMap Token.chars)

/-! ## Indented text -/

/-- A line break and the blanks of a line at the given depth. -/
def newLine (depth : Nat) : List Char :=
  '\n' :: List.replicate (2 * depth) ' '

mutual

/-- The indented text of a value whose line is at the given depth. -/
def indentedChars (depth : Nat) : Json → List Char
  | .null => "null".toList
  | .bool true => "true".toList
  | .bool false => "false".toList
  | .num n => n.chars
  | .text s => quoted s
  | .array [] => ['[', ']']
  | .array (item :: rest) =>
    '[' :: (newLine (depth + 1) ++ indentedChars (depth + 1) item ++ indentedItems depth rest
      ++ newLine depth ++ [']'])
  | .object [] => ['{', '}']
  | .object ((key, value) :: rest) =>
    '{' :: (newLine (depth + 1) ++ quoted key ++ [':', ' '] ++ indentedChars (depth + 1) value
      ++ indentedMembers depth rest ++ newLine depth ++ ['}'])

/-- The items after the first, each with the comma and the line break before it. -/
def indentedItems (depth : Nat) : List Json → List Char
  | [] => []
  | item :: rest =>
    ',' :: (newLine (depth + 1) ++ indentedChars (depth + 1) item ++ indentedItems depth rest)

/-- The members after the first, each with the comma and the line break before it. -/
def indentedMembers (depth : Nat) : List (Option String × Json) → List Char
  | [] => []
  | (key, value) :: rest =>
    ',' :: (newLine (depth + 1) ++ quoted key ++ [':', ' '] ++ indentedChars (depth + 1) value
      ++ indentedMembers depth rest)

end

/-- The indented text of a value. -/
def indented (j : Json) : String :=
  String.ofList (indentedChars 0 j)

end Weaver.Json
