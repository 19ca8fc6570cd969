import Weaver.Json.Lexer

/-!
# Reading JSON

A value is read from its tokens, one token at a time, with a stack of the arrays and objects that
are still open. Nesting is bounded by nothing but the text.
-/

namespace Weaver.Json

/-- An open array, or an open object that waits for the value of a key. Parts are in reverse. -/
inductive Layer where
  | array (items : List Json)
  | object (members : List (Option String × Json)) (key : Option String)

/-- What may come next. -/
inductive Expect where
  /-- A value. -/
  | value
  /-- A value, or the end of an array that is still empty. -/
  | valueOrClose
  /-- A key of the object with these members. -/
  | key (members : List (Option String × Json))
  /-- A key, or the end of an object that is still empty. -/
  | keyOrClose
  /-- The colon after a key of the object with these members. -/
  | colon (members : List (Option String × Json)) (key : Option String)
  /-- A comma or the end of the array with these items. -/
  | moreItems (items : List Json)
  /-- A comma or the end of the object with these members. -/
  | moreMembers (members : List (Option String × Json))
  /-- Nothing: the value is complete. -/
  | nothing (whole : Json)

/-- The layers that are open, innermost first, and what may come next. -/
structure Reader where
  layers : List Layer := []
  expect : Expect := .value

namespace Reader

/-- Puts a complete value where it belongs. -/
def put (layers : List Layer) (v : Json) : Reader :=
  match layers with
  | [] => ⟨[], .nothing v⟩
  | .array items :: outer => ⟨outer, .moreItems (v :: items)⟩
  | .object members key :: outer => ⟨outer, .moreMembers ((key, v) :: members)⟩

/-- A token that starts a value, or is one. -/
def startValue (layers : List Layer) : Token → Option Reader
  | .null => some (put layers .null)
  | .bool b => some (put layers (.bool b))
  | .num n => some (put layers (.num n))
  | .text s => some (put layers (.text s))
  | .openArray => some ⟨layers, .valueOrClose⟩
  | .openObject => some ⟨layers, .keyOrClose⟩
  | _ => none

/-- Takes one token. -/
def step (r : Reader) (t : Token) : Option Reader :=
  match r.expect, t with
  | .value, t => startValue r.layers t
  | .valueOrClose, .closeArray => some (put r.layers (.array []))
  | .valueOrClose, t => startValue (.array [] :: r.layers) t
  | .keyOrClose, .closeObject => some (put r.layers (.object []))
  | .keyOrClose, .text key => some ⟨r.layers, .colon [] key⟩
  | .key members, .text key => some ⟨r.layers, .colon members key⟩
  | .colon members key, .colon => some ⟨.object members key :: r.layers, .value⟩
  | .moreItems items, .comma => some ⟨.array items :: r.layers, .value⟩
  | .moreItems items, .closeArray => some (put r.layers (.array items.reverse))
  | .moreMembers members, .comma => some ⟨r.layers, .key members⟩
  | .moreMembers members, .closeObject => some (put r.layers (.object members.reverse))
  | _, _ => none

/-- Takes a sequence of tokens. -/
def run (r : Reader) : List Token → Option Reader
  | [] => some r
  | t :: rest => (r.step t).bind (·.run rest)

/-- The value, once it is complete. -/
def whole? (r : Reader) : Option Json :=
  match r.expect with
  | .nothing v => some v
  | _ => none

end Reader

/-- The value whose tokens these are. -/
def ofTokens? (ts : List Token) : Option Json :=
  (Reader.run {} ts).bind Reader.whole?

/-- The value that a text holds, blanks around it aside. -/
def ofText? (text : String) : Option Json :=
  (lex? text.toList).bind ofTokens?

end Weaver.Json
