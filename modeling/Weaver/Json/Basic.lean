/-!
# JSON values

A value keeps what its text says: members stay in order and may repeat, integers are told apart from
other numbers, and a text whose escapes name half of a surrogate pair is kept apart as unreadable.
-/

namespace Weaver

/-- A number: an integer, or any other literal in the spelling it has. -/
inductive Json.Number where
  | integer (n : Int)
  | decimal (literal : List Char)
deriving DecidableEq, Inhabited

/-- A JSON value. A text or key that is `none` is well formed, but names half of a surrogate
pair. -/
inductive Json where
  | null
  | bool (b : Bool)
  | num (n : Json.Number)
  | text (s : Option String)
  | array (items : List Json)
  | object (members : List (Option String × Json))
deriving Inhabited

namespace Json

/-- A readable text. -/
def str (s : String) : Json := .text (some s)

/-- An integer. -/
def int (n : Int) : Json := .num (.integer n)

/-- An object with readable keys. -/
def ofMembers (members : List (String × Json)) : Json :=
  .object (members.map fun (k, v) => (some k, v))

/-- The first member of a key. -/
def member? (key : String) : Json → Option Json
  | .object members => (members.find? (·.1 == some key)).map (·.2)
  | _ => none

/-! ## Members in order -/

mutual

/-- The same value with the members of every object in the order of their keys. Equal keys stay in
place. -/
def sorted : Json → Json
  | .array items => .array (sortedItems items)
  | .object members =>
    .object ((sortedMembers members).mergeSort fun a b => !decide (b.1.getD "" < a.1.getD ""))
  | other => other

/-- Every item with its members in order. -/
def sortedItems : List Json → List Json
  | [] => []
  | item :: rest => sorted item :: sortedItems rest

/-- Every member's value with its members in order. -/
def sortedMembers : List (Option String × Json) → List (Option String × Json)
  | [] => []
  | (key, value) :: rest => (key, sorted value) :: sortedMembers rest

end

/-! ## Tokens -/

/-- The words of JSON text. -/
inductive Token where
  | openObject
  | closeObject
  | openArray
  | closeArray
  | colon
  | comma
  | null
  | bool (b : Bool)
  | num (n : Number)
  | text (s : Option String)
deriving DecidableEq, Inhabited

mutual

/-- The tokens of a value. -/
def tokens : Json → List Token
  | .null => [.null]
  | .bool b => [.bool b]
  | .num n => [.num n]
  | .text s => [.text s]
  | .array [] => [.openArray, .closeArray]
  | .array (item :: rest) => .openArray :: (tokens item ++ itemTokens rest ++ [.closeArray])
  | .object [] => [.openObject, .closeObject]
  | .object ((key, value) :: rest) =>
    .openObject :: .text key :: .colon :: (tokens value ++ memberTokens rest ++ [.closeObject])

/-- The tokens of the items after the first, each with the comma before it. -/
def itemTokens : List Json → List Token
  | [] => []
  | item :: rest => .comma :: (tokens item ++ itemTokens rest)

/-- The tokens of the members after the first, each with the comma before it. -/
def memberTokens : List (Option String × Json) → List Token
  | [] => []
  | (key, value) :: rest => .comma :: .text key :: .colon :: (tokens value ++ memberTokens rest)

end

end Json

end Weaver
