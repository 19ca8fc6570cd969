/-!
# TOML values

A document is a tree of tables. How a table came to be decides how it may still grow: one that a
header names is complete but for its subtables, one that a longer header implies may still get a
header of its own, one that dotted keys made grows by dotted keys only, and one in braces not at
all.
-/

namespace Weaver.Toml

/-- How a table came to be. -/
inductive Form where
  | header
  | implied
  | dotted
  | inline
deriving DecidableEq, Inhabited

/-- A TOML value. Numbers, dates and times are all alike: nothing here asks for one. -/
inductive Value where
  | text (s : String)
  | bool (b : Bool)
  | scalar
  | array (items : List Value)
  | table (form : Form) (entries : List (String × Value))
  /-- Tables that share a header in double brackets, the last one first. -/
  | tables (reversed : List (List (String × Value)))
deriving Inhabited

/-- The entries of a table. -/
abbrev Entries := List (String × Value)

/-- The value of a key. -/
def find? (entries : Entries) (key : String) : Option Value :=
  (entries.find? (·.1 == key)).map (·.2)

/-- Replaces the value of a key, or adds it at the end. -/
def put (entries : Entries) (key : String) (value : Value) : Entries :=
  if entries.any (·.1 == key) then
    entries.map fun entry => if entry.1 == key then (key, value) else entry
  else entries ++ [(key, value)]

/-- Changes the entries of the table at a path, in the last of several tables that share a header.
Missing tables on the way are made, in the form that dotted keys or headers make. A value, a table
in braces and, for dotted keys, a table with a header cannot be entered. -/
def changeAt (dotted : Bool) (change : Form → Entries → Option Entries) :
    (path : List String) → Form → Entries → Option Entries
  | [], form, entries => change form entries
  | key :: path, _, entries =>
    match find? entries key with
    | none =>
      let form := if dotted then Form.dotted else .implied
      (changeAt dotted change path form []).map fun inner => put entries key (.table form inner)
    | some (.table form inner) =>
      if form = .inline ∨ (dotted ∧ form = .header) then none
      else (changeAt dotted change path form inner).map fun inner =>
        put entries key (.table form inner)
    | some (.tables (last :: before)) =>
      (changeAt dotted change path .header last).map fun inner =>
        put entries key (.tables (inner :: before))
    | some _ => none

/-- Adds an entry at a dotted key. No key is given twice, and only tables made by dotted keys are
entered by dotted keys. -/
def addEntry (path : List String) (key : String) (value : Value) (form : Form)
    (entries : Entries) : Option Entries :=
  changeAt true (fun reached entries =>
    if (path.isEmpty == (reached == .dotted)) || (find? entries key).isSome then none
    else some (put entries key value)) path form entries

/-- Opens the table of a header. Only an implied table may get a header after it was made. -/
def openTable (path : List String) (key : String) (root : Entries) : Option Entries :=
  changeAt false (fun _ entries =>
    match find? entries key with
    | none => some (put entries key (.table .header []))
    | some (.table .implied inner) => some (put entries key (.table .header inner))
    | some _ => none) path .header root

/-- Opens one more table of a header in double brackets. -/
def openNextTable (path : List String) (key : String) (root : Entries) : Option Entries :=
  changeAt false (fun _ entries =>
    match find? entries key with
    | none => some (put entries key (.tables [[]]))
    | some (.tables before) => some (put entries key (.tables ([] :: before)))
    | some _ => none) path .header root

end Weaver.Toml
