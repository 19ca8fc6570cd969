import Weaver.Bytes
import Weaver.Toml.Basic
import Weaver.Toml.Scalar

/-!
# Reading TOML

A document is read line by line. Every reader takes characters off the front and leaves the rest,
and gives `none` when the front is not what it reads.
-/

namespace Weaver.Toml

/-- A reader of one part of a document. -/
abbrev Reader (α : Type) := List Char → Option (α × List Char)

/-! ## Blanks, comments and line ends -/

/-- A blank within a line. -/
def isLineBlank (c : Char) : Bool := c == ' ' || c == '\t'

/-- Drops blanks within the line. -/
def skipBlanks (cs : List Char) : List Char := cs.dropWhile isLineBlank

/-- A character that may stand in a comment: no control character but the tabulator. -/
def isCommentChar (c : Char) : Bool := c == '\t' || (0x20 ≤ c.toNat && c.toNat != 0x7F)

/-- Drops blanks and a comment, then takes the end of the line or of the document. -/
def lineEnd (cs : List Char) : Option (List Char) :=
  let rest := skipBlanks cs
  let rest := match rest with
    | '#' :: comment => comment.dropWhile isCommentChar
    | rest => rest
  match rest with
  | [] => some []
  | '\n' :: rest => some rest
  | '\r' :: '\n' :: rest => some rest
  | _ => none

/-- Drops blanks, line ends and comments. -/
def skipTrivia (inComment : Bool) : List Char → List Char
  | '\n' :: rest => skipTrivia false rest
  | '\r' :: '\n' :: rest => skipTrivia false rest
  | c :: rest =>
    if inComment then
      if isCommentChar c then skipTrivia true rest else c :: rest
    else if isLineBlank c then skipTrivia false rest
    else if c == '#' then skipTrivia true rest
    else c :: rest
  | [] => []

/-! ## Texts -/

/-- The character of a code point, if it is one. -/
def scalarChar? (code : Nat) : Option Char :=
  if code < 0xD800 ∨ (0xE000 ≤ code ∧ code < 0x110000) then some (Char.ofNat code) else none

/-- The character whose code point the hexadecimal digits spell. -/
def hexChar? (digits : List Char) : Option Char := do
  let values ← digits.mapM Bytes.hexValue?
  scalarChar? (values.foldl (fun n d => 16 * n + d) 0)

/-- The character behind a one-letter escape. -/
def shortEscape? : Char → Option Char
  | 'b' => some '\x08'
  | 't' => some '\t'
  | 'n' => some '\n'
  | 'f' => some '\x0c'
  | 'r' => some '\r'
  | '"' => some '"'
  | '\\' => some '\\'
  | _ => none

/-- Puts a character in front of what a reader read. -/
def consChar (c : Char) (read : Option (List Char × List Char)) : Option (List Char × List Char) :=
  read.map fun (cs, rest) => (c :: cs, rest)

/-- The body of a text in double quotes, after the opening quote. -/
def basicBody : Reader (List Char)
  | [] => none
  | '"' :: rest => some ([], rest)
  | '\\' :: 'u' :: a :: b :: c :: d :: rest =>
    (hexChar? [a, b, c, d]).bind fun x => consChar x (basicBody rest)
  | '\\' :: 'U' :: a :: b :: c :: d :: e :: f :: g :: h :: rest =>
    (hexChar? [a, b, c, d, e, f, g, h]).bind fun x => consChar x (basicBody rest)
  | '\\' :: c :: rest => (shortEscape? c).bind fun x => consChar x (basicBody rest)
  | c :: rest => if c != '\\' && isCommentChar c then consChar c (basicBody rest) else none

/-- The body of a text in single quotes, after the opening quote. -/
def literalBody : Reader (List Char)
  | [] => none
  | '\'' :: rest => some ([], rest)
  | c :: rest => if isCommentChar c then consChar c (literalBody rest) else none

/-- Whether only blanks stand before the end of the line. -/
def endsLine (cs : List Char) : Bool :=
  match skipBlanks cs with
  | '\n' :: _ => true
  | '\r' :: '\n' :: _ => true
  | _ => false

/-- The body of a text in three double quotes, after the opening quotes. Up to two quotes may stand
right before the closing ones, and a backslash at the end of a line drops the blanks and line ends
that follow it, which `trimming` stands for. -/
def basicLines (trimming : Bool) : Reader (List Char)
  | [] => none
  | '"' :: '"' :: '"' :: '"' :: '"' :: rest => some (['"', '"'], rest)
  | '"' :: '"' :: '"' :: '"' :: rest => some (['"'], rest)
  | '"' :: '"' :: '"' :: rest => some ([], rest)
  | '\r' :: '\n' :: rest =>
    if trimming then basicLines true rest else consChar '\n' (basicLines false rest)
  | '\n' :: rest => if trimming then basicLines true rest else consChar '\n' (basicLines false rest)
  | '\\' :: 'u' :: a :: b :: c :: d :: rest =>
    (hexChar? [a, b, c, d]).bind fun x => consChar x (basicLines false rest)
  | '\\' :: 'U' :: a :: b :: c :: d :: e :: f :: g :: h :: rest =>
    (hexChar? [a, b, c, d, e, f, g, h]).bind fun x => consChar x (basicLines false rest)
  | '\\' :: c :: rest =>
    match shortEscape? c with
    | some x => consChar x (basicLines false rest)
    | none => if endsLine (c :: rest) then basicLines true (c :: rest) else none
  | c :: rest =>
    if trimming && isLineBlank c then basicLines true rest
    else if c != '\\' && isCommentChar c then consChar c (basicLines false rest)
    else none

/-- The body of a text in three single quotes, after the opening quotes. -/
def literalLines : Reader (List Char)
  | [] => none
  | '\'' :: '\'' :: '\'' :: '\'' :: '\'' :: rest => some (['\'', '\''], rest)
  | '\'' :: '\'' :: '\'' :: '\'' :: rest => some (['\''], rest)
  | '\'' :: '\'' :: '\'' :: rest => some ([], rest)
  | '\r' :: '\n' :: rest => consChar '\n' (literalLines rest)
  | '\n' :: rest => consChar '\n' (literalLines rest)
  | c :: rest => if isCommentChar c then consChar c (literalLines rest) else none

/-- Drops a line end right after opening quotes. -/
def skipLineEnd : List Char → List Char
  | '\r' :: '\n' :: rest => rest
  | '\n' :: rest => rest
  | rest => rest

/-- A text in any of the four kinds of quotes. -/
def text? (cs : List Char) : Option (String × List Char) :=
  let read : Option (List Char × List Char) := match cs with
    | '"' :: '"' :: '"' :: rest => basicLines false (skipLineEnd rest)
    | '"' :: rest => basicBody rest
    | '\'' :: '\'' :: '\'' :: rest => literalLines (skipLineEnd rest)
    | '\'' :: rest => literalBody rest
    | _ => none
  read.map fun (body, rest) => (String.ofList body, rest)

/-! ## Keys -/

/-- How deep arrays and tables in braces may be nested, and how many parts a key may have. -/
def maxDepth : Nat := 79

/-- A character of a key without quotes. -/
def isKeyChar (c : Char) : Bool := c.isAlphanum || c == '_' || c == '-'

/-- One part of a key. -/
def simpleKey? (cs : List Char) : Option (String × List Char) :=
  match cs with
  | '"' :: rest => (basicBody rest).map fun (body, rest) => (String.ofList body, rest)
  | '\'' :: rest => (literalBody rest).map fun (body, rest) => (String.ofList body, rest)
  | cs =>
    let (key, rest) := cs.span isKeyChar
    if key.isEmpty then none else some (String.ofList key, rest)

/-- The parts of a dotted key, blanks around them aside. The fuel bounds their number. -/
def keyParts? : (fuel : Nat) → Reader (List String)
  | 0, _ => none
  | fuel + 1, cs =>
    (simpleKey? (skipBlanks cs)).bind fun (part, rest) =>
      match skipBlanks rest with
      | '.' :: rest => (keyParts? fuel rest).map fun (parts, rest) => (part :: parts, rest)
      | rest => some ([part], rest)

/-- A dotted key: the path to its table, and its last part. -/
def key? (cs : List Char) : Option ((List String × String) × List Char) :=
  (keyParts? (cs.length + 1) cs).bind fun (parts, rest) =>
    if maxDepth < parts.length then none
    else parts.getLast?.map fun last => ((parts.dropLast, last), rest)

/-! ## Values -/

/-- Items of an array after its opening bracket, up to the closing one. A comma may follow the last
item. -/
def arrayItems (item : Reader Value) : (fuel : Nat) → Reader (List Value)
  | 0, _ => none
  | fuel + 1, cs =>
    match skipTrivia false cs with
    | ']' :: rest => some ([], rest)
    | cs =>
      (item cs).bind fun (value, rest) =>
        match skipTrivia false rest with
        | ',' :: rest =>
          (arrayItems item fuel rest).map fun (values, rest) => (value :: values, rest)
        | ']' :: rest => some ([value], rest)
        | _ => none

/-- Entries of a table in braces, up to the closing brace. They stand on one line, and no comma
follows the last. -/
def inlineEntries (item : Reader Value) : (fuel : Nat) → Entries → Reader Entries
  | 0, _, _ => none
  | fuel + 1, entries, cs =>
    (key? cs).bind fun ((path, key), rest) =>
      match rest with
      | '=' :: rest =>
        (item (skipBlanks rest)).bind fun (value, rest) =>
          (addEntry path key value .inline entries).bind fun entries =>
            match skipBlanks rest with
            | ',' :: rest => inlineEntries item fuel entries rest
            | '}' :: rest => some (entries, rest)
            | _ => none
      | _ => none

/-- A character of a number, a date or a time. -/
def isScalarChar (c : Char) : Bool :=
  c.isAlphanum || c == '_' || c == '-' || c == '+' || c == '.' || c == ':'

/-- A number, a date or a time. A blank may stand between a date and the time of day. -/
def scalar? (cs : List Char) : Option (Value × List Char) :=
  let (word, rest) := cs.span isScalarChar
  let (word, rest) := match rest with
    | ' ' :: more =>
      let (time, rest') := more.span isScalarChar
      if isDate word && time.head?.any Char.isDigit then (word ++ ' ' :: time, rest')
      else (word, rest)
    | _ => (word, rest)
  if isScalar word then some (.scalar, rest) else none

/-- A value that holds no others. -/
def plain? (cs : List Char) : Option (Value × List Char) :=
  match cs with
  | '"' :: _ | '\'' :: _ => (text? cs).map fun (s, rest) => (.text s, rest)
  | 't' :: 'r' :: 'u' :: 'e' :: rest => some (.bool true, rest)
  | 'f' :: 'a' :: 'l' :: 's' :: 'e' :: rest => some (.bool false, rest)
  | cs => scalar? cs

/-- A value in which arrays and tables are nested to at most the given depth. -/
def value? : (depth : Nat) → Reader Value
  | 0, cs => plain? cs
  | depth + 1, cs =>
    match cs with
    | '[' :: rest =>
      (arrayItems (value? depth) (rest.length + 1) rest).map fun (values, rest) =>
        (.array values, rest)
    | '{' :: rest =>
      match skipBlanks rest with
      | '}' :: rest => some (.table .inline [], rest)
      | rest =>
        (inlineEntries (value? depth) (rest.length + 1) [] rest).map fun (entries, rest) =>
          (.table .inline entries, rest)
    | cs => plain? cs

/-! ## Documents -/

/-- What has been read of a document: the tables, and the path of the table that entries go to. -/
structure Document where
  root : Entries := []
  current : List String := []

namespace Document

/-- Adds an entry to the current table. -/
def addEntry? (d : Document) (path : List String) (key : String) (value : Value) :
    Option Document :=
  (changeAt false (addEntry path key value) d.current .header d.root).map fun root =>
    { d with root }

/-- One line of a document, and the rest after it. -/
def line? (d : Document) (cs : List Char) : Option (Document × List Char) :=
  match cs with
  | '#' :: _ | '\n' :: _ | '\r' :: _ => (lineEnd cs).map (d, ·)
  | '[' :: '[' :: rest => do
    let ((path, key), rest) ← key? rest
    match rest with
    | ']' :: ']' :: rest =>
      let rest ← lineEnd rest
      let root ← openNextTable path key d.root
      return ({ root, current := path ++ [key] }, rest)
    | _ => none
  | '[' :: rest => do
    let ((path, key), rest) ← key? rest
    match rest with
    | ']' :: rest =>
      let rest ← lineEnd rest
      let root ← openTable path key d.root
      return ({ root, current := path ++ [key] }, rest)
    | _ => none
  | cs => do
    let ((path, key), rest) ← key? cs
    match rest with
    | '=' :: rest =>
      let (value, rest) ← value? maxDepth (skipBlanks rest)
      let rest ← lineEnd rest
      let d ← d.addEntry? path key value
      return (d, rest)
    | _ => none

/-- The lines of a document. The fuel bounds their number. -/
def lines? : (fuel : Nat) → Document → List Char → Option Document
  | 0, _, _ => none
  | fuel + 1, d, cs =>
    match skipBlanks cs with
    | [] => some d
    | cs => (d.line? cs).bind fun (d, rest) => lines? fuel d rest

end Document

/-- The tables of a document; a byte order mark before it is dropped. -/
def ofText? (text : String) : Option Entries :=
  let chars := match text.toList with
    | '\ufeff' :: rest => rest
    | chars => chars
  (Document.lines? (chars.length + 1) {} chars).map (·.root)

end Weaver.Toml
