/-!
# Paths

Paths are texts with slashes between their components. Empty components say nothing. A single dot
stands for the directory that it is in, so it leads nowhere else; what comes before it still has to
be a directory.
-/

namespace Weaver.Path

/-- Splits characters at slashes. -/
def splitSlashes : List Char → List (List Char)
  | [] => [[]]
  | '/' :: rest => [] :: splitSlashes rest
  | c :: rest =>
    match splitSlashes rest with
    | [] => [[c]]
    | part :: parts => (c :: part) :: parts

/-- The components that are not empty, single dots included. -/
def components (path : String) : List String :=
  ((splitSlashes path.toList).filter fun part => !part.isEmpty).map String.ofList

/-- Whether a path starts at the root. -/
def isAbsolute (path : String) : Bool :=
  path.toList.head? == some '/'

/-- Whether a path ends in a slash, so that it can only name a directory. -/
def endsInSlash (path : String) : Bool :=
  path.toList.getLast? == some '/'

/-- Drops slashes, and dots behind slashes, from the end of a reversed path; the root stays. -/
def dropEmptyTail : List Char → List Char
  | ['/'] => ['/']
  | '/' :: rest => dropEmptyTail rest
  | ['.', '/'] => ['/']
  | '.' :: '/' :: rest => dropEmptyTail rest
  | rest => rest

/-- The last component and the path before it; `none` for the root and for the empty path. -/
def splitLast? (path : String) : Option (String × String) :=
  let tail := dropEmptyTail path.toList.reverse
  if tail.isEmpty || tail == ['/'] then none
  else
    let name := tail.takeWhile (· != '/')
    let parent := dropEmptyTail (tail.dropWhile (· != '/'))
    some (String.ofList parent.reverse, String.ofList name.reverse)

/-- The path without its last component. -/
def parent? (path : String) : Option String :=
  (splitLast? path).map (·.1)

/-- The directory that a file lies in, a single dot for the current one. -/
def directory (path : String) : String :=
  match parent? path with
  | some "" | none => "."
  | some parent => parent

/-- The last component, if it is a name. -/
def fileName? (path : String) : Option String :=
  match splitLast? path with
  | some (_, name) => if name = "." ∨ name = ".." then none else some name
  | none => none

/-- A path within a directory; one that starts at the root stays as it is. -/
def join (directory name : String) : String :=
  if directory.isEmpty || isAbsolute name then name
  else if endsInSlash directory then directory ++ name
  else directory ++ "/" ++ name

end Weaver.Path
