import Weaver.Files.Error
import Weaver.Files.Path

/-!
# File stores

Files and directories as a value. A place is the sequence of components that lead there from the
working directory, or from the root, which is a component of its own.
-/

namespace Weaver

/-- What stands at a place. -/
inductive FileEntry where
  | file (bytes : List UInt8)
  | directory
deriving DecidableEq

/-- The entries that exist, each under its place. -/
structure FileStore where
  entries : List (List String × FileEntry) := []
deriving DecidableEq

namespace FileStore

/-- The root as a place. -/
def root : List String := ["/"]

/-- The entry at a place. The root, the working directory and those above it always exist. -/
def entry? (s : FileStore) (place : List String) : Option FileEntry :=
  if place == root || place.all (· == "..") then some .directory
  else (s.entries.find? (·.1 == place)).map (·.2)

/-- The store without what stands at a place. -/
def erase (s : FileStore) (place : List String) : FileStore :=
  { entries := s.entries.filter (·.1 != place) }

/-- The store with a file at a place. -/
def put (s : FileStore) (place : List String) (bytes : List UInt8) : FileStore :=
  { entries := (s.erase place).entries ++ [(place, .file bytes)] }

/-- The store with a directory, and those above it, at a place. -/
def addDirectory (s : FileStore) (place : List String) : FileStore :=
  ((List.range place.length).map fun n => place.take (n + 1)).foldl
    (fun s place =>
      if (s.entry? place).isSome then s
      else { entries := s.entries ++ [(place, .directory)] })
    s

/-! ## Finding places -/

/-- The place above a directory. -/
def above (place : List String) : List String :=
  if place == root then root
  else if place.all (· == "..") then place ++ [".."]
  else place.dropLast

/-- The place that a component leads to from a directory. -/
def enter (place : List String) : String → List String
  | "." => place
  | ".." => above place
  | name => place ++ [name]

/-- The place where a path starts. -/
def start (path : String) : List String :=
  if Path.isAbsolute path then root else []

/-- The places that components lead through from a directory, the last included. -/
def placesFrom : (place : List String) → List String → List (List String)
  | _, [] => []
  | place, name :: rest => enter place name :: placesFrom (enter place name) rest

/-- The places that a path leads through. -/
def placesOf (path : String) : List (List String) :=
  placesFrom (start path) (Path.components path)

/-- The place that a path leads to, whatever exists on the way. -/
def placeOf (path : String) : List String :=
  (Path.components path).foldl enter (start path)

/-- Checks the lengths of the names that lead to a place. -/
def checkNames (place : List String) : Except FileError Unit :=
  if place.any (255 < ·.utf8ByteSize) then .error .nameTooLong else .ok ()

/-- The place that components lead to from a directory. All before the last have to lead to
directories; the last may lead anywhere, and its name is not looked at. -/
def walk (s : FileStore) : (place : List String) → List String → Except FileError (List String)
  | place, [] => .ok place
  | place, [name] => .ok (enter place name)
  | place, name :: rest => do
    let next := enter place name
    checkNames next
    match s.entry? next with
    | some .directory => s.walk next rest
    | some (.file _) => throw .notADirectory
    | none => throw .notFound

/-- The place that a path names, before a look at its last name. -/
def approach (s : FileStore) (path : String) : Except FileError (List String) :=
  if path.toList.contains '\x00' then .error .zeroInPath
  else if path.isEmpty then .error .notFound
  else if 4096 ≤ path.utf8ByteSize then .error .nameTooLong
  else s.walk (start path) (Path.components path)

/-- The place that a path names. -/
def locate (s : FileStore) (path : String) : Except FileError (List String) := do
  let place ← s.approach path
  checkNames place
  return place

/-- A path to a place. -/
def pathTo (place : List String) : String :=
  match place with
  | "/" :: rest => "/" ++ String.intercalate "/" rest
  | _ => String.intercalate "/" place

/-! ## Operations -/

/-- The bytes of a file. -/
def read (s : FileStore) (path : String) : Except FileError (List UInt8) := do
  let place ← s.locate path
  match s.entry? place with
  | none => throw .notFound
  | some .directory => throw .isADirectory
  | some (.file bytes) => if Path.endsInSlash path then throw .notADirectory else return bytes

/-- Whether a path names a file. -/
def isFile (s : FileStore) (path : String) : Bool :=
  match s.read path with
  | .ok _ => true
  | .error _ => false

/-- Creates a file or replaces its bytes. A path that ends in a slash is refused for that alone,
once the directories on its way are found. A failure changes nothing. -/
def write (s : FileStore) (path : String) (bytes : List UInt8) : Except FileError FileStore := do
  let place ← s.approach path
  if Path.endsInSlash path then throw .isADirectory
  checkNames place
  if s.entry? place = some .directory then throw .isADirectory
  return s.put place bytes

/-- Moves a file, replacing a file at the new path. A failure changes nothing. -/
def rename (s : FileStore) (source target : String) : Except FileError FileStore := do
  let bytes ← s.read source
  let place ← s.locate source
  let s' ← (s.erase place).write target bytes
  return s'

/-- Removes a file; without one, nothing changes. -/
def remove (s : FileStore) (path : String) : FileStore :=
  match s.read path, s.locate path with
  | .ok _, .ok place => s.erase place
  | _, _ => s

/-- The names of the entries that lie directly in a directory. -/
def names (s : FileStore) (directory : List String) : List String :=
  s.entries.filterMap fun (place, _) =>
    if place.dropLast == directory then place.getLast? else none

end FileStore

end Weaver
