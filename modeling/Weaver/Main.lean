import Weaver.CommandLine.Run
import Weaver.Uuid.Seeded

/-!
# The program

Takes what an invocation may touch from the disk into a value, runs the command line on it, and puts
back what has changed.
-/

namespace Weaver.Disk

open CommandLine

/-- What stands at a path, if it can be read. -/
def entry? (path : String) : IO (Option FileEntry) := do
  try
    let real ← IO.FS.realPath path
    if ← real.isDir then return some .directory
    else return some (.file (← IO.FS.readBinFile real).toList)
  catch _ => return none

/-- Adds what stands at a place. -/
def take (files : FileStore) (place : List String) : IO FileStore := do
  match ← entry? (FileStore.pathTo place) with
  | some (.file bytes) => return files.put place bytes
  | some .directory => return files.addDirectory place
  | none => return files

/-- The files and directories on the way to the paths of a command line. -/
def snapshot (args : List String) : IO FileStore :=
  match parse args with
  | .ok invocation => (invocation.paths.flatMap FileStore.placesOf).eraseDups.foldlM take {}
  | .error _ => return {}

/-- Writes what has changed and removes what is gone. -/
def putBack (before after : FileStore) : IO Unit := do
  for (place, entry) in after.entries do
    if let .file bytes := entry then
      if before.entry? place != some entry then
        IO.FS.writeBinFile (FileStore.pathTo place) ⟨bytes.toArray⟩
  for (place, _) in before.entries do
    if (after.entry? place).isNone then IO.FS.removeFile (FileStore.pathTo place)

end Weaver.Disk

open Weaver in
/-- Runs the command line. -/
def main (args : List String) : IO UInt32 := do
  let files ← Disk.snapshot args
  let seed ← IO.getRandomBytes 16
  let override ← IO.getEnv fallbackVariable
  let result := CommandLine.run args { files, supply := .seeded seed.toList, override }
  Disk.putBack files result.files
  IO.print result.stdout
  IO.eprint result.stderr
  return result.code.toUInt32
