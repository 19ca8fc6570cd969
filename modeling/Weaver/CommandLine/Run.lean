import Weaver.CommandLine.Arguments
import Weaver.CommandLine.Summary
import Weaver.Host.Load
import Weaver.Json.Reader
import Weaver.Json.Writer
import Weaver.Module.Description
import Weaver.PostCompile

/-!
# Running a command line

A command works on a value: the files that exist, the identifiers still to be handed out and the
lines written so far. It ends with a status and the texts for the two output streams.
-/

namespace Weaver.CommandLine

/-! ## Surroundings and results -/

/-- What a command works on. -/
structure Session where
  files : FileStore
  supply : IdSupply
  /-- The value of the environment variable that overrides a setting. -/
  override : Option String := none
  /-- The lines written so far. -/
  output : List String := []

/-- What a command leaves behind. -/
structure Result where
  code : UInt8
  stdout : String
  stderr : String
  files : FileStore
  supply : IdSupply

/-- A command that may fail with lines for the user. What it changed and wrote before stays. -/
abbrev Action (α : Type) := ExceptT (List String) (StateM Session) α

/-- Lines, each with its end. -/
def ofLines (lines : List String) : String :=
  String.join (lines.map (· ++ "\n"))

namespace Action

/-- Ends the command with an error. -/
def fail {α : Type} (message : String) : Action α :=
  throw ["error: " ++ message]

/-- Writes a line. -/
def say (line : String) : Action Unit :=
  modify fun s => { s with output := s.output ++ [line] }

/-- Goes on with a value or ends the command with the report of an error. -/
def orReport {α : Type} (module : String) : Except WeaveError α → Action α
  | .ok a => pure a
  | .error e => throw (e.report module)

/-! ## Files -/

/-- The settings: those of the file that was asked for, else those of a directory. -/
def settings (path : Option String) (directory : String) : Action Settings := do
  let s ← get
  orReport "config" <| match path with
    | some path => do (← Settings.load s.files path).withOverride s.override
    | none => Settings.discover s.files directory s.override

/-- The bytes of a file. -/
def readFile (path : String) (wording : FileError → String) : Action (List UInt8) := do
  match (← get).files.read path with
  | .ok bytes => return bytes
  | .error e => fail s!"failed to read {path}: {wording e}"

/-- An artifact. -/
def readArtifact (path : String) : Action Artifact := do
  let bytes ← readFile path fun e => s!"IO error: {e.message}"
  match Artifact.ofBytes bytes with
  | .ok artifact => return artifact
  | .error e => fail s!"failed to read {path}: {e.message}"

/-- A text. -/
def readText (path : String) : Action String := do
  let bytes ← readFile path FileError.message
  match Bytes.toText? bytes with
  | some text => return text
  | none => fail s!"failed to read {path}: {FileError.notText.message}"

/-! ## Commands -/

/-- The name and the references of a module: those that were given, and for what was not those in
the artifact. -/
def identify (file : String) (name : Option String) (references : List String) :
    Action (String × List String) := do
  match name, references with
  | some name, _ :: _ => return (name, references)
  | _, _ =>
    let module := (← readArtifact file).module
    return (name.getD module.name, if references.isEmpty then module.references else references)

/-- The line that tells how the post-compile step ended for a module. -/
def outcomeLine (module : String) : StepOutcome → String
  | .skipped reason => s!"skipped {module}: {reason.message}"
  | .processed .alreadyWoven => s!"{module}: already woven"
  | .processed .nothingToWeave => s!"{module}: nothing to weave"
  | .processed (.woven report) =>
    s!"wove {report.module}: {report.factories.length} factory(ies), "
      ++ s!"{report.injectors.length} injector(s), registrar {report.registrar}"

/-- Weaves an artifact in place. -/
def weave (config : Option String) (file : String) (name : Option String) (editorOnly : Bool)
    (references : List String) (errorCount : Nat) : Action Unit := do
  let settings ← settings config (Path.directory file)
  let (name, references) ← identify file name references
  let compiled : CompiledUnit := { name, artifactPath := file, editorOnly, references, errorCount }
  let s ← get
  let (outcome, files, supply) := compiled.postCompile settings s.files s.supply
  set { s with files, supply }
  say (outcomeLine name (← orReport name outcome))

/-- Makes an artifact from a module description. -/
def assemble (file output : String) : Action Unit := do
  let text ← readText file
  let s ← get
  let some (module, supply) := (Json.ofText? text).bind (Module.ofJson? · s.supply)
    | fail s!"invalid module description {file}"
  match s.files.write output (Artifact.toBytes { module }) with
  | .error e => fail s!"failed to write {output}: IO error: {e.message}"
  | .ok files => set { s with files, supply }
  say s!"assembled {module.name} -> {output}"

/-- Shows what is in an artifact. -/
def inspect (file : String) (json : Bool) : Action Unit := do
  let artifact ← readArtifact file
  if json then say artifact.module.toJson.indented
  else artifact.summary.forM say

/-- Runs code on a host and gives its result with the host after it. A host gives every code a
result, since the limits on calls and resolutions are reached before the levels of its engine. -/
def onHost {α : Type} (h : Host) (code : Run α) : Action (Except HostError α × Host) :=
  match code.run h with
  | some result => pure result
  | none => fail "the host gave no result"

/-- Loads the artifact of a file into a host and gives the host after it. -/
def loadFile (h : Host) (file : String) : Action Host := do
  let artifact ← readArtifact file
  match ← onHost h (Host.loadArtifact artifact) with
  | (.error e, _) => fail e.message
  | (.ok report, h) =>
    say (s!"loaded {report.module}: {report.hooksRun} hook(s), {report.factories} factory(ies), "
      ++ s!"{report.injectors} injector(s)")
    return h

/-- Splits a text at its last pair of colons. -/
def splitEntry? (entry : String) : Option (String × String) :=
  let rec split : (method : List Char) → List Char → Option (String × String)
    | method, ':' :: ':' :: owner => some (String.ofList owner.reverse, String.ofList method)
    | method, c :: rest => split (c :: method) rest
    | _, [] => none
  split [] entry.toList.reverse

/-- Calls a method without arguments and shows what the host has printed, the load hooks
included. -/
def runEntry (h : Host) (entry : String) : Action Unit := do
  let some (owner, method) := splitEntry? entry
    | fail s!"--run expects Type::Method, got '{entry}'"
  let (result, h) ← onHost h (Host.invoke owner method [])
  h.output.forM say
  match result with
  | .ok _ => return
  | .error e => fail e.message

/-- Loads artifacts into a host and reports what they register. -/
def load (config : Option String) (files : List String) (editor fallback : Bool)
    (entry : Option String) : Action Unit := do
  let settings ← settings config (Path.directory (files.headD ""))
  let mode := if editor then .editor else settings.mode
  let h ← files.foldlM loadFile (Host.new { mode, fallback := settings.fallback || fallback })
  h.registry.factories.sortedTypes.forM fun ty => say s!"factory  {ty}"
  h.registry.injectors.sortedTypes.forM fun ty => say s!"injector {ty}"
  if let some entry := entry then runEntry h entry

/-- Carries out an invocation. -/
def ofInvocation (i : Invocation) : Action Unit :=
  match i.command with
  | .weave file name editorOnly references errors =>
    weave i.settings file name editorOnly references errors
  | .assemble file output => assemble file output
  | .inspect file json => inspect file json
  | .load files editor fallback entry => load i.settings files editor fallback entry

end Action

/-! ## Whole command lines -/

/-- The paths that a command may read, write or remove. -/
def Command.paths : Command → List String
  | .weave file .. => file :: (stagingPath? file).toList
  | .assemble file output => [file, output]
  | .inspect file _ => [file]
  | .load files .. => files

/-- The paths that an invocation may read, write or remove. The settings file lies next to the first
file of the command unless another was asked for. -/
def Invocation.paths (i : Invocation) : List String :=
  let near := Path.directory (i.command.paths.headD "")
  i.settings.getD (Path.join near settingsFile) :: i.command.paths

/-- The line that names the tool. -/
def versionLine : String := s!"prewire {toolVersion}"

/-- How to use the tool. -/
def usage : List String :=
  ["Usage: prewire [--config FILE] COMMAND",
   "",
   "Commands:",
   "  weave FILE [--name NAME] [--editor] [--reference MODULE]... [--errors N]",
   "  assemble FILE --output FILE",
   "  inspect FILE [--json]",
   "  load FILE... [--editor] [--fallback] [--run Type::Method]"]

/-- The status of success. -/
def okCode : UInt8 := 0

/-- The status of a command that failed. -/
def failureCode : UInt8 := 1

/-- The status of arguments that make no sense. -/
def usageCode : UInt8 := 2

/-- Runs a command line. -/
def run (args : List String) (session : Session) : Result :=
  match parse args with
  | .ok invocation =>
    let (outcome, after) := (Action.ofInvocation invocation).run.run session
    let (code, errors) := match outcome with
      | .ok () => (okCode, [])
      | .error lines => (failureCode, lines)
    { code
      stdout := ofLines after.output
      stderr := ofLines errors
      files := after.files
      supply := after.supply }
  | .error refusal =>
    let (code, out, errors) := match refusal with
      | .version => (okCode, [versionLine], [])
      | .help => (okCode, usage, [])
      | .usage => (usageCode, [], usage)
    { code
      stdout := ofLines out
      stderr := ofLines errors
      files := session.files
      supply := session.supply }

end Weaver.CommandLine
