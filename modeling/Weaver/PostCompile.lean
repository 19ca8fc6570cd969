import Weaver.Settings

/-!
# The post-compile step

A build calls this step once for every module it compiled. Modules that have nothing to do with
injection are skipped without a look at their artifacts. An artifact is replaced in one move, and
only if its module was woven.
-/

namespace Weaver

/-- What a build knows about a module. -/
structure CompiledUnit where
  name : String
  /-- Where the compiler wrote the artifact. -/
  artifactPath : String
  /-- The module is for editors only. -/
  editorOnly : Bool := false
  references : List String := []
  /-- The number of errors that the compiler reported. -/
  errorCount : Nat := 0

/-- Why a module is skipped. -/
inductive SkipReason where
  /-- It is the support module itself. -/
  | supportModule
  | compilationErrors (count : Nat)
  /-- It cannot use the container. -/
  | noSupportReference
deriving DecidableEq

/-- The wording of a reason. -/
def SkipReason.message : SkipReason → String
  | supportModule => "injection runtime module"
  | compilationErrors count => s!"compilation reported {count} error(s)"
  | noSupportReference => "does not reference the injection runtime"

/-- How the step ended. -/
inductive StepOutcome where
  | skipped (reason : SkipReason)
  | processed (outcome : WeaveOutcome)
deriving DecidableEq

/-- Why a unit is skipped, if it is. -/
def CompiledUnit.skipReason? (u : CompiledUnit) (settings : Settings) : Option SkipReason :=
  if u.name = settings.supportModule then some .supportModule
  else if 0 < u.errorCount then some (.compilationErrors u.errorCount)
  else if !u.references.contains settings.supportModule then some .noSupportReference
  else none

/-! ## Artifacts in files -/

/-- The file that new bytes are written to before they take an artifact's place. -/
def stagingPath? (path : String) : Option String :=
  (Path.fileName? path).map fun name =>
    Path.join ((Path.parent? path).getD "") (name ++ ".weaving")

/-- Replaces the bytes of a file by writing next to it and moving over it. -/
def FileStore.replace (store : FileStore) (path : String) (bytes : List UInt8) :
    Except WeaveError Unit × FileStore :=
  match stagingPath? path with
  | none => (.error (.file path .noFileName), store)
  | some staging =>
    match store.write staging bytes with
    | .error e => (.error (.file staging e), store)
    | .ok staged =>
      match staged.rename staging path with
      | .error e => (.error (.file path e), staged.remove staging)
      | .ok moved => (.ok (), moved)

/-- Weaves the module of an artifact file and keeps its symbol table. The file changes only if the
module was woven. -/
def FileStore.weaveArtifact (store : FileStore) (path : String) (options : WeaveOptions)
    (supply : IdSupply) : Except WeaveError WeaveOutcome × FileStore × IdSupply :=
  match store.read path with
  | .error e => (.error (.file path e), store, supply)
  | .ok bytes =>
    match Artifact.ofBytes bytes with
    | .error e => (.error (.artifact e), store, supply)
    | .ok artifact =>
      match artifact.module.weave options supply with
      | .error e => (.error e, store, supply)
      | .ok (.woven report, module, supply) =>
        match store.replace path { artifact with module }.toBytes with
        | (.error e, store) => (.error e, store, supply)
        | (.ok (), store) => (.ok (.woven report), store, supply)
      | .ok (outcome, _, _) => (.ok outcome, store, supply)

/-- The step for one unit. -/
def CompiledUnit.postCompile (u : CompiledUnit) (settings : Settings) (store : FileStore)
    (supply : IdSupply) : Except WeaveError StepOutcome × FileStore × IdSupply :=
  match u.skipReason? settings with
  | some reason => (.ok (.skipped reason), store, supply)
  | none =>
    let (outcome, store, supply) :=
      store.weaveArtifact u.artifactPath (settings.weaveOptions u.editorOnly) supply
    (outcome.map .processed, store, supply)

end Weaver
