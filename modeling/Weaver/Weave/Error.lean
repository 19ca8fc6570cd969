import Weaver.Artifact
import Weaver.Files.Error

/-!
# Why a weave fails

Every error leaves the module, and the artifact it came from, as they were.
-/

namespace Weaver

/-- A target that the module's tables do not bear out. -/
inductive Mismatch where
  | unknownType (ty : String)
  | unknownConstructor (ctor : Uuid) (ty : String)
  | unknownField (field ty : String)
deriving DecidableEq

/-- The wording of a mismatch. -/
def Mismatch.message : Mismatch → String
  | unknownType ty => s!"scanned type '{ty}' is not in the type table"
  | unknownConstructor ctor ty =>
    s!"selected constructor {ctor} of '{ty}' is not in its constructor table"
  | unknownField field ty => s!"marked field '{field}' of '{ty}' is not in its field table"

/-- What is wrong with the settings. -/
inductive SettingsFault where
  /-- The settings file cannot be read as one. -/
  | unreadable
  | emptySupportModule
  | registrarNotAName (name : String)
  | fallbackNotATruthValue (text : String)
deriving DecidableEq

/-- The wording of a settings fault. -/
def SettingsFault.message : SettingsFault → String
  | unreadable => "invalid prewire.toml"
  | emptySupportModule => "weave.runtime_module must not be empty"
  | registrarNotAName name => s!"weave.registrar_name '{name}' is not a simple identifier"
  | fallbackNotATruthValue text => s!"PREWIRE_FALLBACK: expected a boolean, got '{text}'"

/-- A fault that ends a weave. -/
inductive WeaveError where
  | file (path : String) (error : FileError)
  | artifact (error : ArtifactError)
  | mismatch (cause : Mismatch)
  /-- A member to be added has a name that is taken. -/
  | nameCollision (ty member : String)
  /-- A fault in the settings, with the settings file if they come from one. -/
  | settings (fault : SettingsFault) (path : Option String)
deriving DecidableEq

namespace WeaveError

/-- The wording of an error. -/
def message : WeaveError → String
  | file path error => s!"IO error on '{path}': {error.message}"
  | artifact error => s!"Artifact error: {error.message}"
  | mismatch cause => s!"Internal weaver error: {cause.message}"
  | nameCollision ty member =>
    s!"Cannot synthesize '{member}' on '{ty}': a member with that name already exists"
  | settings fault _ => s!"Config error: {fault.message}"

/-- The lines that report an error to the user of the command line. -/
def report (module : String) : WeaveError → List String
  | settings fault (some path) => [s!"error[config]: {fault.message}", s!"  --> {path}"]
  | mismatch cause =>
    [s!"error[weave {module}]: internal error: {cause.message}",
     "  note: this is a bug in the weaver, the module was left unchanged"]
  | error => [s!"error[weave {module}]: {error.message}"]

end WeaveError

end Weaver
