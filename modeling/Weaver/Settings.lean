import Weaver.Files.Store
import Weaver.Host.Mode
import Weaver.Text.Blank
import Weaver.Toml.Reader
import Weaver.Weave.Basic

/-!
# Settings

A project may have a settings file next to its build output. Everything in it has a default, and
nothing else may stand in it. One setting can be overridden from the environment.
-/

namespace Weaver

/-- The name of the settings file. -/
def settingsFile : String := "prewire.toml"

/-- The environment variable that overrides the fallback setting. -/
def fallbackVariable : String := "PREWIRE_FALLBACK"

/-- The settings of a project. -/
structure Settings where
  /-- The module that holds the container. It is not woven, and only modules that refer to it
  are. -/
  supportModule : String := Weaver.supportModule
  /-- The registrar's name within a module. -/
  registrarName : String := defaultRegistrarName
  /-- Missing registry entries are made from the loaded types. -/
  fallback : Bool := false
  mode : HostMode := .player
deriving DecidableEq, Inhabited

namespace Settings

/-! ## Reading -/

/-- The values of a record's fields, `none` for those left out. A table may have no other keys, an
array gives the fields in order, and what it holds beyond them is ignored. -/
def record? (names : List String) : Toml.Value → Option (List (Option Toml.Value))
  | .table _ entries =>
    if entries.all fun entry => names.contains entry.1 then
      some (names.map (Toml.find? entries))
    else none
  | .array items =>
    some ((items.take names.length).map some ++ List.replicate (names.length - items.length) none)
  | _ => none

/-- A setting that stands for its default when it is left out. -/
def defaulted {α : Type} (default : α) (value? : Toml.Value → Option α) :
    Option Toml.Value → Option α
  | some v => value? v
  | none => some default

/-- A text. -/
def text? : Toml.Value → Option String
  | .text s => some s
  | _ => none

/-- A truth value. -/
def bool? : Toml.Value → Option Bool
  | .bool b => some b
  | _ => none

/-- The mode of a name. -/
def modeNamed? : String → Option HostMode
  | "editor" => some .editor
  | "player" => some .player
  | _ => none

/-- A mode: its name, or a table with the name as only key and nothing in it. -/
def mode? : Toml.Value → Option HostMode
  | .text name => modeNamed? name
  | .table _ [(name, .table _ [])] => modeNamed? name
  | .table _ [(name, .array [])] => modeNamed? name
  | _ => none

/-- The settings of the section for weaving. -/
def weaveSection? (s : Settings) (v : Toml.Value) : Option Settings :=
  match record? ["runtime_module", "registrar_name"] v with
  | some [supportModule, registrarName] => do
    let supportModule ← defaulted s.supportModule text? supportModule
    let registrarName ← defaulted s.registrarName text? registrarName
    return { s with supportModule, registrarName }
  | _ => none

/-- The settings of the section for hosts. -/
def hostSection? (s : Settings) (v : Toml.Value) : Option Settings :=
  match record? ["introspection_fallback", "mode"] v with
  | some [fallback, mode] => do
    let fallback ← defaulted s.fallback bool? fallback
    let mode ← defaulted s.mode mode? mode
    return { s with fallback, mode }
  | _ => none

/-- The settings that a document gives. -/
def ofEntries? (entries : Toml.Entries) : Option Settings :=
  match record? ["weave", "runtime"] (.table .header entries) with
  | some [weave, host] => do
    let s : Settings := {}
    let s ← match weave with
      | some v => s.weaveSection? v
      | none => some s
    match host with
    | some v => s.hostSection? v
    | none => some s
  | _ => none

/-! ## Checks -/

/-- A character of a simple name. -/
def isNameChar (c : Char) : Bool := c.isAlphanum || c == '_'

/-- The support module has to have a name, the registrar a simple one. -/
def fault? (s : Settings) : Option SettingsFault :=
  if (Text.trim s.supportModule).isEmpty then some .emptySupportModule
  else if s.registrarName.isEmpty || !s.registrarName.toList.all isNameChar then
    some (.registrarNotAName s.registrarName)
  else none

/-- Reads and checks the text of a settings file; the path is for error reports. -/
def ofText (text : String) (path : Option String) : Except WeaveError Settings :=
  match (Toml.ofText? text).bind ofEntries? with
  | none => .error (.settings .unreadable path)
  | some s =>
    match s.fault? with
    | some fault => .error (.settings fault path)
    | none => .ok s

/-! ## Files and environment -/

/-- The truth value that an override spells: one of nine words in any case, blanks around them
aside. -/
def overrideValue? (text : String) : Option Bool :=
  let word := Text.asciiLower (Text.trim text)
  if ["1", "true", "yes", "on"].contains word then some true
  else if ["0", "false", "no", "off", ""].contains word then some false
  else none

/-- Applies the override from the environment, if there is one. -/
def withOverride (s : Settings) : Option String → Except WeaveError Settings
  | none => .ok s
  | some text =>
    match overrideValue? text with
    | some fallback => .ok { s with fallback }
    | none =>
      .error (.settings (.fallbackNotATruthValue (Text.asciiLower (Text.trim text))) none)

/-- Reads a settings file. -/
def load (store : FileStore) (path : String) : Except WeaveError Settings :=
  match store.read path with
  | .error e => .error (.file path e)
  | .ok bytes =>
    match Bytes.toText? bytes with
    | none => .error (.file path .notText)
    | some text => ofText text (some path)

/-- The settings of a directory: those of its settings file if it has one, the defaults otherwise,
with the override from the environment. -/
def discover (store : FileStore) (directory : String) (override : Option String) :
    Except WeaveError Settings := do
  let candidate := Path.join directory settingsFile
  let s ← if store.isFile candidate then load store candidate else .ok {}
  s.withOverride override

/-! ## Uses -/

/-- The set-up of a host. -/
def hostConfig (s : Settings) : HostConfig :=
  { mode := s.mode, fallback := s.fallback }

/-- The options of a weave. -/
def weaveOptions (s : Settings) (editorOnly : Bool) : WeaveOptions :=
  { editorOnly, registrarName := s.registrarName }

end Settings

end Weaver
