import Weaver.Module.Basic

/-!
# Host modes

Which load hooks a host honours.
-/

namespace Weaver

/-- A host runs inside an editor or as the deployed program. -/
inductive HostMode where
  | editor
  | player
deriving DecidableEq, Inhabited

namespace HostMode

/-- Runtime hooks run everywhere, editor hooks in editors only. Other markers are no hooks. -/
def runs (mode : HostMode) : Marker → Bool
  | .runtimeLoadHook => true
  | .editorLoadHook => mode == .editor
  | _ => false

/-- The name of a mode. -/
def word : HostMode → String
  | editor => "Editor"
  | player => "Player"

end HostMode

/-- How a host is set up. -/
structure HostConfig where
  mode : HostMode := .player
  /-- Missing registry entries are made from the loaded types. -/
  fallback : Bool := false
deriving DecidableEq, Inhabited

end Weaver
