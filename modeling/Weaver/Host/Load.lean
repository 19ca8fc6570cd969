import Weaver.Artifact
import Weaver.Host.Engine

/-!
# Using a host

Loading modules, and running code from outside of any module. Every operation here starts an engine
of enough levels for the limits on calls and resolutions to be reached first.
-/

namespace Weaver

/-- What loading a module did. -/
structure LoadReport where
  module : String
  types : Nat
  hooksRun : Nat
  /-- The factories that the hooks registered. -/
  factories : Nat
  /-- The injectors that the hooks registered. -/
  injectors : Nat
deriving DecidableEq

namespace Host

/-! ## Running code -/

/-- The levels that an engine needs on a host: one for every call and every resolution of each
container that may be active, and one to report that there are too many. -/
def levels (h : Host) : Nat :=
  maxCallDepth + maxResolveDepth * h.containers.size + 1

/-- Runs code with an engine of enough levels. -/
def withEngine {α : Type} (code : Engine → Run α) : Run α := do
  code (Engine.ofLevel (← get).levels)

/-- Calls the first method of a name. -/
def invoke (owner method : String) (args : List Value) : Run (Option Value) :=
  withEngine fun e => e.invoke owner method args

/-- Calls the member that a handle refers to. -/
def invokeHandle (handle : MethodHandle) (args : List Value) : Run (Option Value) :=
  withEngine fun e => e.invokeHandle handle args

/-- Makes an instance of a loaded class with one of its constructors. -/
def construct (ty : String) (ctor : Uuid) (args : List Value) : Run Value :=
  withEngine fun e => e.construct ty ctor args

/-- Resolves a type from a container. -/
def resolve (c : ContainerRef) (ty : String) : Run Value :=
  withEngine fun e => e.resolve c ty

/-- Resolves a type, or gives nothing when it is not to be had. -/
def tryResolve (c : ContainerRef) (ty : String) : Run (Option Value) :=
  withEngine fun e => e.tryResolve c ty

/-- Fills the fields of an object by the injector of its type. -/
def inject (c : ContainerRef) (value : Value) : Run Unit :=
  withEngine fun e => e.inject c value

/-- Fills the fields of an object, and tells whether everything they need was to be had. -/
def tryInject (c : ContainerRef) (value : Value) : Run Bool :=
  withEngine fun e => return (← (e.inject c value).orNone).isSome

/-- Finds the factory of a type and runs it. -/
def callFactory (c : ContainerRef) (ty : String) : Run Value :=
  withEngine fun e => do e.runFactory (← Run.factoryOf ty) c

/-- Finds the injector of a type and runs it; `false` when there is none. -/
def callInjector (c : ContainerRef) (ty : String) (value : Value) : Run Bool :=
  withEngine fun e => do
    match ← Run.injectorOf? ty with
    | none => return false
    | some injector =>
      e.runInjector injector value c
      return true

/-! ## Loading -/

/-- The load hooks of a type that a mode runs. The first load marker of a method decides, and
methods with one have to be static and without parameters even if they do not run. -/
def hooksOf (mode : HostMode) (ty : String) : List Method → Except LoadFault (List MethodHandle)
  | [] => .ok []
  | m :: rest =>
    match m.markers.find? Marker.isLoadHook with
    | none => hooksOf mode ty rest
    | some hook =>
      if !m.isStatic || !m.params.isEmpty then .error (.wrongHookShape ty m.name)
      else do
        let hooks ← hooksOf mode ty rest
        return if mode.runs hook then ⟨ty, m.id⟩ :: hooks else hooks

/-- The load hooks of types that are about to be loaded, none of which may have the name of another
or of a loaded type. -/
def plan (mode : HostMode) (loaded : Universe) : (seen : List String) → List TypeDef →
    Except LoadFault (List MethodHandle)
  | _, [] => .ok []
  | seen, t :: rest =>
    if seen.contains t.name || (loaded.find? t.name).isSome then .error (.typeDefined t.name)
    else do
      let hooks ← hooksOf mode t.name t.methods
      let more ← plan mode loaded (t.name :: seen) rest
      return hooks ++ more

/-- The host with the types of a module, whose hooks are still to run. -/
def addModule (h : Host) (m : Module) : Host :=
  { h with
    types := h.types ++ m.types.map fun t => { module := m.name, definition := t }
    modules := h.modules ++ [m.name] }

/-- Runs load hooks one after the other. -/
def runHooks (e : Engine) : List MethodHandle → Run Unit
  | [] => return
  | hook :: rest => do
    let _ ← e.invokeHandle hook []
    runHooks e rest

/-- Loads a module: adds its types, then runs its load hooks. A module that is refused changes
nothing; a hook that fails leaves the types. -/
def load (m : Module) : Run LoadReport := do
  let h ← get
  if h.isLoaded m.name then throw (.load m.name .alreadyLoaded)
  match plan h.config.mode h.types [] m.types with
  | .error fault => throw (.load m.name fault)
  | .ok hooks =>
    modify (·.addModule m)
    let before := (← get).registry
    withEngine fun e => runHooks e hooks
    let after := (← get).registry
    return {
      module := m.name
      types := m.types.length
      hooksRun := hooks.length
      factories := after.factories.length - before.factories.length
      injectors := after.injectors.length - before.injectors.length }

/-- Loads the module of an artifact. -/
def loadArtifact (a : Artifact) : Run LoadReport := load a.module

end Host

end Weaver
