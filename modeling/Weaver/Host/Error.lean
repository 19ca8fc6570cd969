import Weaver.Module.Basic

/-!
# Host errors

What can go wrong while modules are loaded, code runs and containers resolve, by cause. An error
that embedding code raises carries its own wording where a cause would stand.
-/

namespace Weaver

/-- The most calls that may be active at once. -/
def maxCallDepth : Nat := 96

/-- The most types of a supertype chain that are looked at. -/
def maxHierarchyDepth : Nat := 64

/-- The most resolutions of one container that may be active at once. -/
def maxResolveDepth : Nat := 48

/-- What can go wrong with an instruction, within the method it belongs to. -/
inductive FrameFault where
  | noArgument (index : UInt16)
  | stackUnderflow
  | unknownType (ty : String)
  | foreignType (ty module : String)
  | undeclaredField (ty field : String)
  | missingField (ty owner field : String)
  | noConstructor (ty : String) (ctor : Uuid)
  | noMethod (ty : String) (method : Uuid)
  | notStatic (ty method : String)
  | inaccessible (visibility : Visibility) (ty member : String)
  | notAnObject (found : String)
  | notAContainer (ty : String)
  | notAMethod (kind : EntryKind) (ty : String)
  | cannotUpcast (found ty : String)
deriving DecidableEq

/-- The adjective for a visibility. -/
def Visibility.adjective : Visibility → String
  | ownType => "Private"
  | ownModule => "Internal"
  | everywhere => "Public"

/-- The wording of a fault. -/
def FrameFault.message : FrameFault → String
  | noArgument index => s!"no argument {index.toNat}"
  | stackUnderflow => "stack underflow"
  | unknownType ty => s!"unknown type '{ty}'"
  | foreignType ty module => s!"type '{ty}' is not accessible from module '{module}'"
  | undeclaredField ty field => s!"'{ty}' declares no field '{field}'"
  | missingField ty owner field => s!"'{ty}' has no field {owner}::{field}"
  | noConstructor ty ctor => s!"'{ty}' has no constructor {ctor}"
  | noMethod ty method => s!"'{ty}' has no method {method}"
  | notStatic ty method => s!"{ty}::{method} is not static"
  | inaccessible visibility ty member =>
    s!"{visibility.adjective} member {ty}::{member} is not accessible"
  | notAnObject found => s!"expected an object, found {found}"
  | notAContainer ty => s!"resolving '{ty}' needs a container"
  | notAMethod kind ty => s!"registering a {kind} for '{ty}' needs a method"
  | cannotUpcast found ty => s!"cannot upcast '{found}' to '{ty}'"

/-- What can go wrong while code runs. -/
inductive ExecutionFault where
  | unknownType (ty : String)
  | noMethodNamed (ty method : String)
  | noMember (ty : String) (member : Uuid)
  | noMethod (ty : String) (method : Uuid)
  | noConstructor (ty : String) (ctor : Uuid)
  | abstractType (ty : String)
  | hierarchyTooDeep (ty : String)
  | wrongArgumentCount (ty method : String) (expected got : Nat)
  | callTooDeep (ty method : String)
  | inFrame (ty method : String) (fault : FrameFault)
  | registerUnknownType (kind : EntryKind) (ty : String)
  | registerHiddenType (kind : EntryKind) (ty : String)
  | registerHiddenMethod (ty method : String)
  | registerWrongShape (kind : EntryKind) (ty method : String)
  | noFactoryResult (ty : String)
  | resolutionTooDeep (ty : String)
  | dependencyCycle (ty requested : String)
  | missingField (ty owner field : String)
  /-- Raised by embedding code. -/
  | external (message : String)
deriving DecidableEq

/-- The wording of a fault. -/
def ExecutionFault.message : ExecutionFault → String
  | unknownType ty => s!"unknown type '{ty}'"
  | noMethodNamed ty method => s!"'{ty}' has no method '{method}'"
  | noMember ty member => s!"'{ty}' has no member {member}"
  | noMethod ty method => s!"'{ty}' has no method {method}"
  | noConstructor ty ctor => s!"'{ty}' has no constructor {ctor}"
  | abstractType ty => s!"cannot instantiate abstract type '{ty}'"
  | hierarchyTooDeep ty => s!"supertype chain of '{ty}' is too deep"
  | wrongArgumentCount ty method expected got =>
    s!"{ty}::{method} expects {expected} argument(s), got {got}"
  | callTooDeep ty method => s!"call depth exceeded {maxCallDepth} in {ty}::{method}"
  | inFrame ty method fault => s!"{ty}::{method}: {fault.message}"
  | registerUnknownType kind ty => s!"cannot register a {kind} for unknown type '{ty}'"
  | registerHiddenType kind ty =>
    s!"type '{ty}' is not visible to the injection runtime; it must be public to register a {kind}"
  | registerHiddenMethod ty method =>
    s!"{ty}::{method} is not visible to the injection runtime"
  | registerWrongShape kind ty method => s!"{ty}::{method} does not have the shape of a {kind}"
  | noFactoryResult ty => s!"factory on '{ty}' returned no value"
  | resolutionTooDeep ty => s!"resolution of '{ty}' nested more than {maxResolveDepth} levels"
  | dependencyCycle ty requested =>
    s!"dependency cycle: '{ty}' is required while its binding for '{requested}' is still being "
      ++ "resolved"
  | missingField ty owner field => s!"'{ty}' has no field {owner}::{field}"
  | external message => message

/-- Why a type cannot be constructed. -/
inductive UnsupportedReason where
  | noFactory
  | notIntrospectable
  | notLoaded
  | noConstructor
  /-- Given by embedding code. -/
  | external (message : String)
deriving DecidableEq

/-- The wording of a reason. -/
def UnsupportedReason.message : UnsupportedReason → String
  | noFactory => "no factory registered; was its module woven?"
  | notIntrospectable => "no factory registered and the type cannot be introspected"
  | notLoaded => "type is not loaded"
  | noConstructor => "no constructor has parameters that can all be resolved"
  | external message => message

/-- Why a module cannot be loaded. -/
inductive LoadFault where
  | alreadyLoaded
  | typeDefined (ty : String)
  | wrongHookShape (ty method : String)
  /-- Given by embedding code. -/
  | external (message : String)
deriving DecidableEq

/-- The wording of a fault. -/
def LoadFault.message : LoadFault → String
  | alreadyLoaded => "module is already loaded"
  | typeDefined ty => s!"type '{ty}' is already defined"
  | wrongHookShape ty method =>
    s!"load hook {ty}::{method} must be static and take no parameters"
  | external message => message

/-- An error of a host. -/
inductive HostError where
  /-- A binding was resolved before it got a scope. -/
  | configuration (ty : String)
  | notFound (ty : String)
  | unsupported (ty : String) (reason : UnsupportedReason)
  | cast (requested actual : String)
  | duplicateRegistration (ty : String) (kind : EntryKind)
  | execution (fault : ExecutionFault)
  | load (module : String) (fault : LoadFault)
deriving DecidableEq

namespace HostError

/-- The wording of an error. -/
def message : HostError → String
  | configuration ty =>
    s!"Binding for '{ty}' has no scope; call as_singleton() or as_transient()"
  | notFound ty => s!"No binding found for '{ty}' or any of its supertypes"
  | unsupported ty reason => s!"Cannot construct '{ty}': {reason.message}"
  | cast requested actual => s!"Resolved instance of '{actual}' is not a '{requested}'"
  | duplicateRegistration ty kind => s!"Duplicate {kind} registration for '{ty}'"
  | execution fault => s!"Execution error: {fault.message}"
  | load module fault => s!"Cannot load module '{module}': {fault.message}"

/-- The errors that mean no more than that a value is not to be had. -/
def isRecoverable : HostError → Bool
  | notFound _ | cast .. => true
  | _ => false

end HostError

end Weaver
