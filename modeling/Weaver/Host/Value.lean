import Weaver.Module.Basic

/-!
# Values

What code on a host computes with. Objects and containers are references, so that copies of a value
share what they refer to; everything else is the value itself.
-/

namespace Weaver

/-- A reference to an object of a host. -/
structure ObjectRef where
  index : Nat
deriving DecidableEq, Inhabited

/-- A reference to a container of a host. -/
structure ContainerRef where
  index : Nat
deriving DecidableEq, Inhabited

/-- A reference to a binding of a host. -/
structure BindingRef where
  index : Nat
deriving DecidableEq, Inhabited

/-- A method of a loaded type. -/
structure MethodHandle where
  owner : String
  method : Uuid
deriving DecidableEq, Inhabited

/-- A value. -/
inductive Value where
  | null
  | bool (b : Bool)
  | int (n : Int64)
  | text (s : String)
  | object (ref : ObjectRef)
  | method (handle : MethodHandle)
  | container (ref : ContainerRef)
deriving DecidableEq, Inhabited

namespace Value

/-- The value of a constant. -/
def ofConstant : Constant → Value
  | .null => null
  | .bool b => bool b
  | .int n => int n
  | .text s => text s

/-- The value of a field that was never stored into. -/
def defaultOf (ty : String) : Value :=
  if ty = intType then int 0
  else if ty = boolType then bool false
  else null

/-- The integer that a value is. -/
def asInt? : Value → Option Int64
  | int n => some n
  | _ => none

/-- Whether a value is null. -/
def isNull (v : Value) : Bool := v == null

/-- Identity for objects and containers, equality for everything else. -/
def same (a b : Value) : Bool := a == b

end Value

end Weaver
