import Weaver.Module.Basic

/-!
# Walking a module

The parts of a module in table order: a type comes before its members, a type's fields before its
constructors before its methods, and a method before its instructions. A walk may leave out what
lies below chosen parts.
-/

namespace Weaver

/-- A part of a module, with the parts that contain it. -/
inductive Node where
  | module (m : Module)
  | typeDef (t : TypeDef)
  | field (owner : TypeDef) (f : Field)
  | constructor (owner : TypeDef) (c : Method)
  | method (owner : TypeDef) (m : Method)
  | instr (owner : TypeDef) (m : Method) (i : Instr)
deriving DecidableEq

namespace Node

/-- The parts directly below a part. -/
def children : Node → List Node
  | module m => m.types.map typeDef
  | typeDef t =>
    t.fields.map (field t) ++ t.constructors.map (constructor t) ++ t.methods.map (method t)
  | field .. => []
  | constructor owner c => c.body.map (instr owner c)
  | method owner m => m.body.map (instr owner m)
  | instr .. => []

/-- A part and what lies below it to the given depth, without what lies below parts that are not
entered. -/
def walk (enter : Node → Bool) : (depth : Nat) → Node → List Node
  | 0, n => [n]
  | depth + 1, n => n :: if enter n then n.children.flatMap (walk enter depth) else []

end Node

/-- The parts of a module in table order, without what lies below parts that are not entered. An
instruction lies three levels below its module. -/
def Module.walk (enter : Node → Bool) (m : Module) : List Node :=
  Node.walk enter 3 (.module m)

end Weaver
