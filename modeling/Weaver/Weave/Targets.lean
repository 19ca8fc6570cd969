import Weaver.Module.Basic

/-!
# Targets of a weave

Which types a weave serves. A type with a marked constructor gets a factory unless it is abstract, a
type with marked fields gets an injector. Interfaces and the registrar type get neither, and markers
on methods have no effect.
-/

namespace Weaver

/-- A type that gets a factory, and the constructor that the factory runs. -/
structure ConstructorTarget where
  ty : String
  ctor : Uuid
deriving DecidableEq

/-- A type that gets an injector, and the fields that the injector fills, in table order. -/
structure FieldTarget where
  ty : String
  fields : List String
deriving DecidableEq

/-- The targets of a module in the order of its types. -/
structure Targets where
  constructable : List ConstructorTarget
  injectable : List FieldTarget
deriving DecidableEq

namespace TypeDef

/-- The first marked constructor of a type that can be constructed. -/
def constructorTarget? (t : TypeDef) : Option ConstructorTarget :=
  if t.isInterface || t.isAbstract then none
  else t.markedConstructor?.map fun c => ⟨t.name, c.id⟩

/-- The marked fields of a type that has any. -/
def fieldTarget? (t : TypeDef) : Option FieldTarget :=
  if t.isInterface || t.markedFields.isEmpty then none
  else some ⟨t.name, t.markedFields.map (·.name)⟩

end TypeDef

/-- The targets of a module whose registrar type has the given name. -/
def Module.targets (m : Module) (registrar : String) : Targets :=
  let types := m.types.filter (·.name != registrar)
  { constructable := types.filterMap TypeDef.constructorTarget?
    injectable := types.filterMap TypeDef.fieldTarget? }

/-- Whether there is nothing to weave. -/
def Targets.isEmpty (t : Targets) : Bool :=
  t.constructable.isEmpty && t.injectable.isEmpty

end Weaver
