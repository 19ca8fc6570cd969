import Weaver.Module.Basic

/-!
# Building modules by hand

Short names for the usual shapes of types and members, and one operation per thing that can be added
to them. Additions go to the end of their table. Identifiers come from the caller.
-/

namespace Weaver

/-! ## Modules -/

namespace Module

/-- Adds a reference. -/
def addReference (m : Module) (name : String) : Module :=
  { m with references := m.references ++ [name] }

/-- Adds the reference that makes a module weavable. -/
def addSupport (m : Module) : Module :=
  m.addReference supportModule

/-- Adds a type. -/
def addType (m : Module) (t : TypeDef) : Module :=
  { m with types := m.types ++ [t] }

end Module

/-! ## Types -/

namespace TypeDef

/-- A class without members that only its own members can use. -/
def newClass (id : Uuid) (name : String) : TypeDef :=
  { id, name }

/-- An interface without members: abstract, and usable from everywhere. -/
def newInterface (id : Uuid) (name : String) : TypeDef :=
  { id, name, kind := .interfaceType, isAbstract := true, visibility := .everywhere }

/-- Sets the visibility. -/
def withVisibility (t : TypeDef) (v : Visibility) : TypeDef :=
  { t with visibility := v }

/-- Makes the type abstract. -/
def asAbstract (t : TypeDef) : TypeDef :=
  { t with isAbstract := true }

/-- Sets the supertype. -/
def extending (t : TypeDef) (name : String) : TypeDef :=
  { t with supertype := some name }

/-- Adds an interface. -/
def implementing (t : TypeDef) (name : String) : TypeDef :=
  { t with interfaces := t.interfaces ++ [name] }

/-- Adds a field. -/
def addField (t : TypeDef) (f : Field) : TypeDef :=
  { t with fields := t.fields ++ [f] }

/-- Adds a constructor. -/
def addConstructor (t : TypeDef) (c : Method) : TypeDef :=
  { t with constructors := t.constructors ++ [c] }

/-- Adds a method. -/
def addMethod (t : TypeDef) (m : Method) : TypeDef :=
  { t with methods := t.methods ++ [m] }

end TypeDef

/-! ## Fields -/

namespace Field

/-- Sets the visibility. -/
def withVisibility (f : Field) (v : Visibility) : Field :=
  { f with visibility := v }

/-- Adds a marker. -/
def mark (f : Field) (marker : Marker) : Field :=
  { f with markers := f.markers ++ [marker] }

/-- A field that takes part in injection. -/
def injected (id : Uuid) (name ty : String) : Field :=
  { id, name, ty, markers := [.inject] }

end Field

/-! ## Methods -/

namespace Method

/-- A constructor without parameters or body. -/
def newConstructor (id : Uuid) : Method :=
  { id, name := constructorName }

/-- A static method without parameters or body. -/
def newStatic (id : Uuid) (name : String) : Method :=
  { id, name, isStatic := true }

/-- Sets the visibility. -/
def withVisibility (m : Method) (v : Visibility) : Method :=
  { m with visibility := v }

/-- Adds a parameter. -/
def addParam (m : Method) (name ty : String) : Method :=
  { m with params := m.params ++ [⟨name, ty⟩] }

/-- Sets the type of the result. -/
def returning (m : Method) (ty : String) : Method :=
  { m with returnType := some ty }

/-- Adds a marker. -/
def mark (m : Method) (marker : Marker) : Method :=
  { m with markers := m.markers ++ [marker] }

/-- Adds an instruction. -/
def addInstr (m : Method) (i : Instr) : Method :=
  { m with body := m.body ++ [i] }

/-- Replaces the body. -/
def withBody (m : Method) (body : List Instr) : Method :=
  { m with body := body }

/-- The instructions that store each parameter, `index` being the argument before the first of them,
into the field of its name. Argument indices are sixteen bits wide and wrap. -/
def assignments (owner : String) (index : UInt16) : List Parameter → List Instr
  | [] => []
  | p :: rest =>
    .loadArg 0 :: .loadArg (index + 1) :: .storeField owner p.name
      :: assignments owner (index + 1) rest

/-- A constructor that stores each parameter into the field of the same name. -/
def assigning (id : Uuid) (owner : String) (params : List Parameter) : Method :=
  { newConstructor id with params := params, body := assignments owner 0 params ++ [.ret] }

end Method

end Weaver
