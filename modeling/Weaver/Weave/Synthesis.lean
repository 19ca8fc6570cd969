import Weaver.Module.Build
import Weaver.Weave.Error
import Weaver.Weave.Targets

/-!
# Synthesized members

A factory is a static method that takes a container, resolves the parameters of a constructor in
order and runs it. An injector is a static method that takes an instance and a container and puts a
resolved value into each marked field in order. Both are public, so is every member they touch, and
so becomes the type they are added to: the registrar has to reach them.
-/

namespace Weaver

/-- The name of a synthesized factory. -/
def factoryName : String := "__prewire_create"

/-- The name of a synthesized injector. -/
def injectorName : String := "__prewire_inject"

/-- The tag on every synthesized member. -/
def generatedMarker : Marker := .custom "prewire.generated"

/-- A synthesized method and the type it was added to. -/
structure Synthesized where
  ty : String
  method : Uuid
deriving DecidableEq

/-! ## First matches -/

/-- Changes the first element that satisfies a condition. -/
def updateFirst {α : Type} (p : α → Bool) (f : α → α) : List α → List α
  | [] => []
  | a :: rest => if p a then f a :: rest else a :: updateFirst p f rest

/-- Changes the first type of a name. -/
def Module.updateType (m : Module) (name : String) (f : TypeDef → TypeDef) : Module :=
  { m with types := updateFirst (·.name == name) f m.types }

/-! ## Factories -/

/-- Resolves each parameter from the container in argument zero. -/
def resolveParams (params : List Parameter) : List Instr :=
  params.flatMap fun p => [.loadArg 0, .resolve p.ty]

/-- The factory that runs a constructor of a type. -/
def factoryMethod (id : Uuid) (ty : String) (ctor : Method) : Method :=
  { id
    name := factoryName
    visibility := .everywhere
    isStatic := true
    params := [⟨"container", containerType⟩]
    returnType := some objectType
    markers := [generatedMarker]
    body := resolveParams ctor.params ++ [.newObject ty ctor.id, .upcast objectType, .ret] }

/-- Makes the first constructor of an identifier public. -/
def TypeDef.exposeConstructor (t : TypeDef) (ctor : Uuid) : TypeDef :=
  { t with
    constructors := updateFirst (·.id == ctor) (·.withVisibility .everywhere) t.constructors }

/-- Adds a method to a type and makes the type public. -/
def TypeDef.addSynthesized (t : TypeDef) (m : Method) : TypeDef :=
  (t.withVisibility .everywhere).addMethod m

/-- Adds the factory of a target. A failure changes nothing. -/
def Module.addFactory (m : Module) (target : ConstructorTarget) (id : Uuid) :
    Except WeaveError Module :=
  match m.typeNamed? target.ty with
  | none => .error (.mismatch (.unknownType target.ty))
  | some t =>
    if t.hasMemberNamed factoryName then .error (.nameCollision t.name factoryName)
    else match t.constructor? target.ctor with
      | none => .error (.mismatch (.unknownConstructor target.ctor target.ty))
      | some ctor =>
        .ok (m.updateType target.ty fun t =>
          (t.exposeConstructor target.ctor).addSynthesized (factoryMethod id target.ty ctor))

/-! ## Injectors -/

/-- Resolves a field's type from the container in argument one and stores it in argument zero. -/
def assignField (ty : String) (f : Field) : List Instr :=
  [.loadArg 0, .loadArg 1, .resolve f.ty, .storeField ty f.name]

/-- The injector that fills the given fields of a type. -/
def injectorMethod (id : Uuid) (ty : String) (fields : List Field) : Method :=
  { id
    name := injectorName
    visibility := .everywhere
    isStatic := true
    params := [⟨"instance", ty⟩, ⟨"container", containerType⟩]
    markers := [generatedMarker]
    body := fields.flatMap (assignField ty) ++ [.ret] }

/-- Makes the first field of a name public. -/
def TypeDef.exposeField (t : TypeDef) (name : String) : TypeDef :=
  { t with fields := updateFirst (·.name == name) (·.withVisibility .everywhere) t.fields }

/-- Makes fields public one after the other up to the first name that no field has. The result is
the type so far and, if every name was found, the first field of each. -/
def TypeDef.exposeFields (t : TypeDef) : List String → TypeDef × Except String (List Field)
  | [] => (t, .ok [])
  | name :: rest =>
    match t.field? name with
    | none => (t, .error name)
    | some f =>
      let (t, fields) := (t.exposeField name).exposeFields rest
      (t, fields.map (f :: ·))

/-- Adds the injector of a target. The fields before the first unknown one stay public after a
failure. -/
def Module.addInjector (m : Module) (target : FieldTarget) (id : Uuid) :
    Module × Except WeaveError Unit :=
  match m.typeNamed? target.ty with
  | none => (m, .error (.mismatch (.unknownType target.ty)))
  | some t =>
    if t.hasMemberNamed injectorName then (m, .error (.nameCollision t.name injectorName))
    else match t.exposeFields target.fields with
      | (exposed, .error name) =>
        (m.updateType target.ty fun _ => exposed,
          .error (.mismatch (.unknownField name target.ty)))
      | (exposed, .ok fields) =>
        (m.updateType target.ty fun _ =>
          exposed.addSynthesized (injectorMethod id target.ty fields), .ok ())

end Weaver
