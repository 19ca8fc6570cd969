import Weaver.Uuid

/-!
# Compiled modules

A module is an ordered table of types. A type has tables of fields, constructors and methods, and
the members carry markers. A body is a list of instructions for a stack machine. The weaver extends
this tree, the host executes it.

Names and identifiers need not be unique: every lookup takes the first entry that matches.
-/

namespace Weaver

/-! ## Well-known names -/

/-- The root of all reference types. -/
def objectType : String := "object"

/-- The type of the container that synthesized methods receive. -/
def containerType : String := "Prewire.Container"

/-- The type of integers. -/
def intType : String := "int"

/-- The type of truth values. -/
def boolType : String := "bool"

/-- The type of texts. -/
def stringType : String := "string"

/-- The name that every constructor has. -/
def constructorName : String := ".ctor"

/-- The support module that modules refer to when they use the container. -/
def supportModule : String := "Prewire"

/-! ## Parts of a module -/

/-- From where a type or member may be used: its own type, its own module, everywhere. -/
inductive Visibility where
  | ownType
  | ownModule
  | everywhere
deriving DecidableEq, Inhabited

/-- Position in the order from the narrowest to the widest visibility. -/
def Visibility.rank : Visibility → Nat
  | ownType => 0
  | ownModule => 1
  | everywhere => 2

instance : LE Visibility := ⟨fun a b => a.rank ≤ b.rank⟩

instance (a b : Visibility) : Decidable (a ≤ b) :=
  inferInstanceAs (Decidable (a.rank ≤ b.rank))

/-- A type is a class or an interface. -/
inductive TypeKind where
  | classType
  | interfaceType
deriving DecidableEq, Inhabited

/-- A note on a member. -/
inductive Marker where
  /-- The constructor or field takes part in injection. -/
  | inject
  /-- The method runs when an editor host loads the module. -/
  | editorLoadHook
  /-- The method runs when any host loads the module. -/
  | runtimeLoadHook
  /-- A free tag. -/
  | custom (tag : String)
deriving DecidableEq, Inhabited

/-- The two markers that make a method run at load time. -/
def Marker.isLoadHook : Marker → Bool
  | editorLoadHook | runtimeLoadHook => true
  | _ => false

/-- A constant operand. -/
inductive Constant where
  | null
  | bool (b : Bool)
  | int (n : Int64)
  | text (s : String)
deriving DecidableEq, Inhabited

/-- The two tables of a registry: builders of instances, and fillers of their fields. -/
inductive EntryKind where
  | factory
  | injector
deriving DecidableEq, Inhabited

/-- The word for an entry of the table. -/
def EntryKind.word : EntryKind → String
  | factory => "factory"
  | injector => "injector"

instance : ToString EntryKind := ⟨EntryKind.word⟩

/-- An instruction of the stack machine. -/
inductive Instr where
  /-- Push an argument. -/
  | loadArg (index : UInt16)
  /-- Push a constant. -/
  | loadConst (value : Constant)
  /-- Pop an object, push the value of one of its fields. -/
  | loadField (owner field : String)
  /-- Pop a value, then an object, and put the value into one of its fields. -/
  | storeField (owner field : String)
  /-- Pop the arguments of a constructor, push the new instance. -/
  | newObject (owner : String) (ctor : Uuid)
  /-- Pop the arguments of a method, receiver first, push its result if it has one. -/
  | call (owner : String) (method : Uuid)
  /-- Push a reference to a static method. -/
  | loadMethod (owner : String) (method : Uuid)
  /-- Pop a container, push the instance it resolves. -/
  | resolve (ty : String)
  /-- Pop a method reference and register it for a type. -/
  | register (kind : EntryKind) (ty : String)
  /-- Check that the top of the stack is null or conforms to a type. -/
  | upcast (ty : String)
  /-- Pop a value and write its text to the output. -/
  | print
  /-- Push the top of the stack once more. -/
  | dup
  /-- Pop a value. -/
  | pop
  /-- End the body. -/
  | ret
deriving DecidableEq, Inhabited

/-- A parameter of a method. -/
structure Parameter where
  name : String
  ty : String
deriving DecidableEq, Inhabited

/-- A field of a type. -/
structure Field where
  id : Uuid
  name : String
  ty : String
  visibility : Visibility := .ownType
  markers : List Marker := []
deriving DecidableEq, Inhabited

/-- A method or constructor. One that is not static receives its object as first argument. -/
structure Method where
  id : Uuid
  name : String
  visibility : Visibility := .ownType
  isStatic : Bool := false
  params : List Parameter := []
  returnType : Option String := none
  markers : List Marker := []
  body : List Instr := []
deriving DecidableEq, Inhabited

/-- A type with its member tables. -/
structure TypeDef where
  id : Uuid
  name : String
  visibility : Visibility := .ownType
  kind : TypeKind := .classType
  isAbstract : Bool := false
  supertype : Option String := none
  interfaces : List String := []
  fields : List Field := []
  constructors : List Method := []
  methods : List Method := []
deriving DecidableEq, Inhabited

/-- What a weave leaves on the module: who wove it, the digest of what it was before, and how many
entries it registers. -/
structure Stamp where
  toolVersion : String
  sourceHash : String
  factories : UInt32
  injectors : UInt32
deriving DecidableEq, Inhabited

/-- A compiled unit. -/
structure Module where
  name : String
  /-- The modules that this one refers to, directly or not. -/
  references : List String := []
  types : List TypeDef := []
  stamp : Option Stamp := none
deriving DecidableEq, Inhabited

/-! ## Lookups -/

/-- A field that takes part in injection. -/
def Field.isMarked (f : Field) : Bool :=
  f.markers.contains .inject

namespace Method

/-- A constructor that takes part in injection. -/
def isMarked (m : Method) : Bool :=
  m.markers.contains .inject

/-- Constructors are known by their name. -/
def isConstructor (m : Method) : Bool :=
  m.name == constructorName

/-- The number of stack values that a call consumes, the receiver included. -/
def arity (m : Method) : Nat :=
  m.params.length + if m.isStatic then 0 else 1

end Method

namespace TypeDef

/-- Interfaces are never constructed. -/
def isInterface (t : TypeDef) : Bool :=
  t.kind == .interfaceType

/-- The first field of a name. -/
def field? (t : TypeDef) (name : String) : Option Field :=
  t.fields.find? (·.name == name)

/-- The first constructor of an identifier. -/
def constructor? (t : TypeDef) (id : Uuid) : Option Method :=
  t.constructors.find? (·.id == id)

/-- The first method of an identifier. -/
def method? (t : TypeDef) (id : Uuid) : Option Method :=
  t.methods.find? (·.id == id)

/-- The first method of a name. -/
def methodNamed? (t : TypeDef) (name : String) : Option Method :=
  t.methods.find? (·.name == name)

/-- A member by identifier: constructors come before methods. -/
def member? (t : TypeDef) (id : Uuid) : Option Method :=
  (t.constructor? id).or (t.method? id)

/-- Whether a method or field has this name. -/
def hasMemberNamed (t : TypeDef) (name : String) : Bool :=
  t.methods.any (·.name == name) || t.fields.any (·.name == name)

/-- The fields that take part in injection, in table order. -/
def markedFields (t : TypeDef) : List Field :=
  t.fields.filter Field.isMarked

/-- The first constructor that takes part in injection. -/
def markedConstructor? (t : TypeDef) : Option Method :=
  t.constructors.find? Method.isMarked

end TypeDef

namespace Module

/-- The first type of a name. -/
def typeNamed? (m : Module) (name : String) : Option TypeDef :=
  m.types.find? (·.name == name)

/-- Whether a module is among the references. -/
def refersTo (m : Module) (name : String) : Bool :=
  m.references.contains name

end Module

/-! ## Declared identifiers -/

/-- The identifiers of a type and of its fields, constructors and methods, in this order. -/
def TypeDef.ids (t : TypeDef) : List Uuid :=
  t.id :: (t.fields.map (·.id) ++ t.constructors.map (·.id) ++ t.methods.map (·.id))

/-- The identifiers that a module declares, in table order. -/
def Module.ids (m : Module) : List Uuid :=
  m.types.flatMap TypeDef.ids

/-! ## Renaming of identifiers -/

/-- Renames the member that an instruction refers to. -/
def Instr.mapIds (f : Uuid → Uuid) : Instr → Instr
  | newObject owner ctor => newObject owner (f ctor)
  | call owner method => call owner (f method)
  | loadMethod owner method => loadMethod owner (f method)
  | i => i

/-- Renames a method and the members its body refers to. -/
def Method.mapIds (f : Uuid → Uuid) (m : Method) : Method :=
  { m with id := f m.id, body := m.body.map (Instr.mapIds f) }

/-- Renames a type, its members and the members its bodies refer to. -/
def TypeDef.mapIds (f : Uuid → Uuid) (t : TypeDef) : TypeDef :=
  { t with
    id := f t.id
    fields := t.fields.map fun field => { field with id := f field.id }
    constructors := t.constructors.map (Method.mapIds f)
    methods := t.methods.map (Method.mapIds f) }

/-- Renames every identifier of a module, declared or referred to. -/
def Module.mapIds (f : Uuid → Uuid) (m : Module) : Module :=
  { m with types := m.types.map (TypeDef.mapIds f) }

end Weaver
