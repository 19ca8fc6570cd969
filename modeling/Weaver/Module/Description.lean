import Weaver.Json.Basic
import Weaver.Module.Basic

/-!
# Modules as JSON

A description gives every record as an object whose members are the record's fields, or as an array
of them in order. Fields with a default may be left out, and members that the record does not know
are ignored. A variant without content is the text of its name, any other an object with the name as
its only key.

Identifiers that a description leaves out are drawn from a supply, in table order.
-/

namespace Weaver

namespace Description

/-- Reading draws identifiers from a supply; `none` when the description is refused. -/
abbrev Reader (α : Type) := StateT IdSupply Option α

/-- Refuses the description. -/
def refuse {α : Type} : Reader α := fun _ => none

/-- The next identifier of the supply. -/
def freshId : Reader Uuid := fun supply => some supply.draw

/-! ## Shapes of values -/

/-- A text. -/
def text : Json → Reader String
  | .text (some s) => pure s
  | _ => refuse

/-- A truth value. -/
def bool : Json → Reader Bool
  | .bool b => pure b
  | _ => refuse

/-- An integer between two bounds, the upper one excluded. -/
def intWithin (low high : Int) : Json → Reader Int
  | .num (.integer n) => if low ≤ n ∧ n < high then pure n else refuse
  | _ => refuse

/-- An integer of sixty-four bits with a sign. -/
def int64 (j : Json) : Reader Int64 :=
  Int64.ofInt <$> intWithin Int64.minValue.toInt (Int64.maxValue.toInt + 1) j

/-- A number of sixteen bits. -/
def uint16 (j : Json) : Reader UInt16 :=
  (UInt16.ofNat ∘ Int.toNat) <$> intWithin 0 UInt16.size j

/-- A number of thirty-two bits. -/
def uint32 (j : Json) : Reader UInt32 :=
  (UInt32.ofNat ∘ Int.toNat) <$> intWithin 0 UInt32.size j

/-- An identifier in one of its spellings. -/
def uuid (j : Json) : Reader Uuid := do
  match Uuid.ofText? (← text j) with
  | some id => pure id
  | none => refuse

/-- A sequence. -/
def list {α : Type} (item : Json → Reader α) : Json → Reader (List α)
  | .array items => items.mapM item
  | _ => refuse

/-- A value or null. -/
def nullable {α : Type} (value : Json → Reader α) : Json → Reader (Option α)
  | .null => pure none
  | j => some <$> value j

/-! ## Records -/

/-- The values of the members of a name, in order. -/
def valuesOf (members : List (Option String × Json)) (name : String) : List Json :=
  (members.filter (·.1 == some name)).map (·.2)

/-- The values of a record's fields, `none` for those left out. An object may not have an unreadable
key or the same field twice, an array no more items than the record has fields. -/
def record? (names : List String) : Json → Option (List (Option Json))
  | .object members =>
    if members.all (·.1.isSome) && names.all fun name => (valuesOf members name).length ≤ 1 then
      some (names.map fun name => (valuesOf members name).head?)
    else none
  | .array items =>
    if items.length ≤ names.length then
      some (items.map some ++ List.replicate (names.length - items.length) none)
    else none
  | _ => none

/-- A field that has to be given. -/
def required {α : Type} (value : Json → Reader α) : Option Json → Reader α
  | some j => value j
  | none => refuse

/-- A field that stands for its default when it is left out. -/
def defaulted {α : Type} (default : α) (value : Json → Reader α) : Option Json → Reader α
  | some j => value j
  | none => pure default

/-- An identifier that is drawn from the supply when it is left out. -/
def uuidOrFresh : Option Json → Reader Uuid
  | some j => uuid j
  | none => freshId

/-! ## Variants -/

/-- The name of a variant and its content. -/
def variant? : Json → Option (String × Option Json)
  | .text (some name) => some (name, none)
  | .object [(some name, content)] => some (name, some content)
  | _ => none

/-- A variant without content: its name alone, or with null as content. -/
def bare {α : Type} (value : α) : Option Json → Reader α
  | none | some .null => pure value
  | some _ => refuse

/-! ## Enumerations -/

/-- A visibility. -/
def visibility (j : Json) : Reader Visibility :=
  match variant? j with
  | some ("Private", content) => bare .ownType content
  | some ("Internal", content) => bare .ownModule content
  | some ("Public", content) => bare .everywhere content
  | _ => refuse

/-- A kind of type. -/
def typeKind (j : Json) : Reader TypeKind :=
  match variant? j with
  | some ("Class", content) => bare .classType content
  | some ("Interface", content) => bare .interfaceType content
  | _ => refuse

/-- A kind of registry entry. -/
def entryKind (j : Json) : Reader EntryKind :=
  match variant? j with
  | some ("Factory", content) => bare .factory content
  | some ("Injector", content) => bare .injector content
  | _ => refuse

/-- A marker. -/
def marker (j : Json) : Reader Marker :=
  match variant? j with
  | some ("Inject", content) => bare .inject content
  | some ("EditorLoadHook", content) => bare .editorLoadHook content
  | some ("RuntimeLoadHook", content) => bare .runtimeLoadHook content
  | some ("Custom", some tag) => Marker.custom <$> text tag
  | _ => refuse

/-- A constant. -/
def constant (j : Json) : Reader Constant :=
  match variant? j with
  | some ("Null", content) => bare .null content
  | some ("Bool", some b) => Constant.bool <$> bool b
  | some ("Int", some n) => Constant.int <$> int64 n
  | some ("Str", some s) => Constant.text <$> text s
  | _ => refuse

/-! ## Instructions -/

/-- The content of an instruction with two named operands. -/
def operands {α β γ : Type} (names : List String) (first : Json → Reader α)
    (second : Json → Reader β) (make : α → β → γ) (content : Json) : Reader γ :=
  match record? names content with
  | some [a, b] => do
    let a ← required first a
    let b ← required second b
    pure (make a b)
  | _ => refuse

/-- The content of an instruction with a type as its only operand. -/
def typeOperand (make : String → Instr) (content : Json) : Reader Instr :=
  match record? ["ty"] content with
  | some [ty] => make <$> required text ty
  | _ => refuse

/-- An instruction. -/
def instr (j : Json) : Reader Instr :=
  match variant? j with
  | some ("LoadArg", some n) => Instr.loadArg <$> uint16 n
  | some ("LoadConst", some c) => Instr.loadConst <$> constant c
  | some ("LoadField", some c) => operands ["owner", "field"] text text .loadField c
  | some ("StoreField", some c) => operands ["owner", "field"] text text .storeField c
  | some ("NewObj", some c) => operands ["owner", "ctor"] text uuid .newObject c
  | some ("Call", some c) => operands ["owner", "method"] text uuid .call c
  | some ("LoadMethod", some c) => operands ["owner", "method"] text uuid .loadMethod c
  | some ("Resolve", some c) => typeOperand .resolve c
  | some ("Register", some c) => operands ["kind", "ty"] entryKind text .register c
  | some ("Upcast", some c) => typeOperand .upcast c
  | some ("Print", content) => bare .print content
  | some ("Dup", content) => bare .dup content
  | some ("Pop", content) => bare .pop content
  | some ("Return", content) => bare .ret content
  | _ => refuse

/-! ## Members, types and modules -/

/-- A parameter. -/
def parameter (j : Json) : Reader Parameter :=
  match record? ["name", "ty"] j with
  | some [name, ty] => do
    let name ← required text name
    let ty ← required text ty
    pure { name, ty }
  | _ => refuse

/-- A field. -/
def field (j : Json) : Reader Field :=
  match record? ["id", "name", "ty", "visibility", "annotations"] j with
  | some [id, name, ty, vis, markers] => do
    let id ← uuidOrFresh id
    let name ← required text name
    let ty ← required text ty
    let vis ← defaulted .ownType visibility vis
    let markers ← defaulted [] (list marker) markers
    pure { id, name, ty, visibility := vis, markers }
  | _ => refuse

/-- A method or constructor. -/
def method (j : Json) : Reader Method :=
  match record? ["id", "name", "visibility", "is_static", "params", "return_type", "annotations",
      "body"] j with
  | some [id, name, vis, isStatic, params, returnType, markers, body] => do
    let id ← uuidOrFresh id
    let name ← required text name
    let vis ← defaulted .ownType visibility vis
    let isStatic ← defaulted false bool isStatic
    let params ← defaulted [] (list parameter) params
    let returnType ← defaulted none (nullable text) returnType
    let markers ← defaulted [] (list marker) markers
    let body ← defaulted [] (list instr) body
    pure { id, name, visibility := vis, isStatic, params, returnType, markers, body }
  | _ => refuse

/-- A type. -/
def typeDef (j : Json) : Reader TypeDef :=
  match record? ["id", "name", "visibility", "kind", "is_abstract", "supertype", "interfaces",
      "fields", "constructors", "methods"] j with
  | some [id, name, vis, kind, isAbstract, supertype, interfaces, fields, constructors,
      methods] => do
    let id ← uuidOrFresh id
    let name ← required text name
    let vis ← defaulted .ownType visibility vis
    let kind ← defaulted .classType typeKind kind
    let isAbstract ← defaulted false bool isAbstract
    let supertype ← defaulted none (nullable text) supertype
    let interfaces ← defaulted [] (list text) interfaces
    let fields ← defaulted [] (list field) fields
    let constructors ← defaulted [] (list method) constructors
    let methods ← defaulted [] (list method) methods
    pure { id, name, visibility := vis, kind, isAbstract, supertype, interfaces, fields,
           constructors, methods }
  | _ => refuse

/-- A weave stamp. -/
def stamp (j : Json) : Reader Stamp :=
  match record? ["tool_version", "source_hash", "factories", "injectors"] j with
  | some [toolVersion, sourceHash, factories, injectors] => do
    let toolVersion ← required text toolVersion
    let sourceHash ← required text sourceHash
    let factories ← required uint32 factories
    let injectors ← required uint32 injectors
    pure { toolVersion, sourceHash, factories, injectors }
  | _ => refuse

/-- A module. -/
def module (j : Json) : Reader Module :=
  match record? ["name", "references", "types", "stamp"] j with
  | some [name, references, types, mark] => do
    let name ← required text name
    let references ← defaulted [] (list text) references
    let types ← defaulted [] (list typeDef) types
    let mark ← defaulted none (nullable stamp) mark
    pure { name, references, types, stamp := mark }
  | _ => refuse

end Description

/-- The module that a description describes, and the supply without the identifiers it had to
draw. -/
def Module.ofJson? (j : Json) (supply : IdSupply) : Option (Module × IdSupply) :=
  Description.module j supply

/-! ## Writing -/

/-- The word for a visibility. -/
def Visibility.word : Visibility → String
  | ownType => "Private"
  | ownModule => "Internal"
  | everywhere => "Public"

/-- The word for a kind of type. -/
def TypeKind.word : TypeKind → String
  | classType => "Class"
  | interfaceType => "Interface"

/-- The word for a kind of registry entry, capitalised as descriptions have it. -/
def EntryKind.capitalized : EntryKind → String
  | factory => "Factory"
  | injector => "Injector"

namespace Description

/-- A variant with content. -/
def tagged (name : String) (content : Json) : Json :=
  .ofMembers [(name, content)]

/-- A text or null. -/
def optionalText : Option String → Json
  | some s => .str s
  | none => .null

end Description

open Description in
/-- The description of a marker. -/
def Marker.toJson : Marker → Json
  | inject => .str "Inject"
  | editorLoadHook => .str "EditorLoadHook"
  | runtimeLoadHook => .str "RuntimeLoadHook"
  | custom tag => tagged "Custom" (.str tag)

open Description in
/-- The description of a constant. -/
def Constant.toJson : Constant → Json
  | null => .str "Null"
  | bool b => tagged "Bool" (.bool b)
  | int n => tagged "Int" (.int n.toInt)
  | text s => tagged "Str" (.str s)

open Description in
/-- The description of an instruction. -/
def Instr.toJson : Instr → Json
  | loadArg n => tagged "LoadArg" (.int n.toNat)
  | loadConst c => tagged "LoadConst" c.toJson
  | loadField owner field =>
    tagged "LoadField" (.ofMembers [("owner", .str owner), ("field", .str field)])
  | storeField owner field =>
    tagged "StoreField" (.ofMembers [("owner", .str owner), ("field", .str field)])
  | newObject owner ctor =>
    tagged "NewObj" (.ofMembers [("owner", .str owner), ("ctor", .str ctor.toText)])
  | call owner method =>
    tagged "Call" (.ofMembers [("owner", .str owner), ("method", .str method.toText)])
  | loadMethod owner method =>
    tagged "LoadMethod" (.ofMembers [("owner", .str owner), ("method", .str method.toText)])
  | resolve ty => tagged "Resolve" (.ofMembers [("ty", .str ty)])
  | register kind ty =>
    tagged "Register" (.ofMembers [("kind", .str kind.capitalized), ("ty", .str ty)])
  | upcast ty => tagged "Upcast" (.ofMembers [("ty", .str ty)])
  | print => .str "Print"
  | dup => .str "Dup"
  | pop => .str "Pop"
  | ret => .str "Return"

/-- The description of a parameter. -/
def Parameter.toJson (p : Parameter) : Json :=
  .ofMembers [("name", .str p.name), ("ty", .str p.ty)]

/-- The description of a field. -/
def Field.toJson (f : Field) : Json :=
  .ofMembers
    [("id", .str f.id.toText), ("name", .str f.name), ("ty", .str f.ty),
     ("visibility", .str f.visibility.word), ("annotations", .array (f.markers.map Marker.toJson))]

/-- The description of a method or constructor. -/
def Method.toJson (m : Method) : Json :=
  .ofMembers
    [("id", .str m.id.toText), ("name", .str m.name), ("visibility", .str m.visibility.word),
     ("is_static", .bool m.isStatic), ("params", .array (m.params.map Parameter.toJson)),
     ("return_type", Description.optionalText m.returnType),
     ("annotations", .array (m.markers.map Marker.toJson)),
     ("body", .array (m.body.map Instr.toJson))]

/-- The description of a type. -/
def TypeDef.toJson (t : TypeDef) : Json :=
  .ofMembers
    [("id", .str t.id.toText), ("name", .str t.name), ("visibility", .str t.visibility.word),
     ("kind", .str t.kind.word), ("is_abstract", .bool t.isAbstract),
     ("supertype", Description.optionalText t.supertype),
     ("interfaces", .array (t.interfaces.map Json.str)),
     ("fields", .array (t.fields.map Field.toJson)),
     ("constructors", .array (t.constructors.map Method.toJson)),
     ("methods", .array (t.methods.map Method.toJson))]

/-- The description of a stamp. -/
def Stamp.toJson (s : Stamp) : Json :=
  .ofMembers
    [("tool_version", .str s.toolVersion), ("source_hash", .str s.sourceHash),
     ("factories", .int s.factories.toNat), ("injectors", .int s.injectors.toNat)]

/-- The description of a module, with every field given. -/
def Module.toJson (m : Module) : Json :=
  .ofMembers
    [("name", .str m.name), ("references", .array (m.references.map Json.str)),
     ("types", .array (m.types.map TypeDef.toJson)),
     ("stamp", match m.stamp with | some s => s.toJson | none => .null)]

end Weaver
