import Weaver.Binary.Codec
import Weaver.Digest
import Weaver.Module.Basic

/-!
# The binary form of a module

Every record is written field after field in the order of its declaration, every variant behind its
position in the declaration. The digest of this form names the content of a module.
-/

namespace Weaver

open Codec

/-- Visibilities by position. -/
def Visibility.codec : Codec Visibility :=
  enumeration [.ownType, .ownModule, .everywhere] Visibility.rank

/-- Kinds of types by position. -/
def TypeKind.codec : Codec TypeKind :=
  enumeration [.classType, .interfaceType] fun
    | .classType => 0
    | .interfaceType => 1

/-- Kinds of registry entries by position. -/
def EntryKind.codec : Codec EntryKind :=
  enumeration [.factory, .injector] fun
    | .factory => 0
    | .injector => 1

/-- Markers; only a free tag has content. -/
def Marker.codec : Codec Marker where
  encode
    | .inject => index.encode 0
    | .editorLoadHook => index.encode 1
    | .runtimeLoadHook => index.encode 2
    | .custom tag => index.encode 3 ++ text.encode tag
  decode bytes := do
    let (i, rest) ← index.decode bytes
    match i with
    | 0 => some (.inject, rest)
    | 1 => some (.editorLoadHook, rest)
    | 2 => some (.runtimeLoadHook, rest)
    | 3 => wrap text .custom rest
    | _ => none

/-- Constants. -/
def Constant.codec : Codec Constant where
  encode
    | .null => index.encode 0
    | .bool b => index.encode 1 ++ Codec.bool.encode b
    | .int n => index.encode 2 ++ int64.encode n
    | .text s => index.encode 3 ++ Codec.text.encode s
  decode bytes := do
    let (i, rest) ← index.decode bytes
    match i with
    | 0 => some (.null, rest)
    | 1 => wrap Codec.bool .bool rest
    | 2 => wrap int64 .int rest
    | 3 => wrap Codec.text .text rest
    | _ => none

/-- Instructions. -/
def Instr.codec : Codec Instr where
  encode
    | .loadArg n => index.encode 0 ++ uint16.encode n
    | .loadConst c => index.encode 1 ++ Constant.codec.encode c
    | .loadField owner field => index.encode 2 ++ (text.pair text).encode (owner, field)
    | .storeField owner field => index.encode 3 ++ (text.pair text).encode (owner, field)
    | .newObject owner ctor => index.encode 4 ++ (text.pair uuid).encode (owner, ctor)
    | .call owner method => index.encode 5 ++ (text.pair uuid).encode (owner, method)
    | .loadMethod owner method => index.encode 6 ++ (text.pair uuid).encode (owner, method)
    | .resolve ty => index.encode 7 ++ text.encode ty
    | .register kind ty => index.encode 8 ++ (EntryKind.codec.pair text).encode (kind, ty)
    | .upcast ty => index.encode 9 ++ text.encode ty
    | .print => index.encode 10
    | .dup => index.encode 11
    | .pop => index.encode 12
    | .ret => index.encode 13
  decode bytes := do
    let (i, rest) ← index.decode bytes
    match i with
    | 0 => wrap uint16 .loadArg rest
    | 1 => wrap Constant.codec .loadConst rest
    | 2 => wrap (text.pair text) (fun (o, f) => .loadField o f) rest
    | 3 => wrap (text.pair text) (fun (o, f) => .storeField o f) rest
    | 4 => wrap (text.pair uuid) (fun (o, c) => .newObject o c) rest
    | 5 => wrap (text.pair uuid) (fun (o, m) => .call o m) rest
    | 6 => wrap (text.pair uuid) (fun (o, m) => .loadMethod o m) rest
    | 7 => wrap text .resolve rest
    | 8 => wrap (EntryKind.codec.pair text) (fun (k, t) => .register k t) rest
    | 9 => wrap text .upcast rest
    | 10 => some (.print, rest)
    | 11 => some (.dup, rest)
    | 12 => some (.pop, rest)
    | 13 => some (.ret, rest)
    | _ => none

/-- Parameters. -/
def Parameter.codec : Codec Parameter :=
  (text.pair text).map (fun (name, ty) => { name, ty }) fun p => (p.name, p.ty)

/-- Fields. -/
def Field.codec : Codec Field :=
  (uuid.pair (text.pair (text.pair (Visibility.codec.pair (list Marker.codec))))).map
    (fun (id, name, ty, visibility, markers) => { id, name, ty, visibility, markers })
    fun f => (f.id, f.name, f.ty, f.visibility, f.markers)

/-- Methods and constructors. -/
def Method.codec : Codec Method :=
  (uuid.pair (text.pair (Visibility.codec.pair (bool.pair ((list Parameter.codec).pair
    ((option text).pair ((list Marker.codec).pair (list Instr.codec)))))))).map
    (fun (id, name, visibility, isStatic, params, returnType, markers, body) =>
      { id, name, visibility, isStatic, params, returnType, markers, body })
    fun m => (m.id, m.name, m.visibility, m.isStatic, m.params, m.returnType, m.markers, m.body)

/-- Types. -/
def TypeDef.codec : Codec TypeDef :=
  (uuid.pair (text.pair (Visibility.codec.pair (TypeKind.codec.pair (bool.pair
    ((option text).pair ((list text).pair ((list Field.codec).pair ((list Method.codec).pair
      (list Method.codec)))))))))).map
    (fun (id, name, visibility, kind, isAbstract, supertype, interfaces, fields, constructors,
        methods) =>
      { id, name, visibility, kind, isAbstract, supertype, interfaces, fields, constructors,
        methods })
    fun t => (t.id, t.name, t.visibility, t.kind, t.isAbstract, t.supertype, t.interfaces,
      t.fields, t.constructors, t.methods)

/-- Stamps. -/
def Stamp.codec : Codec Stamp :=
  (text.pair (text.pair (uint32.pair uint32))).map
    (fun (toolVersion, sourceHash, factories, injectors) =>
      { toolVersion, sourceHash, factories, injectors })
    fun s => (s.toolVersion, s.sourceHash, s.factories, s.injectors)

/-- Modules. -/
def Module.codec : Codec Module :=
  (text.pair ((list text).pair ((list TypeDef.codec).pair (option Stamp.codec)))).map
    (fun (name, references, types, stamp) => { name, references, types, stamp })
    fun m => (m.name, m.references, m.types, m.stamp)

/-- The digest of a module's binary form. -/
def Module.digest (m : Module) : List UInt8 :=
  Digest.sha256 (Module.codec.encode m)

/-- The digest of a module as text. -/
def Module.hash (m : Module) : String :=
  Bytes.toHex m.digest

end Weaver
