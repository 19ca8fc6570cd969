import Weaver.Module.Binary

/-!
# Artifacts

An artifact is the file form of a module: a header of sixteen bytes and two sections, each behind
its length. The header holds four magic bytes, the version of the format and the offsets of the
sections. The first section maps members to source lines and is opaque to weaving, the second is the
module.
-/

namespace Weaver

/-- Where a member comes from. -/
structure SymbolEntry where
  member : Uuid
  file : String
  line : UInt32
deriving DecidableEq, Inhabited

/-- A module with its symbol table. -/
structure Artifact where
  module : Module
  symbols : List SymbolEntry := []
deriving DecidableEq, Inhabited

/-- Why bytes are not an artifact. -/
inductive ArtifactError where
  | invalidMagic
  | unsupportedVersion (version : Nat)
  /-- Fewer bytes than a header or section takes. -/
  | truncated (expected got : Nat)
  /-- A section's bytes are not what the section should hold. -/
  | undecodable
deriving DecidableEq

namespace Artifact

/-! ## Layout -/

/-- The bytes that every artifact starts with. -/
def magic : List UInt8 := "PWMD".toList.map fun c => c.toNat.toUInt8

/-- The version of the format. -/
def version : Nat := 1

/-- The size of the header. -/
def headerSize : Nat := 16

/-- The place of the symbol section's offset in the header. -/
def symbolsSlot : Nat := 8

/-- The place of the module section's offset in the header. -/
def moduleSlot : Nat := 12

end Artifact

/-- The wording of an error. -/
def ArtifactError.message : ArtifactError → String
  | invalidMagic => "invalid magic number: expected PWMD"
  | unsupportedVersion v => s!"unsupported schema version {v} (expected {Artifact.version})"
  | truncated expected got => s!"truncated file: expected at least {expected} bytes, got {got}"
  | undecodable => "bincode decode error"

/-- Symbol entries. -/
def SymbolEntry.codec : Codec SymbolEntry :=
  (Codec.uuid.pair (Codec.text.pair Codec.uint32)).map
    (fun (member, file, line) => { member, file, line }) fun e => (e.member, e.file, e.line)

namespace Artifact

/-- Symbol tables. -/
def symbolsCodec : Codec (List SymbolEntry) := Codec.list SymbolEntry.codec

/-! ## Writing -/

/-- A word of four bytes, lowest first. -/
def word (n : Nat) : List UInt8 := Bytes.ofNat 4 n

/-- A section behind its length. -/
def sectionBytes (content : List UInt8) : List UInt8 := word content.length ++ content

/-- The bytes of an artifact: the header, the symbol section, the module section. -/
def toBytes (a : Artifact) : List UInt8 :=
  let symbols := sectionBytes (symbolsCodec.encode a.symbols)
  let module := sectionBytes (Module.codec.encode a.module)
  magic ++ word version ++ word headerSize ++ word (headerSize + symbols.length) ++ symbols
    ++ module

/-! ## Reading -/

/-- The word of four bytes at an offset. -/
def wordAt (data : List UInt8) (offset : Nat) : Except ArtifactError Nat :=
  let bytes := (data.drop offset).take 4
  if bytes.length = 4 then .ok (Bytes.toNat bytes)
  else .error (.truncated (offset + 4) data.length)

/-- Whether bytes start as an artifact does. -/
def isArtifact (data : List UInt8) : Bool :=
  data.take 4 == magic

/-- Checks the size of the header, the magic bytes and the version, in this order. -/
def checkHeader (data : List UInt8) : Except ArtifactError Unit := do
  if data.length < headerSize then throw (.truncated headerSize data.length)
  if !isArtifact data then throw .invalidMagic
  let v ← wordAt data 4
  if v ≠ version then throw (.unsupportedVersion v)

/-- Reads the section whose offset is in the given place of the header. What the section holds after
the value is ignored. -/
def readSection {α : Type} (codec : Codec α) (slot : Nat) (data : List UInt8) :
    Except ArtifactError α := do
  let offset ← wordAt data slot
  let length ← wordAt data offset
  let stop := offset + 4 + length
  if data.length < stop then throw (.truncated stop data.length)
  match codec.decode ((data.drop (offset + 4)).take length) with
  | some (value, _) => return value
  | none => throw .undecodable

/-- The symbol table of an artifact, without reading its module. -/
def readSymbols (data : List UInt8) : Except ArtifactError (List SymbolEntry) := do
  checkHeader data
  readSection symbolsCodec symbolsSlot data

/-- Reads an artifact, the symbol table first. -/
def ofBytes (data : List UInt8) : Except ArtifactError Artifact := do
  checkHeader data
  let symbols ← readSection symbolsCodec symbolsSlot data
  let module ← readSection Module.codec moduleSlot data
  return { module, symbols }

end Artifact

end Weaver
