import Mathlib.Tactic.Common
import Weaver.Artifact
import Weaver.Proofs.Binary.Laws

/-!
# Laws of the binary form of a module

Records are pairs of pairs, so their laws follow from the laws of their fields. Markers, constants
and instructions are taken variant by variant: every form is written behind a position of its own,
and what is read at a position is the form that is written there.
-/

namespace Weaver

open Codec

theorem Visibility.lawful_codec : Visibility.codec.Lawful := by
  refine lawful_enumeration ?_ ?_ ?_
  · intro v
    cases v <;> decide
  · intro v
    cases v <;> rfl
  · intro i v found
    rcases i with _ | _ | _ | i <;> cases found <;> rfl

theorem TypeKind.lawful_codec : TypeKind.codec.Lawful := by
  refine lawful_enumeration ?_ ?_ ?_
  · intro k
    cases k <;> decide
  · intro k
    cases k <;> rfl
  · intro i k found
    rcases i with _ | _ | i <;> cases found <;> rfl

theorem EntryKind.lawful_codec : EntryKind.codec.Lawful := by
  refine lawful_enumeration ?_ ?_ ?_
  · intro k
    cases k <;> decide
  · intro k
    cases k <;> rfl
  · intro i k found
    rcases i with _ | _ | i <;> cases found <;> rfl

/-! ## Variants with content -/

theorem Marker.lawful_codec : Marker.codec.Lawful := by
  apply lawful_of_variants (fun _ => rfl)
  · intro m
    cases m with
    | inject => exact writes_plain 0 (by decide) rfl fun _ => rfl
    | editorLoadHook => exact writes_plain 1 (by decide) rfl fun _ => rfl
    | runtimeLoadHook => exact writes_plain 2 (by decide) rfl fun _ => rfl
    | custom tag => exact lawful_text.writes 3 custom tag (by decide) rfl fun _ => rfl
  · intro i bytes rest m read
    dsimp only at read
    split at read
    · exact reads_plain rfl read
    · exact reads_plain rfl read
    · exact reads_plain rfl read
    · exact lawful_text.reads (fun _ => rfl) read
    · cases read

theorem Constant.lawful_codec : Constant.codec.Lawful := by
  apply lawful_of_variants (fun _ => rfl)
  · intro c
    cases c with
    | null => exact writes_plain 0 (by decide) rfl fun _ => rfl
    | bool b => exact lawful_bool.writes 1 Constant.bool b (by decide) rfl fun _ => rfl
    | int n => exact lawful_int64.writes 2 Constant.int n (by decide) rfl fun _ => rfl
    | text s => exact lawful_text.writes 3 Constant.text s (by decide) rfl fun _ => rfl
  · intro i bytes rest c read
    dsimp only at read
    split at read
    · exact reads_plain rfl read
    · exact lawful_bool.reads (fun _ => rfl) read
    · exact lawful_int64.reads (fun _ => rfl) read
    · exact lawful_text.reads (fun _ => rfl) read
    · cases read

theorem Instr.lawful_codec : Instr.codec.Lawful := by
  have names := lawful_text.pair lawful_text
  have member := lawful_text.pair lawful_uuid
  have entry := EntryKind.lawful_codec.pair lawful_text
  apply lawful_of_variants (fun _ => rfl)
  · intro i
    cases i with
    | loadArg n => exact lawful_uint16.writes 0 loadArg n (by decide) rfl fun _ => rfl
    | loadConst c => exact Constant.lawful_codec.writes 1 loadConst c (by decide) rfl fun _ => rfl
    | loadField owner field =>
      exact names.writes 2 (fun p => loadField p.1 p.2) (owner, field) (by decide) rfl fun _ => rfl
    | storeField owner field =>
      exact names.writes 3 (fun p => storeField p.1 p.2) (owner, field) (by decide) rfl fun _ => rfl
    | newObject owner ctor =>
      exact member.writes 4 (fun p => newObject p.1 p.2) (owner, ctor) (by decide) rfl fun _ => rfl
    | call owner method =>
      exact member.writes 5 (fun p => call p.1 p.2) (owner, method) (by decide) rfl fun _ => rfl
    | loadMethod owner method =>
      exact member.writes 6 (fun p => loadMethod p.1 p.2) (owner, method) (by decide) rfl
        fun _ => rfl
    | resolve ty => exact lawful_text.writes 7 resolve ty (by decide) rfl fun _ => rfl
    | register kind ty =>
      exact entry.writes 8 (fun p => register p.1 p.2) (kind, ty) (by decide) rfl fun _ => rfl
    | upcast ty => exact lawful_text.writes 9 upcast ty (by decide) rfl fun _ => rfl
    | print => exact writes_plain 10 (by decide) rfl fun _ => rfl
    | dup => exact writes_plain 11 (by decide) rfl fun _ => rfl
    | pop => exact writes_plain 12 (by decide) rfl fun _ => rfl
    | ret => exact writes_plain 13 (by decide) rfl fun _ => rfl
  · intro i bytes rest instr read
    dsimp only at read
    split at read
    · exact lawful_uint16.reads (fun _ => rfl) read
    · exact Constant.lawful_codec.reads (fun _ => rfl) read
    · exact names.reads (fun _ => rfl) read
    · exact names.reads (fun _ => rfl) read
    · exact member.reads (fun _ => rfl) read
    · exact member.reads (fun _ => rfl) read
    · exact member.reads (fun _ => rfl) read
    · exact lawful_text.reads (fun _ => rfl) read
    · exact entry.reads (fun _ => rfl) read
    · exact lawful_text.reads (fun _ => rfl) read
    · exact reads_plain rfl read
    · exact reads_plain rfl read
    · exact reads_plain rfl read
    · exact reads_plain rfl read
    · cases read

/-! ## Records -/

theorem Parameter.lawful_codec : Parameter.codec.Lawful :=
  (lawful_text.pair lawful_text).map (fun _ => rfl) (fun _ => rfl)

theorem Field.lawful_codec : Field.codec.Lawful :=
  (lawful_uuid.pair (lawful_text.pair (lawful_text.pair (Visibility.lawful_codec.pair
    Marker.lawful_codec.list)))).map (fun _ => rfl) (fun _ => rfl)

theorem Method.lawful_codec : Method.codec.Lawful :=
  (lawful_uuid.pair (lawful_text.pair (Visibility.lawful_codec.pair (lawful_bool.pair
    (Parameter.lawful_codec.list.pair (lawful_text.option.pair (Marker.lawful_codec.list.pair
      Instr.lawful_codec.list))))))).map (fun _ => rfl) (fun _ => rfl)

theorem TypeDef.lawful_codec : TypeDef.codec.Lawful :=
  (lawful_uuid.pair (lawful_text.pair (Visibility.lawful_codec.pair (TypeKind.lawful_codec.pair
    (lawful_bool.pair (lawful_text.option.pair (lawful_text.list.pair
      (Field.lawful_codec.list.pair (Method.lawful_codec.list.pair
        Method.lawful_codec.list))))))))).map (fun _ => rfl) (fun _ => rfl)

theorem Stamp.lawful_codec : Stamp.codec.Lawful :=
  (lawful_text.pair (lawful_text.pair (lawful_uint32.pair lawful_uint32))).map
    (fun _ => rfl) (fun _ => rfl)

theorem Module.lawful_codec : Module.codec.Lawful :=
  (lawful_text.pair (lawful_text.list.pair (TypeDef.lawful_codec.list.pair
    Stamp.lawful_codec.option))).map (fun _ => rfl) (fun _ => rfl)

theorem SymbolEntry.lawful_codec : SymbolEntry.codec.Lawful :=
  (lawful_uuid.pair (lawful_text.pair lawful_uint32)).map (fun _ => rfl) (fun _ => rfl)

theorem Artifact.lawful_symbolsCodec : Artifact.symbolsCodec.Lawful :=
  SymbolEntry.lawful_codec.list

end Weaver
