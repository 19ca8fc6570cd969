import Mathlib.Tactic.Common
import Weaver.Proofs.Binary.Module
import Weaver.Proofs.Lookups

/-!
# Artifacts there and back

An artifact whose sections fit the words of the layout is read back from its bytes, and the digest
of a module is taken of bytes that no other module has. Bytes that no writer has made are covered as
well: whatever they are read as is written in no more bytes than it was read from, so it fits the
layout as the bytes did.
-/

namespace Weaver

namespace Artifact

/-! ## Words at offsets -/

theorem wordAt_of_drop {data rest : List UInt8} {offset n : ℕ}
    (there : data.drop offset = word n ++ rest) (small : n < 2 ^ 32) :
    wordAt data offset = .ok n := by
  have width : (word n).length = 4 := Bytes.length_ofNat 4 n
  have taken : (data.drop offset).take 4 = word n := by
    rw [there]
    exact List.take_left' width
  have value : Bytes.toNat (word n) = n := by
    rw [word, Bytes.toNat_ofNat]
    exact Nat.mod_eq_of_lt small
  unfold wordAt
  dsimp only
  rw [taken, if_pos width, value]

theorem lt_of_wordAt {data : List UInt8} {offset n : ℕ} (ok : wordAt data offset = .ok n) :
    n < 2 ^ 32 := by
  unfold wordAt at ok
  dsimp only at ok
  split at ok
  next four =>
    injection ok with ok
    have bound := Bytes.toNat_lt ((data.drop offset).take 4)
    rw [four, ok] at bound
    exact bound
  · cases ok

/-! ## Sections -/

section Sections

variable {α : Type} {codec : Codec α}

/-- When a section is read: its place is given, its length stands there, and all of it is there. -/
theorem readSection_eq_ok_iff {data : List UInt8} {slot : ℕ} {a : α} :
    readSection codec slot data = .ok a ↔
      ∃ offset length rest, wordAt data slot = .ok offset ∧ wordAt data offset = .ok length ∧
        offset + 4 + length ≤ data.length ∧
        codec.decode ((data.drop (offset + 4)).take length) = some (a, rest) := by
  unfold readSection
  apply Iff.intro
  · intro ok
    obtain ⟨offset, place, ok⟩ := exists_of_bind_eq_ok ok
    obtain ⟨length, size, ok⟩ := exists_of_bind_eq_ok ok
    dsimp only at ok
    split at ok
    · cases ok
    · next enough =>
      split at ok
      next value rest decoded =>
        cases ok
        exact ⟨offset, length, rest, place, size, by omega, decoded⟩
      · cases ok
  · rintro ⟨offset, length, rest, place, size, enough, decoded⟩
    have long : ¬ data.length < offset + 4 + length := by omega
    simp only [place, size, decoded, if_neg long, bind, Except.bind, pure, Except.pure]

/-- What stands in a section is read from where the header says it is. -/
theorem readSection_of_decode {data before content after rest : List UInt8} {slot : ℕ} {a : α}
    (place : wordAt data slot = .ok before.length)
    (there : data = before ++ (sectionBytes content ++ after)) (small : content.length < 2 ^ 32)
    (decoded : codec.decode content = some (a, rest)) : readSection codec slot data = .ok a := by
  have at_offset : data.drop before.length = word content.length ++ (content ++ after) := by
    rw [there, List.drop_left, sectionBytes, List.append_assoc]
  have taken : (data.drop (before.length + 4)).take content.length = content := by
    rw [← List.drop_drop, at_offset, word, List.drop_left' (Bytes.length_ofNat 4 _),
      List.take_left]
  refine readSection_eq_ok_iff.2 ⟨before.length, content.length, rest, place,
    wordAt_of_drop at_offset small, ?_, by rw [taken, decoded]⟩
  have lengths := congrArg List.length there
  simp only [List.length_append, sectionBytes, word, Bytes.length_ofNat] at lengths
  omega

/-- A section is read from where the header says it is. -/
theorem readSection_of_eq_append (lawful : codec.Lawful) {data before after : List UInt8}
    {slot : ℕ} {a : α} (place : wordAt data slot = .ok before.length)
    (there : data = before ++ (sectionBytes (codec.encode a) ++ after))
    (small : (codec.encode a).length < 2 ^ 32) : readSection codec slot data = .ok a := by
  have decoded := lawful.decode_encode a [] (Nat.lt_trans small (by decide))
  rw [List.append_nil] at decoded
  exact readSection_of_decode place there small decoded

/-- What a section was read as takes no more bytes than a section can have. -/
theorem length_lt_of_readSection (lawful : codec.Lawful) {data : List UInt8} {slot : ℕ} {a : α}
    (ok : readSection codec slot data = .ok a) : (codec.encode a).length < 2 ^ 32 := by
  obtain ⟨offset, length, rest, _, size, _, decoded⟩ := readSection_eq_ok_iff.1 ok
  have bound := lt_of_wordAt size
  have shorter := lawful.compact decoded
  rw [List.length_take] at shorter
  omega

end Sections

/-! ## Artifacts -/

/-- The sizes of the sections can be written in the words of the layout. -/
structure Fits (a : Artifact) : Prop where
  symbols : 20 + (symbolsCodec.encode a.symbols).length < 2 ^ 32
  module : (Module.codec.encode a.module).length < 2 ^ 32

/-- The header of an artifact. -/
def header (a : Artifact) : List UInt8 :=
  magic ++ word version ++ word headerSize
    ++ word (headerSize + (sectionBytes (symbolsCodec.encode a.symbols)).length)

theorem toBytes_eq (a : Artifact) : a.toBytes
    = a.header ++ (sectionBytes (symbolsCodec.encode a.symbols)
      ++ sectionBytes (Module.codec.encode a.module)) := by
  rw [← List.append_assoc]
  rfl

theorem length_header (a : Artifact) : a.header.length = headerSize := by
  simp only [header, List.length_append, word, Bytes.length_ofNat]
  rfl

theorem checkHeader_toBytes (a : Artifact) : checkHeader a.toBytes = .ok () := by
  have enough : ¬ a.toBytes.length < headerSize := by
    rw [toBytes_eq, List.length_append, length_header]
    omega
  have start : isArtifact a.toBytes = true := rfl
  have known : wordAt a.toBytes 4 = .ok version := wordAt_of_drop rfl (by decide)
  simp [checkHeader, enough, start, known, bind, Except.bind, pure, Except.pure]

/-- The module section stands where the header says it is. -/
lemma moduleSection_toBytes {a : Artifact} (fits : a.Fits) : ∃ before,
    wordAt a.toBytes moduleSlot = .ok before.length ∧
      a.toBytes = before ++ (sectionBytes (Module.codec.encode a.module) ++ []) := by
  have symbols_small := fits.symbols
  refine ⟨a.header ++ sectionBytes (symbolsCodec.encode a.symbols), ?_, ?_⟩
  · rw [List.length_append, length_header]
    refine wordAt_of_drop rfl ?_
    simp only [sectionBytes, word, List.length_append, Bytes.length_ofNat, headerSize]
    omega
  · rw [toBytes_eq, List.append_nil, List.append_assoc]

theorem ofBytes_toBytes {a : Artifact} (fits : a.Fits) : ofBytes a.toBytes = .ok a := by
  have symbols_small := fits.symbols
  have symbols : readSection symbolsCodec symbolsSlot a.toBytes = .ok a.symbols := by
    apply readSection_of_eq_append lawful_symbolsCodec _ (toBytes_eq a) (by omega)
    rw [length_header]
    exact wordAt_of_drop rfl (by decide)
  have module : readSection Module.codec moduleSlot a.toBytes = .ok a.module := by
    obtain ⟨before, place, there⟩ := moduleSection_toBytes fits
    exact readSection_of_eq_append Module.lawful_codec place there fits.module
  simp [ofBytes, checkHeader_toBytes, symbols, module, bind, Except.bind, pure, Except.pure]

/-- The bytes of the module section. -/
def moduleBytes (data : List UInt8) : Except ArtifactError (List UInt8) :=
  readSection ⟨id, fun bytes => some (bytes, [])⟩ moduleSlot data

/-- The module section of an artifact that has been written is the binary form of its module. -/
lemma moduleBytes_toBytes {a : Artifact} (fits : a.Fits) :
    moduleBytes a.toBytes = .ok (Module.codec.encode a.module) := by
  obtain ⟨before, place, there⟩ := moduleSection_toBytes fits
  exact readSection_of_decode place there fits.module rfl

/-- What bytes are read as, in the parts that the reader takes. -/
theorem of_ofBytes {data : List UInt8} {a : Artifact} (ok : ofBytes data = .ok a) :
    readSection symbolsCodec symbolsSlot data = .ok a.symbols ∧
      readSection Module.codec moduleSlot data = .ok a.module := by
  obtain ⟨_, _, ok⟩ := exists_of_bind_eq_ok ok
  obtain ⟨symbols, read_symbols, ok⟩ := exists_of_bind_eq_ok ok
  obtain ⟨module, read_module, ok⟩ := exists_of_bind_eq_ok ok
  cases ok
  exact ⟨read_symbols, read_module⟩

/-- The module of bytes that are read as an artifact takes no more bytes than a section can have. -/
lemma length_lt_of_ofBytes {data : List UInt8} {a : Artifact} (ok : ofBytes data = .ok a) :
    (Module.codec.encode a.module).length < 2 ^ 32 :=
  length_lt_of_readSection Module.lawful_codec (of_ofBytes ok).2

/-- Artifacts that fit the layout are read back from their bytes and written as the same bytes
again. The digest of a module is that of its bytes, which no other module has. And whatever bytes
are read as is written to bytes that are read as the same, if the symbols fit behind the header; the
module fits of itself. No machine has `UInt64.size` bytes. -/
theorem roundTrip :
    (∀ a : Artifact, a.Fits →
      ofBytes a.toBytes = .ok a ∧ ∀ b, ofBytes a.toBytes = .ok b → b.toBytes = a.toBytes) ∧
    (∀ m n : Module, (Module.codec.encode m).length < UInt64.size →
      m.digest = Digest.sha256 (Module.codec.encode m) ∧
        (m ≠ n → Module.codec.encode m ≠ Module.codec.encode n)) ∧
    ∀ data a, ofBytes data = .ok a →
      (Module.codec.encode a.module).length < 2 ^ 32 ∧
        (20 + (symbolsCodec.encode a.symbols).length < 2 ^ 32 → ofBytes a.toBytes = .ok a) := by
  refine ⟨fun a fits => ?_, fun m n small => ?_, fun data a ok => ?_⟩
  · refine ⟨ofBytes_toBytes fits, fun b ok => ?_⟩
    rw [ofBytes_toBytes fits] at ok
    cases ok
    rfl
  · refine ⟨rfl, fun different same => different ?_⟩
    exact Module.lawful_codec.encode_injective small same
  · have module := length_lt_of_ofBytes ok
    exact ⟨module, fun symbols => ofBytes_toBytes ⟨symbols, module⟩⟩

/-- A class with a marked field and a constructor that fills it, and the line it comes from. -/
def specimen : Artifact where
  module :=
    { name := "app"
      types :=
        [{ id := .numbered 0, name := "app.Car"
           fields := [{ id := .numbered 1, name := "size", ty := intType, markers := [.inject] }]
           constructors :=
             [{ id := .numbered 2, name := constructorName
                body :=
                  [.loadArg 0, .loadConst (.int (-300)), .storeField "app.Car" "size", .ret] }] }] }
  symbols := [{ member := .numbered 2, file := "car.src", line := 70000 }]

/-- The specimen is read back, also with a byte behind it that no section holds. -/
theorem roundTrip_specimen :
    ofBytes specimen.toBytes = .ok specimen ∧
      Module.codec.encode specimen.module ≠ Module.codec.encode { name := "app" } ∧
      ∃ a, ofBytes (specimen.toBytes ++ [0]) = .ok a ∧ ofBytes a.toBytes = .ok a := by
  have fits : specimen.Fits := ⟨by decide +kernel, by decide +kernel⟩
  have read : ofBytes (specimen.toBytes ++ [0]) = .ok specimen := by decide +kernel
  refine ⟨(roundTrip.1 specimen fits).1, ?_, specimen, read, ?_⟩
  · exact (roundTrip.2.1 specimen.module { name := "app" } (by decide +kernel)).2 (by decide)
  · exact (roundTrip.2.2 _ specimen read).2 fits.symbols

end Artifact

end Weaver
