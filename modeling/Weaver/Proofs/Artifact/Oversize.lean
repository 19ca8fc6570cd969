import Mathlib.Algebra.Order.BigOperators.Group.List
import Mathlib.Algebra.Order.Ring.Nat
import Mathlib.Data.List.Nodup
import Weaver.Proofs.PostCompile
import Weaver.Proofs.Weave.Verdict

/-!
# Artifacts that outgrow the format

The length of a section is a word of four bytes, and the writer of artifacts does not look whether a
length fits its word. An injector names its class once for every field that it fills, so what a weave
makes of a module can be a thousand times as long as the module.

Three things live here:

* bounds on the number of bytes that a value is written in;
* `mul_le_length_of_weave`, how many bytes a module takes at least after a weave, and
  `BuildRun.Commits.unreadable`, by which the step leaves an artifact that is not read as what the
  weave has made if this is too much;
* `exists_unreadable`, an artifact of less than eight megabytes with which this happens.
-/

namespace Weaver

/-! ## Lengths of encodings -/

namespace Codec

variable {α : Type} {c : Codec α} {as : List α} {a : α} {n : ℕ}

lemma length_number_le (width n : ℕ) : ((number width).encode n).length ≤ 9 := by
  rw [length_number]
  split_ifs <;> decide

lemma length_bytes_le (bs : List UInt8) : (bytes.encode bs).length ≤ 9 + bs.length := by
  have count := length_number_le 8 bs.length
  show (length.encode bs.length ++ bs).length ≤ _
  rw [List.length_append, length]
  omega

lemma length_uuid_le (id : Uuid) : (uuid.encode id).length ≤ 25 := by
  have size := length_bytes_le id.bytes
  rw [id.length_bytes] at size
  exact size

lemma length_text_le (s : String) : (text.encode s).length ≤ 9 + (Bytes.ofText s).length :=
  length_bytes_le _

lemma le_length_text (s : String) : (Bytes.ofText s).length ≤ (text.encode s).length := by
  show _ ≤ (length.encode (Bytes.ofText s).length ++ Bytes.ofText s).length
  rw [List.length_append]
  exact Nat.le_add_left _ _

lemma length_list (c : Codec α) (as : List α) :
    ((list c).encode as).length
      = (length.encode as.length).length + (as.map fun a => (c.encode a).length).sum := by
  rw [← List.length_flatMap, ← List.length_append]
  rfl

/-- Every element of a sequence is written in full. -/
lemma length_le_of_mem (member : a ∈ as) : (c.encode a).length ≤ ((list c).encode as).length := by
  have some_of_all := List.single_le_sum (fun _ _ => Nat.zero_le _) _
    (List.mem_map_of_mem (f := fun a => (c.encode a).length) member)
  rw [length_list]
  omega

lemma length_list_le (each : ∀ a ∈ as, (c.encode a).length ≤ n) :
    ((list c).encode as).length ≤ 9 + as.length * n := by
  have count := length_number_le 8 as.length
  have elements := List.sum_le_card_nsmul (as.map fun a => (c.encode a).length) n
    (List.forall_mem_map.2 each)
  rw [List.length_map, nsmul_eq_mul, Nat.cast_id] at elements
  rw [length_list, length]
  omega

end Codec

/-! ### Records -/

open Codec

lemma Field.length_encode (f : Field) :
    (codec.encode f).length = (uuid.encode f.id).length + (text.encode f.name).length
      + (text.encode f.ty).length + (Visibility.codec.encode f.visibility).length
      + ((list Marker.codec).encode f.markers).length := by
  simp only [codec, Codec.map, Codec.pair, List.length_append, Nat.add_assoc]

lemma Method.length_encode (x : Method) :
    (codec.encode x).length = (uuid.encode x.id).length + (text.encode x.name).length
      + (Visibility.codec.encode x.visibility).length + (Codec.bool.encode x.isStatic).length
      + ((list Parameter.codec).encode x.params).length
      + ((option text).encode x.returnType).length
      + ((list Marker.codec).encode x.markers).length
      + ((list Instr.codec).encode x.body).length := by
  simp only [codec, Codec.map, Codec.pair, List.length_append, Nat.add_assoc]

lemma TypeDef.length_encode (t : TypeDef) :
    (codec.encode t).length = (uuid.encode t.id).length + (text.encode t.name).length
      + (Visibility.codec.encode t.visibility).length + (TypeKind.codec.encode t.kind).length
      + (Codec.bool.encode t.isAbstract).length + ((option text).encode t.supertype).length
      + ((list text).encode t.interfaces).length + ((list Field.codec).encode t.fields).length
      + ((list Method.codec).encode t.constructors).length
      + ((list Method.codec).encode t.methods).length := by
  simp only [codec, Codec.map, Codec.pair, List.length_append, Nat.add_assoc]

lemma Module.length_encode (m : Module) :
    (codec.encode m).length = (text.encode m.name).length
      + ((list text).encode m.references).length + ((list TypeDef.codec).encode m.types).length
      + ((option Stamp.codec).encode m.stamp).length := by
  simp only [codec, Codec.map, Codec.pair, List.length_append, Nat.add_assoc]

/-! ## What a weave makes of a module -/

/-- The code that fills fields names their class once for each of them. -/
lemma mul_le_length_assignFields (ty : String) (fields : List Field) (rest : List Instr) :
    fields.length * (Bytes.ofText ty).length
      ≤ ((Codec.list Instr.codec).encode (fields.flatMap (assignField ty) ++ rest)).length := by
  have stores : fields.length * (Bytes.ofText ty).length
      ≤ ((fields.flatMap (assignField ty)).map fun i => (Instr.codec.encode i).length).sum := by
    induction fields with
    | nil => simp
    | cons f fields ih =>
      have named : (Bytes.ofText ty).length ≤ (Instr.codec.encode (.storeField ty f.name)).length := by
        have owner := Codec.le_length_text ty
        show _ ≤ (Codec.index.encode 3
          ++ (Codec.text.encode ty ++ Codec.text.encode f.name)).length
        simp only [List.length_append]
        omega
      rw [List.flatMap_cons, List.map_append, List.sum_append, List.length_cons, Nat.succ_mul]
      simp only [assignField, List.map_cons, List.sum_cons]
      omega
  rw [Codec.length_list, List.map_append, List.sum_append]
  omega

/-- A module with a class that is given an injector takes, after the weave, the bytes of the name of
this class for every marked field. -/
theorem mul_le_length_of_weave {m m' : Module} {options : WeaveOptions} {supply supply' : IdSupply}
    {report : WeaveReport} {t : TypeDef} (names : m.Unambiguous)
    (woven : m.weave options supply = .ok (.woven report, m', supply')) (member : t ∈ m.types)
    (gets : t.gets .injector) :
    t.markedFields.length * (Bytes.ofText t.name).length ≤ (Module.codec.encode m').length := by
  obtain ⟨ids, drawn⟩ := exists_weaveIds names.types supply
  obtain ⟨rfl, -, -⟩ := eq_rewoven_of_weave names drawn woven
  let t' := t.rewoven (ids.entry .factory t.name) (ids.entry .injector t.name)
  let x := injectorMethod (ids.entry .injector t.name) t.name t.markedFields
  have added : t' ∈ (m.rewoven options ids).types :=
    List.mem_append_left _ (List.mem_map.2 ⟨t, member, rfl⟩)
  have own : x ∈ t'.methods := by
    have proper : t.isInterface = false := by
      simp only [TypeDef.gets, Bool.and_eq_true, Bool.not_eq_true'] at gets
      exact gets.1
    have made : t.synthesized? .injector (ids.entry .injector t.name) = some x := by
      simp only [TypeDef.synthesized?, gets, if_true, TypeDef.documentedInjector_eq, x]
    rw [show t' = _ from TypeDef.rewoven_of_class proper _ _, made]
    exact List.mem_append_right _ List.mem_cons_self
  calc t.markedFields.length * (Bytes.ofText t.name).length
      ≤ ((Codec.list Instr.codec).encode x.body).length := mul_le_length_assignFields ..
    _ ≤ (Method.codec.encode x).length := x.length_encode ▸ Nat.le_add_left _ _
    _ ≤ ((Codec.list Method.codec).encode t'.methods).length := Codec.length_le_of_mem own
    _ ≤ (TypeDef.codec.encode t').length := t'.length_encode ▸ Nat.le_add_left _ _
    _ ≤ ((Codec.list TypeDef.codec).encode (m.rewoven options ids).types).length :=
      Codec.length_le_of_mem added
    _ ≤ (Module.codec.encode (m.rewoven options ids)).length := by
      rw [Module.length_encode]
      omega

/-- The step leaves an artifact that is not read as what the weave has made, if this is too much for
a section. The step succeeds nevertheless. -/
theorem BuildRun.Commits.unreadable {r : BuildRun} {report : WeaveReport} {place : List String}
    {found left : Artifact} {t : TypeDef} (commits : r.Commits report place found left)
    (names : found.module.Unambiguous) (member : t ∈ found.module.types) (gets : t.gets .injector)
    (large : 2 ^ 32 ≤ t.markedFields.length * (Bytes.ofText t.name).length) :
    Artifact.ofBytes left.toBytes ≠ .ok left := by
  intro read
  obtain ⟨rest, woven⟩ := commits.woven
  have long := mul_le_length_of_weave names woven member gets
  have short := commits.fits_of_decodes read
  omega

/-! ## Steps that weave -/

/-- When the step weaves: the artifact is read, its module gets woven and its bytes are replaced. -/
lemma BuildCall.outcome_of_woven {c : BuildCall} {store after : FileStore} {bytes : List UInt8}
    {found : Artifact} {report : WeaveReport} {woven : Module} {rest : IdSupply}
    (relevant : ¬c.unit.Irrelevant c.settings) (read : store.read c.path = .ok bytes)
    (decoded : Artifact.ofBytes bytes = .ok found)
    (ran : found.module.weave (c.settings.weaveOptions c.unit.editorOnly) c.supply
      = .ok (.woven report, woven, rest))
    (replaced : store.replace c.path { found with module := woven }.toBytes = (.ok (), after)) :
    (c.run store).outcome = .ok (.processed (.woven report)) := by
  have step : store.weaveArtifact c.path (c.settings.weaveOptions c.unit.editorOnly) c.supply
      = (.ok (.woven report), after, rest) := by
    rw [FileStore.weaveArtifact, read]
    dsimp only
    rw [decoded]
    dsimp only
    rw [ran]
    dsimp only
    rw [replaced]
  rw [run, CompiledUnit.postCompile, CompiledUnit.skipReason?_eq_none_iff.2 relevant]
  dsimp only
  rw [← path, step]
  rfl

/-! ## A closet of fields -/

/-- A text of a number of letters. -/
def letters (n : ℕ) : String :=
  String.ofList (List.replicate n 'x')

lemma length_ofText_letters (n : ℕ) : (Bytes.ofText (letters n)).length = n := by
  show (List.replicate n 'x').utf8Encode.data.toList.length = n
  induction n with
  | zero => rfl
  | succ n ih =>
    rw [List.replicate_succ, List.utf8Encode_cons, ByteArray.data_append, Array.toList_append,
      List.length_append, ih, Nat.add_comm]
    rfl

lemma letters_injective : Function.Injective letters := by
  intro i j same
  have lengths := congrArg (fun s => (Bytes.ofText s).length) same
  simpa only [length_ofText_letters] using lengths

/-- Texts with other characters are something else. -/
lemma letters_ne {s : String} {c : Char} (member : c ∈ s.toList) (other : c ≠ 'x') (n : ℕ) :
    letters n ≠ s := by
  rintro rfl
  rw [letters, String.toList_ofList] at member
  exact other (List.eq_of_mem_replicate member)

/-- A marked field whose name has so many letters. -/
def closetField (n : ℕ) : Field where
  id := .numbered n
  name := letters n
  ty := intType
  markers := [.inject]

/-- A class whose name has `n` letters, with `k` marked fields, whose names have one letter, two
letters and so on. -/
def closetType (n k : ℕ) : TypeDef where
  id := .numbered 0
  name := letters n
  fields := (List.range' 1 k).map closetField

/-- The module of this class. -/
def closet (n k : ℕ) : Module where
  name := "app"
  types := [closetType n k]

section Closet

variable (n k : ℕ)

lemma markedFields_closetType :
    (closetType n k).markedFields = (List.range' 1 k).map closetField := by
  refine List.filter_eq_self.2 fun f member => ?_
  obtain ⟨i, -, rfl⟩ := List.mem_map.1 member
  rfl

lemma gets_closetType {k : ℕ} (pos : 0 < k) : (closetType n k).gets .injector := by
  have first : closetField 1 ∈ (closetType n k).fields :=
    List.mem_map_of_mem (List.mem_range'_1.2 ⟨le_rfl, by omega⟩)
  exact List.any_eq_true.2 ⟨closetField 1, first, rfl⟩

lemma closet_unambiguous : (closet n k).Unambiguous where
  types := List.nodup_singleton _
  fields t member := by
    obtain rfl := List.mem_singleton.1 member
    show (((List.range' 1 k).map closetField).map (·.name)).Nodup
    rw [List.map_map]
    exact List.Nodup.map letters_injective List.nodup_range'
  constructors t member := by
    obtain rfl := List.mem_singleton.1 member
    exact List.nodup_nil

/-- The module gets woven. -/
lemma exists_weave_closet {k : ℕ} (pos : 0 < k) (options : WeaveOptions) (supply : IdSupply) :
    ∃ woven rest, (closet n k).weave options supply
      = .ok (.woven ((closet n k).report options), woven, rest) := by
  have unknown : ¬(closet n k).Recognised (registrarName (closet n k).name options.registrarName) := by
    rintro (stamped | ⟨t, member, named⟩)
    · cases stamped
    · obtain rfl := List.mem_singleton.1 member
      have dotted : '.' ∈ (registrarName (closet n k).name options.registrarName).toList := by
        show '.' ∈ ("app" ++ "." ++ options.registrarName).toList
        simp
      exact letters_ne dotted (by decide) n named
  have targets : (closet n k).HasTargets :=
    Module.hasTargets_iff.2 ⟨_, List.mem_cons_self, .injector, gets_closetType n pos⟩
  have free : ∀ kind, (closet n k).clash? kind = none := by
    intro kind
    refine List.find?_eq_none.2 fun t member => ?_
    obtain rfl := List.mem_singleton.1 member
    have unnamed : (closetType n k).hasMemberNamed kind.memberName = false := by
      refine List.any_eq_false.2 fun f member named => ?_
      obtain ⟨i, -, rfl⟩ := List.mem_map.1 member
      refine letters_ne (c := '_') ?_ (by decide) i (eq_of_beq named)
      cases kind <;> decide
    simp [unnamed]
  have accepted := (Module.refusal?_eq_none_iff (closet_unambiguous n k).types).2 free
  have told := outcome_run (closet n k) options supply
  rw [WeaveCall.outcome_eq, Module.verdict_eq_woven_iff.2 ⟨unknown, targets, accepted, rfl⟩] at told
  match ended : (closet n k).weave options supply, told with
  | .ok (_, woven, rest), told =>
    cases told
    exact ⟨woven, rest, rfl⟩

lemma length_closetField_le (i : ℕ) : (Field.codec.encode (closetField i)).length ≤ 41 + i := by
  have id := length_uuid_le (closetField i).id
  have name : (text.encode (closetField i).name).length ≤ _ := length_text_le (letters i)
  have rest : (text.encode intType).length + (Visibility.codec.encode .ownType).length
      + ((list Marker.codec).encode [.inject]).length = 7 := by
    decide
  rw [length_ofText_letters] at name
  rw [Field.length_encode]
  change _ + _ + (text.encode intType).length + (Visibility.codec.encode .ownType).length
    + ((list Marker.codec).encode [.inject]).length ≤ _
  omega

lemma length_closetType_le :
    (TypeDef.codec.encode (closetType n k)).length ≤ 50 + n + k * (41 + k) := by
  have id := length_uuid_le (closetType n k).id
  have name : (text.encode (closetType n k).name).length ≤ _ := length_text_le (letters n)
  have fields : ((list Field.codec).encode (closetType n k).fields).length
      ≤ 9 + (closetType n k).fields.length * (41 + k) := by
    refine length_list_le fun f member => ?_
    obtain ⟨i, inside, rfl⟩ := List.mem_map.1 member
    have size := length_closetField_le i
    have inside := List.mem_range'_1.1 inside
    omega
  have rest : (Visibility.codec.encode .ownType).length + (TypeKind.codec.encode .classType).length
      + (Codec.bool.encode false).length + ((option text).encode none).length
      + ((list text).encode []).length
      + (((list Method.codec).encode []).length + ((list Method.codec).encode []).length) = 7 := by
    decide
  have count : (closetType n k).fields.length = k := by simp [closetType]
  rw [length_ofText_letters] at name
  rw [count] at fields
  rw [TypeDef.length_encode]
  change _ + _ + (Visibility.codec.encode .ownType).length
    + (TypeKind.codec.encode .classType).length + (Codec.bool.encode false).length
    + ((option text).encode none).length + ((list text).encode []).length + _
    + ((list Method.codec).encode []).length + ((list Method.codec).encode []).length ≤ _
  omega

/-- The module takes few bytes. -/
lemma length_closet_le : (Module.codec.encode (closet n k)).length ≤ 70 + n + k * (41 + k) := by
  have type := length_closetType_le n k
  have types : ((list TypeDef.codec).encode (closet n k).types).length
      ≤ 9 + 1 * (50 + n + k * (41 + k)) := by
    refine length_list_le fun t member => ?_
    obtain rfl := List.mem_singleton.1 member
    exact type
  have rest : (text.encode "app").length + ((list text).encode []).length
      + ((option Stamp.codec).encode none).length = 6 := by
    decide
  rw [Module.length_encode]
  change (text.encode "app").length + ((list text).encode []).length + _
    + ((option Stamp.codec).encode none).length ≤ _
  omega

end Closet

/-- The artifact of this module. -/
def closetArtifact (n k : ℕ) : Artifact where
  module := closet n k

lemma length_closetArtifact_le (n k : ℕ) :
    (closetArtifact n k).toBytes.length ≤ 95 + n + k * (41 + k) := by
  have module : (Module.codec.encode (closetArtifact n k).module).length ≤ _ := length_closet_le n k
  have symbols : (Artifact.symbolsCodec.encode (closetArtifact n k).symbols).length = 1 := rfl
  simp only [Artifact.toBytes_eq, List.length_append, Artifact.length_header, Artifact.sectionBytes,
    Artifact.word, Bytes.length_ofNat, Artifact.headerSize, symbols]
  omega

lemma closetArtifact_fits {n k : ℕ} (small : 70 + n + k * (41 + k) < 2 ^ 32) :
    (closetArtifact n k).Fits where
  symbols := show 20 + (Artifact.symbolsCodec.encode []).length < 2 ^ 32 by decide
  module := Nat.lt_of_le_of_lt (length_closet_le n k) small

/-- A directory with one artifact. -/
def appStore (bytes : List UInt8) : FileStore where
  entries := [(["out"], .directory), (["out", "app.pwm"], .file bytes)]

/-- The step for the unit whose artifact this is. -/
def appCall : BuildCall where
  unit := { name := "app", artifactPath := "out/app.pwm", references := [supportModule] }
  supply := lampIds

lemma read_appStore (bytes : List UInt8) : (appStore bytes).read appCall.path = .ok bytes :=
  rfl

lemma replace_appStore (old bytes : List UInt8) :
    (appStore old).replace appCall.path bytes = (.ok (), appStore bytes) :=
  rfl

lemma appCall_unstaged (bytes : List UInt8) : appCall.Unstaged (appStore bytes) := by
  intro staging named
  have same : stagingPath? appCall.path = some "out/app.pwm.weaving" := by decide +kernel
  rw [same] at named
  injection named with named
  rw [← named]
  rfl

lemma appCall_relevant : ¬appCall.unit.Irrelevant appCall.settings :=
  CompiledUnit.skipReason?_eq_none_iff.1 (by decide +kernel)

/-- The step weaves a closet with a long name and many fields, and what it leaves in its place is not
read as what the weave has made. -/
theorem unreadable_of_large {n k : ℕ} (pos : 0 < k) (small : 70 + n + k * (41 + k) < 2 ^ 32)
    (large : 2 ^ 32 ≤ k * n) : ∃ report place left,
      (appCall.run (appStore (closetArtifact n k).toBytes)).outcome
        = .ok (.processed (.woven report)) ∧
      (appCall.run (appStore (closetArtifact n k).toBytes)).Commits report place
        (closetArtifact n k) left ∧
      Artifact.ofBytes left.toBytes ≠ .ok left := by
  have read := read_appStore (closetArtifact n k).toBytes
  have decoded := Artifact.ofBytes_toBytes (closetArtifact_fits small)
  obtain ⟨woven, rest, ran⟩ := exists_weave_closet n pos
    (appCall.settings.weaveOptions appCall.unit.editorOnly) appCall.supply
  have outcome := BuildCall.outcome_of_woven appCall_relevant read decoded ran (replace_appStore _ _)
  obtain ⟨place, found, left, commits⟩ :=
    (BuildCall.allOrNothing_run (appCall_unstaged _)).committed _ outcome
  -- what the step has found is what stands in the store
  obtain rfl : found = closetArtifact n k := by
    obtain ⟨bytes, again, decoded'⟩ := commits.decoded
    rw [BuildCall.before_run, BuildCall.call_run, read] at again
    rw [← Except.ok.inj again, decoded] at decoded'
    exact (Except.ok.inj decoded').symm
  have marked : (closetType n k).markedFields.length = k := by
    rw [markedFields_closetType, List.length_map, List.length_range']
  have long : 2 ^ 32 ≤ (closetType n k).markedFields.length
      * (Bytes.ofText (closetType n k).name).length := by
    rw [marked, show (closetType n k).name = letters n from rfl, length_ofText_letters]
    exact large
  exact ⟨_, place, left, outcome, commits,
    commits.unreadable (closet_unambiguous n k) List.mem_cons_self (gets_closetType n pos) long⟩

/-- A class whose name has 2²² letters, with 2¹⁰ marked fields, does this in less than eight
megabytes. -/
theorem exists_unreadable : ∃ bytes : List UInt8, bytes.length < 2 ^ 23 ∧
    appCall.Unstaged (appStore bytes) ∧
    ∃ report place found left,
      (appCall.run (appStore bytes)).outcome = .ok (.processed (.woven report)) ∧
      (appCall.run (appStore bytes)).Commits report place found left ∧
      Artifact.ofBytes left.toBytes ≠ .ok left := by
  obtain ⟨report, place, left, outcome, commits, unreadable⟩ :=
    unreadable_of_large (n := 2 ^ 22) (k := 2 ^ 10) (by decide) (by decide) (by decide)
  have size := length_closetArtifact_le (2 ^ 22) (2 ^ 10)
  exact ⟨_, Nat.lt_of_le_of_lt size (by decide), appCall_unstaged _, report, place, _, left, outcome,
    commits, unreadable⟩

end Weaver
