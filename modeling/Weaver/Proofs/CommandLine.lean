import Weaver.CommandLine.Run
import Weaver.Proofs.Artifact
import Weaver.Proofs.Files.Store
import Weaver.Proofs.Module.Description

/-!
# Descriptions on the command line

An artifact can be shown as a description, and an artifact can be made from one. Both together give
the module back, byte for byte, and so they do when the description has been changed in harmless
ways on the way.

Two things live here:

* one lemma for each part of the two commands, for the case that nothing goes wrong;
* `description_roundTrip`, what becomes of a module on the way.
-/

namespace Weaver.CommandLine

namespace Action

variable {α β : Type} {s s' : Session} {path text : String} {bytes : List UInt8} {a : Artifact}

/-! ## Parts of commands -/

lemma run_bind_of_ok {action : Action α} {next : α → Action β} {a : α}
    (ok : action.run.run s = (.ok a, s')) :
    (action >>= next).run.run s = (next a).run.run s' := by
  rw [ExceptT.run_bind, StateT.run_bind, ok]
  rfl

lemma run_get_bind {next : Session → Action β} :
    ((get : Action Session) >>= next).run.run s = (next s).run.run s :=
  rfl

lemma run_readFile {wording : FileError → String} (read : s.files.read path = .ok bytes) :
    (readFile path wording).run.run s = (.ok bytes, s) := by
  rw [readFile, run_get_bind, read]
  rfl

lemma run_readArtifact (read : s.files.read path = .ok bytes)
    (ok : Artifact.ofBytes bytes = .ok a) : (readArtifact path).run.run s = (.ok a, s) := by
  rw [readArtifact, run_bind_of_ok (run_readFile read), ok]
  rfl

lemma run_readText (read : s.files.read path = .ok (Bytes.ofText text)) :
    (readText path).run.run s = (.ok text, s) := by
  rw [readText, run_bind_of_ok (run_readFile read), Bytes.toText?_ofText]
  rfl

/-! ## Commands -/

lemma run_inspect (read : s.files.read path = .ok bytes) (ok : Artifact.ofBytes bytes = .ok a) :
    (inspect path true).run.run s
      = (.ok (), { s with output := s.output ++ [a.module.toJson.indented] }) := by
  rw [inspect, run_bind_of_ok (run_readArtifact read ok)]
  rfl

lemma run_assemble {output : String} {m : Module} {supply : IdSupply} {files : FileStore}
    (read : s.files.read path = .ok (Bytes.ofText text))
    (described : (Json.ofText? text).bind (Module.ofJson? · s.supply) = some (m, supply))
    (written : s.files.write output (Artifact.toBytes { module := m }) = .ok files) :
    (assemble path output).run.run s = (.ok (), { s with
      files, supply, output := s.output ++ [s!"assembled {m.name} -> {output}"] }) := by
  rw [assemble, run_bind_of_ok (run_readText read), run_get_bind, described]
  dsimp only
  rw [written]
  rfl

end Action

/-! ## Command lines -/

/-- Arguments by which the artifact of a file is shown as a description. -/
def Shows (args : List String) (file : String) : Prop :=
  ∃ settings, parse args = .ok ⟨settings, .inspect file true⟩

/-- Arguments by which an artifact is made from the description in a file. -/
def Makes (args : List String) (file output : String) : Prop :=
  ∃ settings, parse args = .ok ⟨settings, .assemble file output⟩

/-- The texts of a module: they spell its description or what it may harmlessly be changed to. -/
def TextOf (m : Module) (text : String) : Prop :=
  ∃ j, Description.Harmless m.toJson j ∧ Json.Spells j.tokens text.toList

variable {args : List String} {s after : Session} {file output text : String} {m : Module}

lemma run_of_ok {invocation : Invocation} (parsed : parse args = .ok invocation)
    (ok : (Action.ofInvocation invocation).run.run s = (.ok (), after)) :
    run args s = { code := okCode, stdout := ofLines after.output, stderr := "",
                   files := after.files, supply := after.supply } := by
  rw [run, parsed]
  dsimp only
  rw [ok]
  rfl

/-- From a text of a module the module is read, and no identifier is drawn. -/
lemma read_of_textOf (described : TextOf m text) (supply : IdSupply) :
    (Json.ofText? text).bind (Module.ofJson? · supply) = some (m, supply) := by
  obtain ⟨j, harmless, spells⟩ := described
  rw [Json.ofText?_of_spells spells, Option.bind_some, Module.ofJson?,
    Description.module_of_harmless harmless]
  rfl

/-- What a description has harmlessly been changed to is written in texts of the module. -/
lemma textOf_of_harmless {j : Json} (harmless : Description.Harmless m.toJson j)
    (legible : j.Legible) : TextOf m j.compact ∧ TextOf m j.indented :=
  ⟨⟨j, harmless, Json.spells_compact legible⟩, ⟨j, harmless, Json.spells_indented legible⟩⟩

/-- What is shown of an artifact is a text of its module. -/
lemma run_shows {bytes : List UInt8} {symbols : List SymbolEntry} (shows : Shows args file)
    (fresh : s.output = []) (read : s.files.read file = .ok bytes)
    (ok : Artifact.ofBytes bytes = .ok { module := m, symbols }) :
    (run args s).code = okCode ∧ TextOf m (run args s).stdout := by
  obtain ⟨settings, parsed⟩ := shows
  rw [run_of_ok parsed (Action.run_inspect read ok)]
  refine ⟨rfl, m.toJson, Description.harmless_refl m, ?_⟩
  -- the line break behind the description is a blank of the text
  have line : (ofLines (s.output ++ [m.toJson.indented])).toList
      = Json.indentedChars 0 m.toJson ++ ['\n'] := by
    rw [fresh]
    simp [ofLines, Json.indented]
  have spells := Json.spells_indentedChars (.blank (c := '\n') rfl .done) 0 m.toJson
    (Description.legible_toJson m)
  rw [List.append_nil] at spells
  rwa [line]

/-- From a text of a module its artifact is made. -/
lemma run_makes {files : FileStore} (makes : Makes args file output)
    (read : s.files.read file = .ok (Bytes.ofText text)) (described : TextOf m text)
    (written : s.files.write output (Artifact.toBytes { module := m }) = .ok files) :
    (run args s).code = okCode ∧
      (run args s).files.read output = .ok (Artifact.toBytes { module := m }) := by
  obtain ⟨settings, parsed⟩ := makes
  rw [run_of_ok parsed (Action.run_assemble read (read_of_textOf described s.supply) written)]
  exact ⟨rfl, FileStore.read_of_write written⟩

/-- A module is read from each of its texts. What its description may harmlessly be changed to is
written in such texts, in either form, the description itself among them. And the artifact that is
made of what is shown of an artifact of the module has the module section of every artifact of it
that has been written. -/
theorem description_roundTrip (m : Module) :
    (∀ text supply, TextOf m text →
      (Json.ofText? text).bind (Module.ofJson? · supply) = some (m, supply)) ∧
    (∀ j, Description.Harmless m.toJson j → j.Legible →
      TextOf m j.compact ∧ TextOf m j.indented) ∧
    (Description.Harmless m.toJson m.toJson ∧ m.toJson.Legible) ∧
    ∀ (showing making : List String) (s s' : Session) (shown described made : String)
      (bytes : List UInt8) (symbols : List SymbolEntry) (files : FileStore),
      Shows showing shown → s.output = [] → s.files.read shown = .ok bytes →
      Artifact.ofBytes bytes = .ok { module := m, symbols } →
      Makes making described made →
      s'.files.read described = .ok (Bytes.ofText (run showing s).stdout) →
      s'.files.write made (Artifact.toBytes { module := m }) = .ok files →
      (run showing s).code = okCode ∧ (run making s').code = okCode ∧
        ∃ bytes', (run making s').files.read made = .ok bytes' ∧
          Artifact.ofBytes bytes' = .ok { module := m } ∧
          Artifact.moduleBytes bytes' = .ok (Module.codec.encode m) ∧
          ∀ a : Artifact, a.Fits → a.module = m →
            Artifact.moduleBytes bytes' = Artifact.moduleBytes a.toBytes := by
  refine ⟨fun text supply described => read_of_textOf described supply,
    fun j harmless legible => textOf_of_harmless harmless legible,
    ⟨Description.harmless_refl m, Description.legible_toJson m⟩, ?_⟩
  intro showing making s s' shown described made bytes symbols files shows fresh there ok makes here
    written
  obtain ⟨showed, source⟩ := run_shows shows fresh there ok
  obtain ⟨done, result⟩ := run_makes makes here source written
  have small := Artifact.length_lt_of_ofBytes ok
  have fits : Artifact.Fits { module := m } :=
    { symbols := show 20 + (Artifact.symbolsCodec.encode []).length < 2 ^ 32 by decide
      module := small }
  refine ⟨showed, done, _, result, Artifact.ofBytes_toBytes fits, Artifact.moduleBytes_toBytes fits,
    fun a fits' same => ?_⟩
  rw [Artifact.moduleBytes_toBytes fits, Artifact.moduleBytes_toBytes fits', same]

/-! ### The specimen -/

open Description
open Artifact (specimen)

/-- What is left of a record may stand in reverse behind what is added. -/
lemma record_reverse {slots : List Description.Slot} {members : List (Option String × Json)}
    (left : List (Option Json)) (unknown : List (String × Json))
    (leaves : Leaves slots members left)
    (others : ∀ member ∈ unknown, member.1 ∉ slots.map Description.Slot.name) :
    Change.Record slots (.object members) (.object
      (present slots left ++ unknown.map fun ((k, v) : String × Json) => (some k, v)).reverse) :=
  .intro leaves others (List.reverse_perm _)

/-- The instruction of the specimen that stores into its field, with a reason. -/
def editedStore : Json :=
  tagged "StoreField"
    (.ofMembers [("why", .bool true), ("field", .str "size"), ("owner", .str "app.Car")])

/-- The constructor of the specimen without its defaults. -/
def editedConstructor : Json :=
  .ofMembers
    [("body", .array [(Instr.loadArg 0).toJson, (Instr.loadConst (.int (-300))).toJson,
      editedStore, Instr.ret.toJson]),
     ("name", .str constructorName), ("id", .str (Uuid.numbered 2).toText)]

/-- The class of the specimen without its defaults. -/
def editedClass : Json :=
  .ofMembers
    [("constructors", .array [editedConstructor]),
     ("fields", .array (specimen.module.types.flatMap fun t => t.fields.map Field.toJson)),
     ("name", .str "app.Car"), ("id", .str (Uuid.numbered 0).toText)]

/-- The description of the specimen in reverse, without its defaults, with a number that is too
large for the machine. -/
def edited : Json :=
  .ofMembers
    [("limit", .num (.decimal ['1', 'e', '4', '0', '0'])), ("types", .array [editedClass]),
     ("name", .str "app")]

lemma harmless_edited : Harmless specimen.module.toJson edited := by
  -- from the innermost record outwards
  have store : Change.Instruction (Instr.storeField "app.Car" "size").toJson editedStore := by
    refine ⟨_, rfl, ?_⟩
    have leaves : Leaves [{ name := "owner" }, { name := "field" }]
        [(some "owner", .str "app.Car"), (some "field", .str "size")]
        [some (.str "app.Car"), some (.str "size")] :=
      .cons (.kept rfl) <| .cons (.kept rfl) .nil
    exact record_reverse _ [("why", .bool true)] leaves (by decide)
  have constructor : ∀ t ∈ specimen.module.types, ∀ c ∈ t.constructors,
      Change.Record methodSlots c.toJson editedConstructor := by
    simp only [specimen, List.forall_mem_singleton]
    refine record_reverse [some (.str (Uuid.numbered 2).toText), some (.str constructorName), none,
      none, none, none, none, some (.array _)] [] ?_ (by decide)
    refine .cons (.kept rfl) <| .cons (.kept rfl) <| .cons (.dropped rfl) <| .cons (.dropped rfl) <|
      .cons (.dropped rfl) <| .cons (.dropped rfl) <| .cons (.dropped rfl) <| .cons (.kept ?_) .nil
    exact ⟨.cons (Change.instr_refl (.loadArg 0)) <| .cons (Change.instr_refl (.loadConst _)) <|
      .cons store <| .cons (Change.instr_refl .ret) .nil⟩
  have type : ∀ t ∈ specimen.module.types, Change.Record typeSlots t.toJson editedClass := by
    simp only [specimen, List.forall_mem_singleton] at constructor ⊢
    refine record_reverse [some (.str (Uuid.numbered 0).toText), some (.str "app.Car"), none, none,
      none, none, none, some (.array _), some (.array _), none] [] ?_ (by decide)
    exact .cons (.kept rfl) <| .cons (.kept rfl) <| .cons (.dropped rfl) <| .cons (.dropped rfl) <|
      .cons (.dropped rfl) <| .cons (.dropped rfl) <| .cons (.dropped rfl) <|
      .cons (.kept (Change.items_refl Change.field_refl _)) <|
      .cons (.kept ⟨.cons constructor .nil⟩) <| .cons (.dropped rfl) .nil
  simp only [specimen, List.forall_mem_singleton] at type
  refine record_reverse [some (.str "app"), none, some (.array _), none]
    [("limit", .num (.decimal ['1', 'e', '4', '0', '0']))] ?_ (by decide)
  exact .cons (.kept rfl) <| .cons (.dropped rfl) <| .cons (.kept ⟨.cons type .nil⟩) <|
    .cons (.dropped rfl) .nil

lemma legible_edited : edited.Legible := by
  have limit : (Json.Number.decimal ['1', 'e', '4', '0', '0']).Legible := by
    have one : Json.Number.Whole ['1'] :=
      ⟨⟨nofun, List.all_eq_true.1 rfl⟩, by decide⟩
    have power : Json.Number.Exponent ['e', '4', '0', '0'] :=
      .plain (.inl rfl) ⟨nofun, List.all_eq_true.1 rfl⟩
    exact .decimal (.inl rfl) one .none power nofun
  have store : editedStore.Legible :=
    legible_tagged (Json.legible_ofMembers.2 (by simp [Json.legible_bool, Json.legible_str]))
  have constructor : editedConstructor.Legible :=
    Json.legible_ofMembers.2 (by simp [Json.legible_array, Json.legible_str, legible_instr, store])
  have type : editedClass.Legible :=
    Json.legible_ofMembers.2 (by
      simp [Json.legible_array, Json.legible_str, specimen, legible_field, constructor])
  exact Json.legible_ofMembers.2 (by
    simp [Json.legible_array, Json.legible_str, Json.legible_num, limit, type])

/-- The file of the specimen. -/
def showroom : Session where
  files := { entries := [(["car.pwm"], .file specimen.toBytes)] }
  supply := ⟨Uuid.numbered, 1⟩

/-- The file of what has been shown of the specimen. -/
def workshop : Session where
  files :=
    { entries :=
        [(["car.json"],
          .file (Bytes.ofText (run ["inspect", "car.pwm", "--json"] showroom).stdout))] }
  supply := ⟨Uuid.numbered, 1⟩

/-- The specimen is read from its edited description. Shown and made again, it has the same module
section. -/
theorem description_roundTrip_specimen :
    (Json.ofText? edited.compact).bind (Module.ofJson? · ⟨Uuid.numbered, 1⟩)
        = some (specimen.module, ⟨Uuid.numbered, 1⟩) ∧
      ∃ bytes, (run ["assemble", "car.json", "--output", "new.pwm"] workshop).files.read "new.pwm"
          = .ok bytes ∧ Artifact.moduleBytes bytes = Artifact.moduleBytes specimen.toBytes := by
  obtain ⟨reads, written, _, again⟩ := description_roundTrip specimen.module
  have fits : specimen.Fits := ⟨by decide +kernel, by decide +kernel⟩
  refine ⟨reads _ _ (written edited harmless_edited legible_edited).1, ?_⟩
  have shows : Shows ["inspect", "car.pwm", "--json"] "car.pwm" := ⟨none, rfl⟩
  have makes : Makes ["assemble", "car.json", "--output", "new.pwm"] "car.json" "new.pwm" :=
    ⟨none, rfl⟩
  obtain ⟨_, _, bytes, read, _, _, same⟩ := again _ _ showroom workshop _ _ _ _ specimen.symbols _
    shows rfl rfl (Artifact.ofBytes_toBytes fits) makes rfl rfl
  exact ⟨bytes, read, same specimen fits rfl⟩

end Weaver.CommandLine
