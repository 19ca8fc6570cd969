import Weaver.PostCompile
import Weaver.Proofs.Artifact
import Weaver.Proofs.Files.Store
import Weaver.Proofs.Weave.Repeated

/-!
# The post-compile step on disk

Three things live here:

* the file that new bytes are staged in, of which nothing is left;
* what one step does to the files: nothing, unless it has woven a module; then it has replaced the
  bytes of that one artifact;
* sequences of steps, in which the bytes of a file change at most once, since the second step finds
  the stamp.
-/

namespace Weaver

/-! ## Staging -/

namespace FileStore

variable {store : FileStore} {path staging : String} {place : List String} {bytes : List UInt8}

/-- A staged file can be taken back: what is left is the store without it. Moved elsewhere, it is as
if it had been written there. -/
lemma staged_eq {staged : FileStore} (path : String) (free : store.isFile staging = false)
    (written : store.write staging bytes = .ok staged) :
    staged.remove staging = store ∧ staged.rename staging path = store.write path bytes := by
  have there := read_of_write written
  obtain ⟨here, located, -, open_end, no_directory, rfl⟩ := write_eq_ok written
  have still : (store.put here bytes).locate staging = .ok here := locate_put located no_directory
  have none_here : store.entry? here = none := by
    cases standing : store.entry? here with
    | none => rfl
    | some entry =>
      cases entry with
      | directory => exact absurd standing no_directory
      | file old =>
        have file := isFile_iff.2 ⟨old, read_eq_ok_iff.2 ⟨here, located, standing, open_end⟩⟩
        rw [free] at file
        cases file
  have erased : (store.put here bytes).erase here = store := by
    rw [erase_put, erase_of_entry?_eq_none none_here]
  refine ⟨?_, ?_⟩
  · rw [remove, there, still]
    exact erased
  · rw [rename, there, still]
    dsimp only [bind, Except.bind]
    rw [erased]

/-- Bytes are replaced or the files are as they were. -/
lemma replace_cases (free : ∀ staging ∈ stagingPath? path, store.isFile staging = false)
    (located : store.locate path = .ok place) (bytes : List UInt8) :
    (∃ e, store.replace path bytes = (.error e, store)) ∨
      store.replace path bytes = (.ok (), store.put place bytes) := by
  rw [replace]
  cases named : stagingPath? path with
  | none => exact .inl ⟨_, rfl⟩
  | some staging =>
    dsimp only
    cases written : store.write staging bytes with
    | error e => exact .inl ⟨_, rfl⟩
    | ok staged =>
      obtain ⟨removed, renamed⟩ := staged_eq path (free staging named) written
      dsimp only
      rw [removed, renamed]
      cases moved : store.write path bytes with
      | error e => exact .inl ⟨_, rfl⟩
      | ok after =>
        obtain ⟨place', located', -, -, -, rfl⟩ := write_eq_ok moved
        rw [located] at located'
        injection located' with same
        rw [same]
        exact .inr rfl

/-- How the weave of an artifact ends: the files are as they were, or the module was woven and the
bytes of the artifact were replaced. -/
lemma weaveArtifact_cases (options : WeaveOptions) (supply : IdSupply)
    (free : ∀ staging ∈ stagingPath? path, store.isFile staging = false) :
    (∃ outcome rest, store.weaveArtifact path options supply = (outcome, store, rest) ∧
        ∀ report, outcome ≠ .ok (.woven report)) ∨
      ∃ report place old found woven rest,
        store.weaveArtifact path options supply =
          (.ok (.woven report), store.put place { found with module := woven }.toBytes, rest) ∧
        store.locate path = .ok place ∧ store.read path = .ok old ∧
        Artifact.ofBytes old = .ok found ∧
        found.module.weave options supply = .ok (.woven report, woven, rest) := by
  rw [weaveArtifact]
  cases read : store.read path with
  | error e => exact .inl ⟨_, _, rfl, nofun⟩
  | ok old =>
    dsimp only
    cases decoded : Artifact.ofBytes old with
    | error e => exact .inl ⟨_, _, rfl, nofun⟩
    | ok found =>
      dsimp only
      match ended : found.module.weave options supply with
      | .error e => exact .inl ⟨_, _, rfl, nofun⟩
      | .ok (.alreadyWoven, _, _) => exact .inl ⟨_, _, rfl, nofun⟩
      | .ok (.nothingToWeave, _, _) => exact .inl ⟨_, _, rfl, nofun⟩
      | .ok (.woven report, woven, rest) =>
        obtain ⟨place, located, standing, open_end⟩ := read_eq_ok_iff.1 read
        dsimp only
        rcases replace_cases free located { found with module := woven }.toBytes with
          ⟨e, failed⟩ | replaced
        · rw [failed]
          exact .inl ⟨_, _, rfl, nofun⟩
        · rw [replaced]
          exact .inr ⟨report, place, old, found, woven, rest, rfl, located, rfl, decoded, ended⟩

end FileStore

/-! ## Runs of the step -/

/-- One of a sequence of steps: the unit, the settings of the build, and where identifiers come
from. -/
structure BuildCall where
  unit : CompiledUnit
  settings : Settings := {}
  supply : IdSupply

/-- What one of a sequence of steps has done: the files before it, how it ended, and the files
after it. -/
structure BuildRun where
  call : BuildCall
  before : FileStore
  outcome : Except WeaveError StepOutcome
  after : FileStore

namespace BuildCall

/-- Where the artifact of a step is. -/
def path (c : BuildCall) : String := c.unit.artifactPath

/-- No file stands where the step stages its artifact. -/
def Unstaged (c : BuildCall) (store : FileStore) : Prop :=
  ∀ staging ∈ stagingPath? c.path, store.isFile staging = false

/-- Runs the step. -/
def run (c : BuildCall) (store : FileStore) : BuildRun :=
  let (outcome, after, _) := c.unit.postCompile c.settings store c.supply
  { call := c, before := store, outcome, after }

end BuildCall

/-- Runs one step after another. -/
def buildAll : FileStore → List BuildCall → List BuildRun
  | _, [] => []
  | store, c :: rest => c.run store :: buildAll (c.run store).after rest

/-- A unit that has nothing to do with injection: it is the support module, has errors, or does not
refer to the support module. -/
def CompiledUnit.Irrelevant (u : CompiledUnit) (settings : Settings) : Prop :=
  u.name = settings.supportModule ∨ 0 < u.errorCount ∨ settings.supportModule ∉ u.references

/-- The step has replaced the artifact at a place by what a weave has made of its module. -/
structure BuildRun.Commits (r : BuildRun) (report : WeaveReport) (place : List String)
    (found left : Artifact) : Prop where
  located : r.before.locate r.call.path = .ok place
  decoded : ∃ bytes, r.before.read r.call.path = .ok bytes ∧ Artifact.ofBytes bytes = .ok found
  woven : ∃ rest, found.module.weave (r.call.settings.weaveOptions r.call.unit.editorOnly)
    r.call.supply = .ok (.woven report, left.module, rest)
  symbols : left.symbols = found.symbols
  written : r.after.read r.call.path = .ok left.toBytes
  /-- The sizes of the sections have to fit the format. -/
  decodes : left.Fits → Artifact.ofBytes left.toBytes = .ok left
  /-- A module that does not fit is not what the artifact is read as. -/
  fits_of_decodes : Artifact.ofBytes left.toBytes = .ok left →
    (Module.codec.encode left.module).length < 2 ^ 32
  elsewhere : ∀ other, other ≠ place → r.after.entry? other = r.before.entry? other

/-- The step has done everything or nothing. -/
structure BuildRun.AllOrNothing (r : BuildRun) : Prop where
  untouched : (∀ report, r.outcome ≠ .ok (.processed (.woven report))) → r.after = r.before
  committed : ∀ report, r.outcome = .ok (.processed (.woven report)) →
    ∃ place found left, r.Commits report place found left
  unstaged : r.call.Unstaged r.after
  skipped_iff : (∃ reason, r.outcome = .ok (.skipped reason)) ↔
    r.call.unit.Irrelevant r.call.settings
  /-- The artifact of a unit that is skipped is not looked at: the outcome would be the same
  whatever the files were. -/
  unread : r.call.unit.Irrelevant r.call.settings →
    ∀ store, (r.call.run store).outcome = r.outcome

namespace CompiledUnit

variable {u : CompiledUnit} {settings : Settings}

lemma skipReason?_eq_none_iff : u.skipReason? settings = none ↔ ¬u.Irrelevant settings := by
  rw [skipReason?, Irrelevant]
  split
  · next support => exact ⟨nofun, fun relevant => absurd (.inl support) relevant⟩
  split
  · next errors => exact ⟨nofun, fun relevant => absurd (.inr (.inl errors)) relevant⟩
  next support errors =>
  cases related : u.references.contains settings.supportModule with
  | false =>
    have unrelated : settings.supportModule ∉ u.references := by
      rw [← List.contains_iff_mem, related]
      exact Bool.false_ne_true
    exact ⟨nofun, fun relevant => absurd (.inr (.inr unrelated)) relevant⟩
  | true =>
    refine ⟨fun _ irrelevant => ?_, fun _ => rfl⟩
    rcases irrelevant with is_support | has_errors | unrelated
    · exact support is_support
    · exact errors has_errors
    · exact unrelated (List.contains_iff_mem.1 related)

lemma exists_skipReason? (irrelevant : u.Irrelevant settings) :
    ∃ reason, u.skipReason? settings = some reason := by
  cases skip : u.skipReason? settings with
  | none => exact absurd irrelevant (skipReason?_eq_none_iff.1 skip)
  | some reason => exact ⟨reason, rfl⟩

end CompiledUnit

namespace BuildCall

variable {c : BuildCall} {store : FileStore}

@[simp] lemma call_run (c : BuildCall) (store : FileStore) : (c.run store).call = c :=
  rfl

@[simp] lemma before_run (c : BuildCall) (store : FileStore) : (c.run store).before = store :=
  rfl

/-- A step for an irrelevant unit skips it, whatever the files are. -/
lemma run_of_skipReason? {reason : SkipReason}
    (skip : c.unit.skipReason? c.settings = some reason) :
    c.run store = ⟨c, store, .ok (.skipped reason), store⟩ := by
  rw [run, CompiledUnit.postCompile, skip]

/-- How a step for a relevant unit ends: without a woven module, and the files are as they were, or
it has committed what the weave has made. -/
lemma run_cases (unstaged : c.Unstaged store) (relevant : ¬c.unit.Irrelevant c.settings) :
    ∃ outcome : Except WeaveError WeaveOutcome, (c.run store).outcome = outcome.map .processed ∧
      ((∀ report, outcome ≠ .ok (.woven report)) ∧ (c.run store).after = store ∨
        ∃ report place found left, outcome = .ok (.woven report) ∧
          (c.run store).Commits report place found left ∧
          store.Rewritten (c.run store).after place left.toBytes) := by
  have relevant := CompiledUnit.skipReason?_eq_none_iff.2 relevant
  rcases FileStore.weaveArtifact_cases (c.settings.weaveOptions c.unit.editorOnly) c.supply
    unstaged with
    ⟨outcome, rest, ended, unwoven⟩ |
    ⟨report, place, old, found, woven, rest, ended, located, read, decoded, ran⟩
  · have run : c.run store = ⟨c, store, outcome.map .processed, store⟩ := by
      rw [BuildCall.run, CompiledUnit.postCompile, relevant]
      dsimp only
      rw [← path, ended]
    rw [run]
    exact ⟨outcome, rfl, .inl ⟨unwoven, rfl⟩⟩
  · obtain ⟨place', located', standing, open_end⟩ := FileStore.read_eq_ok_iff.1 read
    have same : place' = place := by
      rw [located] at located'
      injection located' with same
      exact same.symm
    rw [same] at standing
    have rewritten := FileStore.rewritten_put standing { found with module := woven }.toBytes
    have run : c.run store = ⟨c, store, .ok (.processed (.woven report)),
        store.put place { found with module := woven }.toBytes⟩ := by
      rw [BuildCall.run, CompiledUnit.postCompile, relevant]
      dsimp only
      rw [← path, ended]
      rfl
    rw [run]
    have commits : (⟨c, store, .ok (.processed (.woven report)),
        store.put place { found with module := woven }.toBytes⟩ : BuildRun).Commits report place
          found { found with module := woven } :=
      { located
        decoded := ⟨old, read, decoded⟩
        woven := ⟨rest, ran⟩
        symbols := rfl
        written := rewritten.read_eq located open_end
        decodes := Artifact.ofBytes_toBytes
        fits_of_decodes := Artifact.length_lt_of_ofBytes
        elsewhere := rewritten.elsewhere }
    exact ⟨.ok (.woven report), rfl, .inr ⟨report, place, found, _, rfl, commits, rewritten⟩⟩

/-- What a step changes is at most the bytes of one file. -/
lemma after_cases (unstaged : c.Unstaged store) :
    (c.run store).after = store ∨
      ∃ place bytes, store.Rewritten (c.run store).after place bytes := by
  by_cases irrelevant : c.unit.Irrelevant c.settings
  · obtain ⟨reason, skip⟩ := CompiledUnit.exists_skipReason? irrelevant
    rw [run_of_skipReason? skip]
    exact .inl rfl
  · obtain ⟨outcome, -, ⟨-, same⟩ | ⟨_, place, _, left, -, -, rewritten⟩⟩ :=
      c.run_cases unstaged irrelevant
    · exact .inl same
    · exact .inr ⟨place, left.toBytes, rewritten⟩

/-- A step creates no file and removes none. -/
lemma isFile_after (unstaged : c.Unstaged store) (path : String) :
    (c.run store).after.isFile path = store.isFile path := by
  rcases c.after_cases unstaged with same | ⟨place, bytes, rewritten⟩
  · rw [same]
  · exact rewritten.isFile_eq

lemma Unstaged.after {d : BuildCall} (free : d.Unstaged store) (unstaged : c.Unstaged store) :
    d.Unstaged (c.run store).after := by
  intro staging named
  rw [isFile_after unstaged, free staging named]

lemma allOrNothing_run (unstaged : c.Unstaged store) : (c.run store).AllOrNothing := by
  have still := unstaged.after unstaged
  by_cases irrelevant : c.unit.Irrelevant c.settings
  · obtain ⟨reason, skip⟩ := CompiledUnit.exists_skipReason? irrelevant
    rw [run_of_skipReason? skip] at still ⊢
    exact
      { untouched := fun _ => rfl
        committed := nofun
        unstaged := still
        skipped_iff := ⟨fun _ => irrelevant, fun _ => ⟨reason, rfl⟩⟩
        unread := fun _ other => by rw [run_of_skipReason? skip] }
  · obtain ⟨outcome, ended, effect⟩ := c.run_cases unstaged irrelevant
    have processed : ∀ o, (c.run store).outcome = .ok o →
        ∃ w, outcome = .ok w ∧ o = .processed w := by
      intro o ok
      rw [ended] at ok
      cases outcome with
      | error e => cases ok
      | ok w =>
        injection ok with same
        exact ⟨w, rfl, same.symm⟩
    refine ⟨fun unwoven => ?_, fun report woven => ?_, still, ⟨fun skipped => ?_, fun absurd => ?_⟩,
      fun absurd => ?_⟩
    · rcases effect with ⟨-, same⟩ | ⟨report, -, -, -, rfl, -⟩
      · exact same
      · exact absurd ended (unwoven report)
    · obtain ⟨w, ok, same⟩ := processed _ woven
      injection same with same
      rw [← same] at ok
      rcases effect with ⟨unwoven, -⟩ | ⟨report', place, found, left, ok', commits, -⟩
      · exact absurd ok (unwoven report)
      · rw [ok] at ok'
        injection ok' with same
        injection same with same
        rw [same]
        exact ⟨place, found, left, commits⟩
    · obtain ⟨reason, skipped⟩ := skipped
      obtain ⟨w, -, absurd⟩ := processed _ skipped
      cases absurd
    · exact False.elim (irrelevant absurd)
    · exact False.elim (irrelevant absurd)

end BuildCall

/-! ## Sequences of steps -/

/-- The file at a place is an artifact to whose module nothing can be added any more. -/
def FileStore.IsSpent (store : FileStore) (place : List String) : Prop :=
  ∃ bytes artifact, store.entry? place = some (.file bytes) ∧
    Artifact.ofBytes bytes = .ok artifact ∧ artifact.module.Spent

/-- The step leaves no artifact of four gigabytes or more, whose sections might not fit the
format. -/
def BuildRun.Small (r : BuildRun) : Prop :=
  ∀ bytes ∈ (r.after.read r.call.path).toOption, bytes.length < 2 ^ 32

instance (r : BuildRun) : Decidable r.Small :=
  inferInstanceAs (Decidable (∀ bytes ∈ (r.after.read r.call.path).toOption, bytes.length < 2 ^ 32))

/-- A small artifact fits the format. -/
lemma BuildRun.Commits.fits {r : BuildRun} {report : WeaveReport} {place : List String}
    {found left : Artifact} (commits : r.Commits report place found left) (small : r.Small) :
    left.Fits := by
  have size : left.toBytes.length < 2 ^ 32 :=
    small _ (by rw [commits.written]; rfl)
  rw [Artifact.toBytes_eq, List.length_append, List.length_append, Artifact.length_header] at size
  simp only [Artifact.sectionBytes, Artifact.word, List.length_append, Bytes.length_ofNat,
    Artifact.headerSize] at size
  exact ⟨by omega, by omega⟩

/-- Whether the step has changed what stands at a place. -/
def BuildRun.changes (r : BuildRun) (place : List String) : Bool :=
  r.after.entry? place != r.before.entry? place

namespace BuildCall

variable {c : BuildCall} {store : FileStore} {place : List String}

/-- A step leaves a spent artifact as it is. -/
lemma entry?_after_of_isSpent (unstaged : c.Unstaged store) (spent : store.IsSpent place) :
    (c.run store).after.entry? place = store.entry? place := by
  by_cases irrelevant : c.unit.Irrelevant c.settings
  · obtain ⟨reason, skip⟩ := CompiledUnit.exists_skipReason? irrelevant
    rw [run_of_skipReason? skip]
  obtain ⟨outcome, -, ⟨-, same⟩ | ⟨report, there, found, left, -, commits, rewritten⟩⟩ :=
    c.run_cases unstaged irrelevant
  · rw [same]
  · refine rewritten.elsewhere place ?_
    rintro rfl
    obtain ⟨bytes, artifact, standing, decoded, spent⟩ := spent
    obtain ⟨bytes', read, decoded'⟩ := commits.decoded
    obtain ⟨there, located, standing', -⟩ := FileStore.read_eq_ok_iff.1 read
    have same_place : there = place := by
      rw [commits.located] at located
      injection located with same
      exact same.symm
    have same_bytes : bytes' = bytes := by
      rw [same_place] at standing'
      rw [before_run, standing] at standing'
      injection standing' with same
      injection same with same
      exact same.symm
    rw [same_bytes, decoded] at decoded'
    injection decoded' with same
    rw [same] at spent
    obtain ⟨rest, woven⟩ := commits.woven
    rcases weave_of_spent spent _ _ with again | ⟨-, _, _, refused⟩
    · rw [woven] at again
      cases again
    · rw [woven] at refused
      cases refused

/-- An artifact that a step changes is spent from then on. -/
lemma isSpent_of_changes (unstaged : c.Unstaged store) (small : (c.run store).Small)
    (changes : (c.run store).changes place) : (c.run store).after.IsSpent place := by
  have changed : (c.run store).after.entry? place ≠ store.entry? place := bne_iff_ne.1 changes
  by_cases irrelevant : c.unit.Irrelevant c.settings
  · obtain ⟨reason, skip⟩ := CompiledUnit.exists_skipReason? irrelevant
    rw [run_of_skipReason? skip] at changed
    exact absurd rfl changed
  obtain ⟨outcome, -, ⟨-, same⟩ | ⟨report, there, found, left, -, commits, rewritten⟩⟩ :=
    c.run_cases unstaged irrelevant
  · rw [same] at changed
    exact absurd rfl changed
  · have here : place = there := by
      by_contra elsewhere
      exact changed (rewritten.elsewhere place elsewhere)
    obtain ⟨rest, woven⟩ := commits.woven
    refine ⟨left.toBytes, left, by rw [here, rewritten.here],
      commits.decodes (commits.fits small), ?_⟩
    rcases weave_cases woven with ⟨absurd, -⟩ | ⟨absurd, -⟩ | ⟨_, d, -, some, added, types⟩
    · cases absurd
    · cases absurd
    · exact (Draft.spent_of_addAll rfl some added).of_types types

end BuildCall

section Sequences

variable {store : FileStore} {calls : List BuildCall} {place : List String} {r : BuildRun}

/-- The steps after the first start without staged files as well. -/
lemma unstaged_rest {c : BuildCall} (unstaged : ∀ d ∈ c :: calls, d.Unstaged store) :
    ∀ d ∈ calls, d.Unstaged (c.run store).after := fun d later =>
  (unstaged d (List.mem_cons_of_mem c later)).after (unstaged c List.mem_cons_self)

/-- A fact about every step is one about every step of a sequence. -/
lemma forall_mem_buildAll {p : BuildRun → Prop}
    (step : ∀ (c : BuildCall) store, c.Unstaged store → p (c.run store))
    (unstaged : ∀ c ∈ calls, c.Unstaged store) (member : r ∈ buildAll store calls) : p r := by
  induction calls generalizing store with
  | nil => cases member
  | cons c rest ih =>
    rcases List.mem_cons.1 member with rfl | later
    · exact step c store (unstaged c List.mem_cons_self)
    · exact ih (unstaged_rest unstaged) later

/-- No step of a sequence creates a file or removes one. -/
lemma isFile_of_mem_buildAll (unstaged : ∀ c ∈ calls, c.Unstaged store)
    (member : r ∈ buildAll store calls) (path : String) :
    r.after.isFile path = store.isFile path := by
  induction calls generalizing store with
  | nil => cases member
  | cons c rest ih =>
    have first := BuildCall.isFile_after (unstaged c List.mem_cons_self) path
    rcases List.mem_cons.1 member with rfl | later
    · exact first
    · rw [ih (unstaged_rest unstaged) later, first]

/-- No step of a sequence changes a spent artifact. -/
lemma changes_eq_false_of_isSpent (unstaged : ∀ c ∈ calls, c.Unstaged store)
    (spent : store.IsSpent place) (member : r ∈ buildAll store calls) :
    r.changes place = false := by
  induction calls generalizing store with
  | nil => cases member
  | cons c rest ih =>
    have same := BuildCall.entry?_after_of_isSpent (unstaged c List.mem_cons_self) spent
    rcases List.mem_cons.1 member with rfl | later
    · exact bne_eq_false_iff_eq.2 same
    · refine ih (unstaged_rest unstaged) ?_ later
      rw [FileStore.IsSpent, same]
      exact spent

/-- After a step that changes what stands at a place, no step does. -/
lemma pairwise_buildAll (unstaged : ∀ c ∈ calls, c.Unstaged store)
    (small : ∀ r ∈ buildAll store calls, r.Small) (place : List String) :
    (buildAll store calls).Pairwise fun first later =>
      first.changes place → later.changes place = false := by
  induction calls generalizing store with
  | nil => exact .nil
  | cons c rest ih =>
    rw [buildAll, List.pairwise_cons]
    have later := unstaged_rest unstaged
    refine ⟨fun r member changes => ?_, ?_⟩
    · have spent := BuildCall.isSpent_of_changes (unstaged c List.mem_cons_self)
        (small _ List.mem_cons_self) changes
      exact changes_eq_false_of_isSpent later spent member
    · exact ih later fun r member => small r (List.mem_cons_of_mem _ member)

/-- However many steps a build takes, of whatever units and with whatever settings, starting with no
file where one of them stages its artifact. Every step does everything or nothing: the files stay as
they are unless it has woven a module; then the artifact alone is another, and is read as what the
weave has made of its module, with the symbols it had, if its sections fit the format, and not if
this module does not. Irrelevant units are skipped whatever their artifacts are. No file is created
or removed, so nothing that was staged is left. And what stands at a place changes at most once, if
no artifact gets as large as four gigabytes. -/
theorem buildAll_allOrNothing (store : FileStore) (calls : List BuildCall)
    (unstaged : ∀ c ∈ calls, c.Unstaged store) :
    (∀ r ∈ buildAll store calls,
      r.AllOrNothing ∧ ∀ path, r.after.isFile path = store.isFile path) ∧
    ((∀ r ∈ buildAll store calls, r.Small) →
      ∀ place, (buildAll store calls).countP (·.changes place) ≤ 1) := by
  refine ⟨fun r member => ⟨?_, isFile_of_mem_buildAll unstaged member⟩, fun small place => ?_⟩
  · exact forall_mem_buildAll (fun _ _ => BuildCall.allOrNothing_run) unstaged member
  · exact countP_le_one_of_pairwise (pairwise_buildAll unstaged small place)

end Sequences

/-- A directory with an artifact whose class has a marked field. -/
def carStore : FileStore where
  entries :=
    [(["out"], .directory), (["out", "app.pwm"], .file Artifact.specimen.toBytes)]

/-- Three steps for this artifact, the first of which finds that the unit has an error. -/
def carBuild : List BuildCall :=
  let unit : CompiledUnit :=
    { name := "app", artifactPath := "out/app.pwm", references := [supportModule] }
  [{ unit := { unit with errorCount := 1 }, supply := lampIds },
    { unit, supply := lampIds },
    { unit := { unit with artifactPath := "./out//app.pwm" }, supply := lampIds }]

/-- How the steps end. -/
def carOutcomes : List (Except WeaveError StepOutcome) :=
  [.ok (.skipped (.compilationErrors 1)),
    .ok (.processed (.woven
      { module := "app", registrar := "app.PrewireRegistrar", factories := []
        injectors := ["app.Car"] })),
    .ok (.processed .alreadyWoven)]

/-- The artifact is woven by the second step, and the third finds its stamp. -/
theorem buildAll_allOrNothing_car :
    (∀ c ∈ carBuild, c.Unstaged carStore) ∧
      (buildAll carStore carBuild).map (·.outcome) = carOutcomes ∧
      (∀ r ∈ buildAll carStore carBuild, r.AllOrNothing) ∧
      (buildAll carStore carBuild).countP (·.changes ["out", "app.pwm"]) ≤ 1 := by
  have unstaged : ∀ c ∈ carBuild, c.Unstaged carStore := by
    have staging : ∀ c ∈ carBuild, stagingPath? c.path = some "out/app.pwm.weaving" ∨
        stagingPath? c.path = some "./out/app.pwm.weaving" := by
      decide +kernel
    intro c member path named
    rcases staging c member with same | same
    · rw [same] at named
      injection named with named
      rw [← named]
      decide +kernel
    · rw [same] at named
      injection named with named
      rw [← named]
      decide +kernel
  have whole := buildAll_allOrNothing carStore carBuild unstaged
  have computed : (buildAll carStore carBuild).map (·.outcome) = carOutcomes ∧
      ∀ r ∈ buildAll carStore carBuild, r.Small := by
    decide +kernel
  exact ⟨unstaged, computed.1, fun r member => (whole.1 r member).1, whole.2 computed.2 _⟩

end Weaver
