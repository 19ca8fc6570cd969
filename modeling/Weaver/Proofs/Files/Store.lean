import Mathlib.Tactic.Common
import Weaver.Files.Store
import Weaver.Proofs.Lookups

/-!
# What file operations change

Three things live here:

* what stands at a place after a file is put there or what is there is removed;
* the places that paths lead to, which depend on the directories of a store only;
* reading, writing and moving files in terms of places, and what a path reads once the bytes of one
  file are others.
-/

namespace Weaver

namespace FileStore

variable {s s' : FileStore} {place other : List String} {path : String} {bytes : List UInt8}

/-! ## Entries -/

/-- A place where nothing stands has no entry to be removed. -/
lemma erase_of_entry?_eq_none (free : s.entry? place = none) : s.erase place = s := by
  rw [ entry?] at free
  split at free
  · cases free
  · rw [Option.map_eq_none_iff, List.find?_eq_none] at free
    have all_kept : s.entries.filter (·.1 != place) = s.entries := by
      rw [List.filter_eq_self]
      intro entry member
      rw [bne, Bool.not_eq_true', ← Bool.not_eq_true]
      exact free entry member
    rw [erase, all_kept]

/-- A file that is put somewhere and removed again takes what was there with it. -/
lemma erase_put : (s.put place bytes).erase place = s.erase place := by
  have twice : ((s.entries.filter (·.1 != place)) ++ [(place, FileEntry.file bytes)]).filter
      (·.1 != place) = s.entries.filter (·.1 != place) := by
    rw [List.filter_append, List.filter_filter, List.filter_singleton, bne_self_eq_false]
    simp only [Bool.and_self, Bool.cond_false, List.append_nil]
  simp only [put, erase, twice]

lemma entry?_erase_of_ne (ne : other ≠ place) : entry? (s.erase place) other = s.entry? other := by
  have passed : (s.entries.filter (·.1 != place)).find? (·.1 == other)
      = s.entries.find? (·.1 == other) := by
    rw [List.find?_filter]
    refine congrArg (s.entries.find? ·) (funext fun entry => ?_)
    cases here : entry.1 == other with
    | false => simp only [Bool.false_eq_true, and_false, decide_false]
    | true =>
      have ne' : entry.1 ≠ place := by rwa [eq_of_beq here]
      simp only [bne_iff_ne.2 ne', and_self, decide_true]
  rw [ entry?, entry?, erase, passed]

lemma entry?_put_of_ne (ne : other ≠ place) :
    entry? (s.put place bytes) other = s.entry? other := by
  have passed : (s.put place bytes).entries.find? (·.1 == other)
      = (s.erase place).entries.find? (·.1 == other) := by
    have last : ([(place, FileEntry.file bytes)] : List _).find? (·.1 == other) = none := by
      rw [List.find?_singleton, if_neg (by simpa using ne.symm)]
    rw [put, List.find?_append, last, Option.or_none]
  calc
    entry? (s.put place bytes) other = entry? (s.erase place) other := by
      simp only [ entry?, passed]
    _ = s.entry? other := entry?_erase_of_ne ne

/-- A file that is put where no directory is stands there. -/
lemma entry?_put_self (free : s.entry? place ≠ some .directory) :
    entry? (s.put place bytes) place = some (.file bytes) := by
  have absent : (s.erase place).entries.find? (·.1 == place) = none := by
    rw [List.find?_eq_none]
    intro entry member
    have ne := (List.mem_filter.1 member).2
    rw [bne, Bool.not_eq_true'] at ne
    rw [ne]
    exact Bool.false_ne_true
  rw [ entry?] at free ⊢
  split at free
  · exact absurd rfl free
  · next inside =>
    rw [if_neg inside, put, List.find?_append, absent, Option.none_or, List.find?_singleton,
      if_pos (beq_self_eq_true place)]
    rfl

/-! ## Places -/

/-- Components lead to the same place if there are no fewer directories. -/
lemma walk_of_directories
    (kept : ∀ place, s.entry? place = some .directory → s'.entry? place = some .directory)
    {names : List String} (there : s.walk place names = .ok other) :
    s'.walk place names = .ok other := by
  induction names generalizing place with
  | nil => exact there
  | cons name rest ih =>
    cases rest with
    | nil => exact there
    | cons name' rest =>
      rw [walk] at there ⊢
      · obtain ⟨⟨⟩, short, there⟩ := exists_of_bind_eq_ok there
        rw [short]
        dsimp only [bind, Except.bind]
        cases standing : s.entry? (enter place name) with
        | none =>
          rw [standing] at there
          cases there
        | some entry =>
          cases entry with
          | file bytes =>
            rw [standing] at there
            cases there
          | directory =>
            rw [standing] at there
            rw [kept _ standing]
            exact ih there
      · exact nofun
      · exact nofun

/-- A path leads to the same place if there are no fewer directories. -/
lemma approach_of_directories
    (kept : ∀ place, s.entry? place = some .directory → s'.entry? place = some .directory)
    (there : s.approach path = .ok place) : s'.approach path = .ok place := by
  rw [approach] at there ⊢
  split at there
  · cases there
  split at there
  · cases there
  split at there
  · cases there
  rw [if_neg ‹_›, if_neg ‹_›, if_neg ‹_›]
  exact walk_of_directories kept there

/-- A path names the same place if there are no fewer directories. -/
lemma locate_of_directories
    (kept : ∀ place, s.entry? place = some .directory → s'.entry? place = some .directory)
    (there : s.locate path = .ok place) : s'.locate path = .ok place := by
  obtain ⟨place', way, there⟩ := exists_of_bind_eq_ok there
  rw [locate, approach_of_directories kept way]
  exact there

/-! ## Operations -/

/-- When a path can be read: it names a place where a file stands, and does not end in a slash. -/
lemma read_eq_ok_iff : s.read path = .ok bytes ↔
    ∃ place, s.locate path = .ok place ∧ s.entry? place = some (.file bytes) ∧
      Path.endsInSlash path = false := by
  apply Iff.intro
  · intro ok
    obtain ⟨place, there, ok⟩ := exists_of_bind_eq_ok ok
    split at ok
    · cases ok
    · cases ok
    · next standing =>
      split at ok
      · cases ok
      · next open_end =>
        injection ok with same
        rw [same] at standing
        exact ⟨place, there, standing, Bool.eq_false_iff.2 open_end⟩
  · rintro ⟨place, there, standing, open_end⟩
    rw [read, there]
    dsimp only [bind, Except.bind]
    rw [standing]
    dsimp only
    rw [open_end]
    rfl

/-- When a path names a file. -/
lemma isFile_iff : s.isFile path = true ↔ ∃ bytes, s.read path = .ok bytes := by
  rw [isFile]
  split
  · next bytes ok => exact ⟨fun _ => ⟨bytes, ok⟩, fun _ => rfl⟩
  · next e failed =>
    apply Iff.intro
    · intro no
      cases no
    · rintro ⟨bytes, ok⟩
      rw [failed] at ok
      cases ok

/-- A write that succeeds puts a file at the place that the path leads to, where no directory is. -/
lemma write_eq_ok (ok : s.write path bytes = .ok s') :
    ∃ place, s.locate path = .ok place ∧ s.approach path = .ok place ∧
      Path.endsInSlash path = false ∧ s.entry? place ≠ some .directory ∧
      s' = s.put place bytes := by
  obtain ⟨place, way, ok⟩ := exists_of_bind_eq_ok ok
  dsimp only at ok
  split at ok
  · cases ok
  next open_end =>
  obtain ⟨⟨⟩, short, ok⟩ := exists_of_bind_eq_ok ok
  split at ok
  · cases ok
  next free =>
  injection ok with put
  refine ⟨place, ?_, way, Bool.eq_false_iff.2 open_end, free, put.symm⟩
  rw [locate, way]
  dsimp only [bind, Except.bind]
  rw [short]
  rfl

/-- A file that is put where a path leads is where the path leads to. -/
lemma locate_put (located : s.locate path = .ok place) (free : s.entry? place ≠ some .directory) :
    (s.put place bytes).locate path = .ok place := by
  refine locate_of_directories (fun other directory => ?_) located
  rw [entry?_put_of_ne, directory]
  rintro rfl
  exact free directory

/-- What has been written to a path is read from it. -/
lemma read_of_write (ok : s.write path bytes = .ok s') : s'.read path = .ok bytes := by
  obtain ⟨place, located, -, open_end, free, rfl⟩ := write_eq_ok ok
  exact read_eq_ok_iff.2 ⟨place, locate_put located free, entry?_put_self free, open_end⟩

/-! ## New bytes for a file -/

/-- The stores differ in nothing but the bytes of the file at one place. -/
structure Rewritten (s s' : FileStore) (place : List String) (bytes : List UInt8) : Prop where
  file : ∃ old, s.entry? place = some (.file old)
  here : s'.entry? place = some (.file bytes)
  elsewhere : ∀ other, other ≠ place → s'.entry? other = s.entry? other

lemma rewritten_put {old : List UInt8} (file : s.entry? place = some (.file old))
    (bytes : List UInt8) : s.Rewritten (s.put place bytes) place bytes where
  file := ⟨old, file⟩
  here := by
    refine entry?_put_self ?_
    rw [file]
    exact nofun
  elsewhere _ ne := entry?_put_of_ne ne

namespace Rewritten

lemma directory_iff (rewritten : s.Rewritten s' place bytes) :
    s'.entry? other = some .directory ↔ s.entry? other = some .directory := by
  by_cases same : other = place
  · obtain ⟨old, file⟩ := rewritten.file
    rw [same, rewritten.here, file]
    exact ⟨nofun, nofun⟩
  · rw [rewritten.elsewhere other same]

/-- Paths name the places that they named. -/
lemma locate_iff (rewritten : s.Rewritten s' place bytes) :
    s'.locate path = .ok other ↔ s.locate path = .ok other :=
  ⟨locate_of_directories fun _ => rewritten.directory_iff.1,
    locate_of_directories fun _ => rewritten.directory_iff.2⟩

/-- Paths name files where they named files. -/
lemma isFile_eq (rewritten : s.Rewritten s' place bytes) : s'.isFile path = s.isFile path := by
  rw [Bool.eq_iff_iff, isFile_iff, isFile_iff]
  simp only [read_eq_ok_iff, rewritten.locate_iff]
  obtain ⟨old, file⟩ := rewritten.file
  apply Iff.intro
  · rintro ⟨now, there, located, standing, open_end⟩
    by_cases same : there = place
    · exact ⟨old, there, located, by rw [same, file], open_end⟩
    · exact ⟨now, there, located, by rw [← rewritten.elsewhere there same, standing], open_end⟩
  · rintro ⟨before, there, located, standing, open_end⟩
    by_cases same : there = place
    · exact ⟨bytes, there, located, by rw [same, rewritten.here], open_end⟩
    · exact ⟨before, there, located, by rw [rewritten.elsewhere there same, standing], open_end⟩

/-- A path to the file reads the new bytes. -/
lemma read_eq (rewritten : s.Rewritten s' place bytes) (located : s.locate path = .ok place)
    (open_end : Path.endsInSlash path = false) : s'.read path = .ok bytes :=
  read_eq_ok_iff.2 ⟨place, rewritten.locate_iff.2 located, rewritten.here, open_end⟩

end Rewritten

end FileStore

end Weaver
