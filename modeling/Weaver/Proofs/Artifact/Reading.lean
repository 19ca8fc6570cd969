import Weaver.Proofs.Artifact

/-!
# Reading bytes of any origin

The header of an artifact says where its sections are, and each section says how long it is. In
bytes that no writer has made these numbers can be anything: sections may lie in the header, overlap
or reach past the end. The readers stay within the bytes all the same, and what can be wrong is looked
for in a fixed order.

Four things live here:

* `Artifact.wordAt_eq` and `Artifact.readSection_eq`, what is read in terms of sums and lengths;
* `Artifact.Check`, one step in the order of the checks, and `error?_ofBytes`, by which the first
  check that fails is the error;
* `Artifact.Reader`, the readers on a machine that stops at sums which its words cannot hold and at
  slices out of range, and `runs_ofBytes`, by which it is never stopped;
* `Artifact.Dependable` and `Artifact.dependable`, what is true of both readers on any bytes.
-/

namespace Weaver
namespace Artifact

variable {α β γ : Type} {codec : Codec α} {data data' : List UInt8} {slot offset : ℕ}

/-! ## Words and sections -/

/-- The number that the bytes at an offset stand for, four of them if so many are there. -/
def numberAt (data : List UInt8) (offset : ℕ) : ℕ :=
  Bytes.toNat ((data.drop offset).take 4)

/-- A word is there if its four bytes are. -/
lemma wordAt_eq (data : List UInt8) (offset : ℕ) :
    wordAt data offset = if offset + 4 ≤ data.length then .ok (numberAt data offset)
      else .error (.truncated (offset + 4) data.length) := by
  have there : ((data.drop offset).take 4).length = 4 ↔ offset + 4 ≤ data.length := by
    rw [List.length_take, List.length_drop]
    omega
  unfold wordAt
  dsimp only
  simp only [there]
  rfl

lemma wordAt_of_le (there : offset + 4 ≤ data.length) :
    wordAt data offset = .ok (numberAt data offset) := by
  rw [wordAt_eq, if_pos there]

/-- Where the bytes end that the section of a slot takes: behind its length, and if the length is
there, behind its content. -/
def sectionStop (slot : ℕ) (data : List UInt8) : ℕ :=
  let offset := numberAt data slot
  if data.length < offset + 4 then offset + 4 else offset + 4 + numberAt data offset

/-- The bytes behind the length of a section. -/
def sectionContent (slot : ℕ) (data : List UInt8) : List UInt8 :=
  (data.drop (numberAt data slot + 4)).take (numberAt data (numberAt data slot))

/-- A section is read if all of it is there. -/
lemma readSection_eq (codec : Codec α) (header : slot + 4 ≤ data.length) :
    readSection codec slot data =
      if data.length < sectionStop slot data then
        .error (.truncated (sectionStop slot data) data.length)
      else match codec.decode (sectionContent slot data) with
        | some (value, _) => .ok value
        | none => .error .undecodable := by
  unfold readSection sectionStop sectionContent
  simp only [wordAt_of_le header, bind, Except.bind]
  rw [wordAt_eq]
  by_cases short : data.length < numberAt data slot + 4
  · have missing : ¬numberAt data slot + 4 ≤ data.length := by omega
    simp only [if_neg missing, if_pos short]
  · have there : numberAt data slot + 4 ≤ data.length := by omega
    simp only [if_pos there, if_neg short]
    split
    · rfl
    · rfl

/-- A header passes if it is long enough, begins with the magic bytes and has the version. -/
lemma checkHeader_eq (data : List UInt8) : checkHeader data =
    if data.length < headerSize then .error (.truncated headerSize data.length)
    else if data.take 4 ≠ magic then .error .invalidMagic
    else if numberAt data 4 ≠ version then .error (.unsupportedVersion (numberAt data 4))
    else .ok () := by
  unfold checkHeader
  by_cases short : data.length < headerSize
  · simp only [if_pos short]
    rfl
  · have word : wordAt data 4 = .ok (numberAt data 4) :=
      wordAt_of_le (Nat.le_trans (by decide) (Nat.le_of_not_lt short))
    have start : (!isArtifact data) = true ↔ data.take 4 ≠ magic := by simp [isArtifact]
    simp only [if_neg short, start, word]
    split
    · rfl
    · rfl

/-! ## The order of the checks -/

/-- The error that reading ended in. -/
def error? : Except ArtifactError α → Option ArtifactError
  | .ok _ => none
  | .error e => some e

lemma error?_eq_some_iff {r : Except ArtifactError α} {e : ArtifactError} :
    error? r = some e ↔ r = .error e := by
  cases r <;> simp [error?]

/-- Of two things that can go wrong one after the other, the first is the error. -/
lemma error?_bind {r : Except ArtifactError α} {f : α → Except ArtifactError β}
    {second : Option ArtifactError} (next : ∀ a, r = .ok a → error? (f a) = second) :
    error? (r >>= f) = (error? r).or second := by
  cases r with
  | error e => rfl
  | ok a => exact next a rfl

/-- Something that can be wrong with bytes. -/
structure Check where
  /-- Where the bytes end that are looked at. -/
  stop : ℕ
  /-- What is wrong with them if all of them are there. -/
  flaw : Option ArtifactError

/-- What a check says of bytes of a length. -/
def Check.error? (c : Check) (length : ℕ) : Option ArtifactError :=
  if length < c.stop then some (.truncated c.stop length) else c.flaw

/-- The check of a section. -/
def Check.ofSection (codec : Codec α) (slot : ℕ) (data : List UInt8) : Check where
  stop := sectionStop slot data
  flaw := if (codec.decode (sectionContent slot data)).isNone then some .undecodable else none

/-- The checks of the header: its length, the magic bytes, the version. -/
def headerChecks (data : List UInt8) : List Check :=
  [⟨headerSize, none⟩,
    ⟨4, if data.take 4 = magic then none else some .invalidMagic⟩,
    ⟨8, if numberAt data 4 = version then none else some (.unsupportedVersion (numberAt data 4))⟩]

/-- The checks for the symbol table, in their order. -/
def symbolsChecks (data : List UInt8) : List Check :=
  headerChecks data ++ [.ofSection symbolsCodec symbolsSlot data]

/-- The checks for a whole artifact, in their order. -/
def checks (data : List UInt8) : List Check :=
  symbolsChecks data ++ [.ofSection Module.codec moduleSlot data]

/-- What the first check says that does not pass. -/
def firstError? (checks : List Check) (data : List UInt8) : Option ArtifactError :=
  checks.findSome? (·.error? data.length)

lemma firstError?_append (first second : List Check) (data : List UInt8) :
    firstError? (first ++ second) data = (firstError? first data).or (firstError? second data) :=
  List.findSome?_append

lemma error?_checkHeader (data : List UInt8) :
    error? (checkHeader data) = firstError? (headerChecks data) data := by
  rw [checkHeader_eq]
  unfold firstError? headerChecks Check.error?
  by_cases short : data.length < headerSize
  · simp [short, error?]
  have long : 16 ≤ data.length := Nat.le_of_not_lt short
  have enough : ¬data.length < 4 ∧ ¬data.length < 8 := by omega
  by_cases start : data.take 4 = magic
  · by_cases known : numberAt data 4 = version
    · simp [short, enough, start, known, error?]
    · simp [short, enough, start, known, error?]
  · simp [short, enough, start, error?]

/-- Behind a header that passes its checks there is room for every slot. -/
lemma headerSize_le_of_checkHeader (ok : checkHeader data = .ok ()) :
    headerSize ≤ data.length := by
  by_contra short
  rw [checkHeader_eq, if_pos (Nat.lt_of_not_le short)] at ok
  cases ok

lemma error?_readSection (codec : Codec α) (header : slot + 4 ≤ data.length) :
    error? (readSection codec slot data)
      = (Check.ofSection codec slot data).error? data.length := by
  rw [readSection_eq codec header, Check.error?, Check.ofSection]
  dsimp only
  split
  · rfl
  · cases codec.decode (sectionContent slot data) <;> rfl

/-- A section is checked when the header has passed. -/
lemma error?_readSection_of_checkHeader (codec : Codec α) (room : slot + 4 ≤ headerSize)
    (ok : checkHeader data = .ok ()) : error? (readSection codec slot data)
      = firstError? [.ofSection codec slot data] data := by
  have header : slot + 4 ≤ data.length := Nat.le_trans room (headerSize_le_of_checkHeader ok)
  rw [error?_readSection codec header, firstError?, List.findSome?_singleton]

/-- The symbol table is refused for the first of its checks that does not pass. -/
lemma error?_readSymbols (data : List UInt8) :
    error? (readSymbols data) = firstError? (symbolsChecks data) data := by
  unfold readSymbols symbolsChecks
  rw [firstError?_append, ← error?_checkHeader]
  apply error?_bind
  intro u ok
  exact error?_readSection_of_checkHeader symbolsCodec (by decide) ok

/-- An artifact is read by reading its symbol table and then its module. -/
lemma ofBytes_eq (data : List UInt8) : ofBytes data = readSymbols data >>= fun symbols =>
    readSection Module.codec moduleSlot data >>= fun module => pure { module, symbols } := by
  unfold ofBytes readSymbols
  rw [bind_assoc]

lemma checkHeader_of_readSymbols {symbols : List SymbolEntry}
    (ok : readSymbols data = .ok symbols) : checkHeader data = .ok () := by
  obtain ⟨_, checked, -⟩ := exists_of_bind_eq_ok ok
  exact checked

/-- An artifact is refused for the first of its checks that does not pass. -/
lemma error?_ofBytes (data : List UInt8) :
    error? (ofBytes data) = firstError? (checks data) data := by
  unfold checks
  rw [ofBytes_eq, firstError?_append, ← error?_readSymbols]
  apply error?_bind
  intro symbols ok
  have header := checkHeader_of_readSymbols ok
  have rest : error? (readSection Module.codec moduleSlot data >>= fun module =>
      pure (⟨module, symbols⟩ : Artifact)) = (error? (readSection Module.codec moduleSlot data)).or
        none := error?_bind fun _ _ => rfl
  rw [rest, Option.or_none]
  exact error?_readSection_of_checkHeader Module.codec (by decide) header

/-- No check but the one for missing bytes reports missing bytes. -/
lemma flaw_ne_truncated {c : Check} (member : c ∈ checks data) (expected got : ℕ) :
    c.flaw ≠ some (.truncated expected got) := by
  simp only [checks, symbolsChecks, headerChecks, List.mem_append, List.mem_cons, List.not_mem_nil,
    or_false, or_assoc] at member
  rcases member with rfl | rfl | rfl | rfl | rfl
  · simp
  · dsimp only
    split <;> simp
  · dsimp only
    split <;> simp
  all_goals
    unfold Check.ofSection
    dsimp only
    split <;> simp

/-- Bytes are reported missing when the first check that does not pass needs more than there are. -/
lemma firstError?_eq_truncated_iff {checks : List Check} {expected got : ℕ}
    (flaws : ∀ c ∈ checks, c.flaw ≠ some (.truncated expected got)) :
    firstError? checks data = some (.truncated expected got) ↔
      got = data.length ∧ data.length < expected ∧ ∃ before c after,
        checks = before ++ c :: after ∧ (∀ b ∈ before, b.error? data.length = none) ∧
          c.stop = expected := by
  rw [firstError?, List.findSome?_eq_some_iff]
  constructor
  · rintro ⟨before, c, after, rfl, refused, passed⟩
    unfold Check.error? at refused
    split at refused
    next short =>
      cases refused
      exact ⟨rfl, short, before, c, after, rfl, passed, rfl⟩
    · exact absurd refused (flaws c (by simp))
  · rintro ⟨rfl, short, before, c, after, rfl, passed, rfl⟩
    exact ⟨before, c, after, rfl, if_pos short, passed⟩

/-! ## Readers on a machine -/

/-- What stops a machine with words of sixty-four bits. -/
inductive Trap where
  /-- A sum is too large for a word. -/
  | overflow
  /-- A slice is not within the bytes that it is taken from. -/
  | outOfRange
deriving DecidableEq

/-- Reading on such a machine ends in a value or an error, unless the machine is stopped. -/
abbrev Reader (α : Type) := ExceptT ArtifactError (Except Trap) α

namespace Reader

/-- Stops the machine. -/
def stop (t : Trap) : Reader α := ExceptT.mk (.error t)

/-- A sum in a word of the machine. -/
def add (m n : ℕ) : Reader ℕ :=
  if m + n < UInt64.size then pure (m + n) else stop .overflow

/-- The bytes from one position up to another. -/
def slice (data : List UInt8) (first last : ℕ) : Reader (List UInt8) :=
  if first ≤ last ∧ last ≤ data.length then pure ((data.drop first).take (last - first))
  else stop .outOfRange

/-- The word of four bytes at an offset. -/
def wordAt (data : List UInt8) (offset : ℕ) : Reader ℕ := do
  let last ← add offset 4
  if data.length < last then throw (.truncated last data.length)
  return Bytes.toNat (← slice data offset last)

/-- Checks the header. -/
def checkHeader (data : List UInt8) : Reader Unit := do
  if data.length < headerSize then throw (.truncated headerSize data.length)
  if (← slice data 0 4) ≠ magic then throw .invalidMagic
  let v ← wordAt data 4
  if v ≠ version then throw (.unsupportedVersion v)

/-- Reads the section whose offset is in the given place of the header. -/
def readSection (codec : Codec α) (slot : ℕ) (data : List UInt8) : Reader α := do
  let offset ← wordAt data slot
  let length ← wordAt data offset
  let first ← add offset 4
  let last ← add first length
  if data.length < last then throw (.truncated last data.length)
  match codec.decode (← slice data first last) with
  | some (value, _) => return value
  | none => throw .undecodable

/-- The symbol table of an artifact. -/
def readSymbols (data : List UInt8) : Reader (List SymbolEntry) := do
  checkHeader data
  readSection symbolsCodec symbolsSlot data

/-- Reads an artifact. -/
def ofBytes (data : List UInt8) : Reader Artifact := do
  checkHeader data
  let symbols ← readSection symbolsCodec symbolsSlot data
  let module ← readSection Module.codec moduleSlot data
  return { module, symbols }

/-- The machine is not stopped, and reading ends so. -/
def Runs (x : Reader α) (r : Except ArtifactError α) : Prop :=
  x.run = .ok r

lemma Runs.value (a : α) : Runs (pure a : Reader α) (.ok a) := rfl

lemma Runs.refusal (e : ArtifactError) : Runs (throw e : Reader α) (.error e) := rfl

lemma Runs.bind {x : Reader α} {r : Except ArtifactError α} {f : α → Reader β}
    {g : α → Except ArtifactError β} (first : Runs x r)
    (second : ∀ a, r = .ok a → Runs (f a) (g a)) : Runs (x >>= f) (r >>= g) := by
  unfold Runs at *
  rw [ExceptT.run_bind, first]
  cases r with
  | error e => rfl
  | ok a => exact second a rfl

lemma Runs.check {p : Prop} [Decidable p] {e : ArtifactError} {f : β → Reader α}
    {g : β → Except ArtifactError α} {x : Reader α} {r : Except ArtifactError α}
    (next : ¬p → Runs x r) :
    Runs (if p then throw e >>= f else x) (if p then throw e >>= g else r) := by
  split
  · rfl
  next passed => exact next passed

/-! ### No sum is too large and no slice out of range -/

lemma add_eq {m n : ℕ} (small : m + n < UInt64.size) : add m n = pure (m + n) :=
  if_pos small

lemma slice_eq {first last : ℕ} (ordered : first ≤ last) (inside : last ≤ data.length) :
    slice data first last = pure ((data.drop first).take (last - first)) :=
  if_pos ⟨ordered, inside⟩

/-- Four more than an offset that is itself a word of four bytes fits a word of the machine. -/
lemma runs_wordAt (small : offset < 2 ^ 32) :
    Runs (wordAt data offset) (Artifact.wordAt data offset) := by
  have fits : offset + 4 < UInt64.size := Nat.lt_trans (Nat.add_lt_add_right small 4) (by decide)
  unfold wordAt
  rw [wordAt_eq, add_eq fits, pure_bind]
  by_cases there : offset + 4 ≤ data.length
  · rw [if_neg (Nat.not_lt_of_le there), if_pos there,
      slice_eq (Nat.le_add_right offset 4) there, Nat.add_sub_cancel_left]
    rfl
  · rw [if_pos (Nat.lt_of_not_le there), if_neg there]
    rfl

lemma runs_checkHeader (data : List UInt8) :
    Runs (checkHeader data) (Artifact.checkHeader data) := by
  unfold checkHeader Artifact.checkHeader
  apply Runs.check
  intro long
  have four : 4 ≤ data.length := Nat.le_trans (by decide) (Nat.le_of_not_lt long)
  rw [slice_eq (Nat.zero_le 4) four, pure_bind]
  have start : (!isArtifact data) = true ↔ (data.drop 0).take (4 - 0) ≠ magic := by
    simp [isArtifact]
  simp only [start]
  apply Runs.check
  intro _
  apply (runs_wordAt (by decide)).bind
  intro v _
  split
  · exact .refusal _
  · exact .value _

lemma runs_readSection (codec : Codec α) (small : slot < 2 ^ 32) (data : List UInt8) :
    Runs (readSection codec slot data) (Artifact.readSection codec slot data) := by
  unfold readSection Artifact.readSection
  apply (runs_wordAt small).bind
  intro offset place
  have low := lt_of_wordAt place
  apply (runs_wordAt low).bind
  intro length size
  have short := lt_of_wordAt size
  have first : offset + 4 < UInt64.size := Nat.lt_trans (Nat.add_lt_add_right low 4) (by decide)
  have last : offset + 4 + length < UInt64.size :=
    Nat.lt_trans (Nat.add_lt_add (Nat.add_lt_add_right low 4) short) (by decide)
  rw [add_eq first, pure_bind, add_eq last, pure_bind]
  apply Runs.check
  intro enough
  rw [slice_eq (Nat.le_add_right _ _) (Nat.le_of_not_lt enough), pure_bind,
    Nat.add_sub_cancel_left]
  cases codec.decode ((data.drop (offset + 4)).take length) with
  | none => exact .refusal _
  | some read => exact .value _

lemma runs_readSymbols (data : List UInt8) :
    Runs (readSymbols data) (Artifact.readSymbols data) := by
  apply (runs_checkHeader data).bind
  intro _ _
  exact runs_readSection symbolsCodec (by decide) data

lemma runs_ofBytes (data : List UInt8) : Runs (ofBytes data) (Artifact.ofBytes data) := by
  apply (runs_checkHeader data).bind
  intro _ _
  apply (runs_readSection symbolsCodec (by decide) data).bind
  intro symbols _
  apply (runs_readSection Module.codec (by decide) data).bind
  intro module _
  exact .value _

end Reader

/-! ## What is looked at -/

/-- Two byte sequences have the same section at a slot: the same bytes for its length and behind it,
as far as the section reaches. -/
def SameSection (slot : ℕ) (data data' : List UInt8) : Prop :=
  ∀ offset length, wordAt data slot = .ok offset → wordAt data offset = .ok length →
    (data'.drop offset).take (4 + length) = (data.drop offset).take (4 + length)

/-- A part of bytes that are the same is the same. -/
lemma take_drop_congr {n m : ℕ} (first : ℕ)
    (same : (data'.drop offset).take n = (data.drop offset).take n) (inside : first + m ≤ n) :
    (data'.drop (offset + first)).take m = (data.drop (offset + first)).take m := by
  have part : ∀ bytes : List UInt8, (bytes.drop (offset + first)).take m
      = (((bytes.drop offset).take n).drop first).take m := by
    intro bytes
    rw [List.drop_take, List.take_take, List.drop_drop, Nat.min_eq_left (by omega)]
  rw [part, part, same]

lemma wordAt_congr (size : data'.length = data.length)
    (same : (data'.drop offset).take 4 = (data.drop offset).take 4) :
    wordAt data' offset = wordAt data offset := by
  rw [wordAt_eq, wordAt_eq, size, numberAt, numberAt, same]

lemma readSection_congr (codec : Codec α) (size : data'.length = data.length)
    (place : wordAt data' slot = wordAt data slot) (same : SameSection slot data data') :
    readSection codec slot data' = readSection codec slot data := by
  unfold readSection
  rw [place, size]
  cases found : wordAt data slot with
  | error e => rfl
  | ok offset =>
    by_cases there : offset + 4 ≤ data.length
    · have bytes := same offset _ found (wordAt_of_le there)
      have word : wordAt data' offset = wordAt data offset :=
        wordAt_congr size (take_drop_congr 0 bytes (by omega))
      have content := take_drop_congr 4 bytes (Nat.le_refl _)
      simp only [word, wordAt_of_le there, bind, Except.bind, content]
    · -- the length is missing on both sides
      simp only [wordAt_eq, if_neg there, size, bind, Except.bind]

/-- The symbol table is read from the length of the bytes, their first twelve and its section. -/
lemma readSymbols_congr (size : data'.length = data.length) (start : data'.take 12 = data.take 12)
    (same : SameSection symbolsSlot data data') : readSymbols data' = readSymbols data := by
  have early : ∀ first, first + 4 ≤ 12 →
      (data'.drop first).take 4 = (data.drop first).take 4 := by
    intro first inside
    have whole : (data'.drop 0).take 12 = (data.drop 0).take 12 := start
    have part := take_drop_congr first whole inside
    rwa [Nat.zero_add] at part
  have header : checkHeader data' = checkHeader data := by
    have first : data'.take 4 = data.take 4 := early 0 (by decide)
    rw [checkHeader_eq, checkHeader_eq, size, first, numberAt, numberAt, early 4 (by decide)]
  have place : wordAt data' symbolsSlot = wordAt data symbolsSlot :=
    wordAt_congr size (early symbolsSlot (by decide))
  unfold readSymbols
  rw [header, readSection_congr symbolsCodec size place same]

/-! ## Any bytes -/

/-- What is true of the two readers on bytes. -/
structure Dependable (data : List UInt8) : Prop where
  /-- A machine with words of sixty-four bits reads the artifact to the same end: no sum is too
  large for it and no slice out of range, -/
  safe : Reader.Runs (Reader.ofBytes data) (ofBytes data)
  /-- and the same is true of the symbol table. -/
  safeSymbols : Reader.Runs (Reader.readSymbols data) (readSymbols data)
  /-- An artifact is refused for the first check that does not pass: too short for a header, the
  magic bytes, the version, the symbol section, the module section. -/
  error (e : ArtifactError) : ofBytes data = .error e ↔ firstError? (checks data) data = some e
  /-- A symbol table is refused for the first of the same checks but the last. -/
  errorSymbols (e : ArtifactError) :
    readSymbols data = .error e ↔ firstError? ((checks data).take 4) data = some e
  /-- Bytes are reported missing exactly if the first check not to pass needs more of them. -/
  truncated (expected got : ℕ) : ofBytes data = .error (.truncated expected got) ↔
    got = data.length ∧ data.length < expected ∧ ∃ before c after,
      checks data = before ++ c :: after ∧ (∀ b ∈ before, b.error? data.length = none) ∧
        c.stop = expected
  truncatedSymbols (expected got : ℕ) : readSymbols data = .error (.truncated expected got) ↔
    got = data.length ∧ data.length < expected ∧ ∃ before c after,
      (checks data).take 4 = before ++ c :: after ∧ (∀ b ∈ before, b.error? data.length = none) ∧
        c.stop = expected
  /-- Both readers agree on the symbol table, -/
  symbols {a : Artifact} : ofBytes data = .ok a → readSymbols data = .ok a.symbols
  /-- and on what is wrong with it. -/
  refused {e : ArtifactError} : readSymbols data = .error e → ofBytes data = .error e
  /-- The symbol table is read from the first twelve bytes and its section. -/
  sees {data' : List UInt8} : data'.length = data.length → data'.take 12 = data.take 12 →
    SameSection symbolsSlot data data' → readSymbols data' = readSymbols data

/-- The readers are dependable on any bytes. -/
theorem dependable (data : List UInt8) : Dependable data where
  safe := Reader.runs_ofBytes data
  safeSymbols := Reader.runs_readSymbols data
  error e := by rw [← error?_ofBytes, error?_eq_some_iff]
  errorSymbols e := by
    show _ ↔ firstError? (symbolsChecks data) data = some e
    rw [← error?_readSymbols, error?_eq_some_iff]
  truncated expected got := by
    rw [← error?_eq_some_iff, error?_ofBytes]
    exact firstError?_eq_truncated_iff fun c member => flaw_ne_truncated member expected got
  truncatedSymbols expected got := by
    rw [← error?_eq_some_iff, error?_readSymbols]
    exact firstError?_eq_truncated_iff fun c member =>
      flaw_ne_truncated (List.mem_append_left _ member) expected got
  symbols {a} ok := by
    rw [ofBytes_eq] at ok
    obtain ⟨symbols, table, ok⟩ := exists_of_bind_eq_ok ok
    obtain ⟨module, -, ok⟩ := exists_of_bind_eq_ok ok
    cases ok
    exact table
  refused {e} bad := by
    rw [ofBytes_eq, bad]
    rfl
  sees size start same := readSymbols_congr size start same

end Artifact
end Weaver
