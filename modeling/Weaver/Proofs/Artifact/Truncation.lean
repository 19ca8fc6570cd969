import Weaver.Proofs.Artifact.Reading

/-!
# Artifacts that are cut off or go on

When the end of an artifact is missing, the part that is left is never taken for an artifact: what
is missing is noticed, wherever the cut is, and whatever can still be read in front of it. Bytes
behind an artifact are not looked at.

Three things live here:

* `Artifact.readSection_take`, what a section is read as from bytes that are cut off;
* `Artifact.extent`, where the bytes end that reading takes, with `ofBytes_take_of_lt` for cuts in
  front of that place and `ofBytes_take_of_le` for cuts behind it;
* `Artifact.truncation`, for artifacts that have been written.
-/

namespace Weaver
namespace Artifact

variable {α : Type} {codec : Codec α} {data data' : List UInt8} {slot offset n k : ℕ} {a : Artifact}

/-! ## Cuts and sections -/

/-- What lies in front of a cut is what it was. -/
lemma take_drop_take (inside : offset + n ≤ k) (data : List UInt8) :
    ((data.take k).drop offset).take n = (data.drop offset).take n := by
  rw [List.drop_take, List.take_take, Nat.min_eq_left (by omega)]

lemma numberAt_take (inside : offset + 4 ≤ k) (data : List UInt8) :
    numberAt (data.take k) offset = numberAt data offset := by
  unfold numberAt
  rw [take_drop_take inside]

/-- A section goes on behind a cut, or it does not, whichever of the bytes it is looked up in. -/
lemma lt_sectionStop_take (header : slot + 4 ≤ k) (short : k ≤ data.length) :
    k < sectionStop slot (data.take k) ↔ k < sectionStop slot data := by
  have length : (data.take k).length = k := List.length_take_of_le short
  unfold sectionStop
  dsimp only
  rw [length, numberAt_take header]
  by_cases cut : k < numberAt data slot + 4
  · -- the length of the section is cut off, and the section ends behind its length
    rw [if_pos cut]
    split <;> omega
  · have long : ¬data.length < numberAt data slot + 4 := by omega
    rw [if_neg cut, if_neg long, numberAt_take (by omega)]

lemma sectionContent_take (header : slot + 4 ≤ k) (behind : sectionStop slot data ≤ k)
    (short : k ≤ data.length) : sectionContent slot (data.take k) = sectionContent slot data := by
  unfold sectionStop at behind
  dsimp only at behind
  unfold sectionContent
  split at behind
  · omega
  · rw [numberAt_take header, numberAt_take (by omega), take_drop_take (by omega)]

/-- A section that goes on behind a cut is found to be cut off, any other is read as it was. -/
lemma readSection_take (codec : Codec α) (header : slot + 4 ≤ k) (short : k ≤ data.length) :
    readSection codec slot (data.take k) =
      if k < sectionStop slot data then .error (.truncated (sectionStop slot (data.take k)) k)
      else readSection codec slot data := by
  have length : (data.take k).length = k := List.length_take_of_le short
  have cut := lt_sectionStop_take header short
  have room : slot + 4 ≤ (data.take k).length := by rwa [length]
  rw [readSection_eq codec room, length]
  by_cases inside : k < sectionStop slot data
  · rw [if_pos inside, if_pos (cut.2 inside)]
  · have behind : sectionStop slot data ≤ k := Nat.le_of_not_lt inside
    have there : ¬data.length < sectionStop slot data := by omega
    rw [if_neg inside, if_neg fun found => inside (cut.1 found),
      sectionContent_take header behind short, readSection_eq codec (by omega), if_neg there]

/-- Bytes that are long enough and start in the same way have the same header. -/
lemma checkHeader_congr (long : headerSize ≤ data.length) (long' : headerSize ≤ data'.length)
    (start : data'.take 8 = data.take 8) : checkHeader data' = checkHeader data := by
  have whole : (data'.drop 0).take 8 = (data.drop 0).take 8 := start
  have first : data'.take 4 = data.take 4 := take_drop_congr 0 whole (by decide)
  have second : (data'.drop 4).take 4 = (data.drop 4).take 4 :=
    take_drop_congr 4 whole (by decide)
  rw [checkHeader_eq, checkHeader_eq, if_neg (Nat.not_lt_of_le long),
    if_neg (Nat.not_lt_of_le long'), first, numberAt, numberAt, second]

lemma checkHeader_take (long : headerSize ≤ k) (short : k ≤ data.length) :
    checkHeader (data.take k) = checkHeader data := by
  have length : (data.take k).length = k := List.length_take_of_le short
  apply checkHeader_congr (Nat.le_trans long short) (by rwa [length])
  rw [List.take_take, Nat.min_eq_left (Nat.le_trans (by decide) long)]

/-! ## Cuts and artifacts -/

/-- Where the bytes end that reading an artifact takes. -/
def extent (data : List UInt8) : ℕ :=
  max headerSize (max (sectionStop symbolsSlot data) (sectionStop moduleSlot data))

lemma sectionStop_le_of_readSection {value : α} (header : slot + 4 ≤ data.length)
    (ok : readSection codec slot data = .ok value) : sectionStop slot data ≤ data.length := by
  rw [readSection_eq codec header] at ok
  split at ok
  · cases ok
  next enough => exact Nat.le_of_not_lt enough

/-- The header of what can be read passes. -/
lemma checkHeader_of_ofBytes (ok : ofBytes data = .ok a) : checkHeader data = .ok () := by
  obtain ⟨_, checked, -⟩ := exists_of_bind_eq_ok ok
  exact checked

/-- All of an artifact is there. -/
lemma extent_le_of_ofBytes (ok : ofBytes data = .ok a) : extent data ≤ data.length := by
  have long : 16 ≤ data.length := headerSize_le_of_checkHeader (checkHeader_of_ofBytes ok)
  have ⟨symbols, module⟩ := of_ofBytes ok
  apply Nat.max_le.2
  constructor
  · exact long
  · apply Nat.max_le.2
    constructor
    · exact sectionStop_le_of_readSection (by unfold symbolsSlot; omega) symbols
    · exact sectionStop_le_of_readSection (by unfold moduleSlot; omega) module

/-- A cut behind the bytes that reading takes makes no difference. -/
lemma ofBytes_take_of_le (behind : extent data ≤ k) (short : k ≤ data.length) :
    ofBytes (data.take k) = ofBytes data := by
  obtain ⟨long, rest⟩ := Nat.max_le.1 behind
  obtain ⟨symbols, module⟩ := Nat.max_le.1 rest
  have first : symbolsSlot + 4 ≤ k := Nat.le_trans (by decide) long
  have second : moduleSlot + 4 ≤ k := Nat.le_trans (by decide) long
  unfold ofBytes
  rw [checkHeader_take long short, readSection_take symbolsCodec first short,
    readSection_take Module.codec second short, if_neg (Nat.not_lt_of_le symbols),
    if_neg (Nat.not_lt_of_le module)]

/-- An artifact that is cut off in front of that place is found to be so. -/
lemma ofBytes_take_of_lt (ok : ofBytes data = .ok a) (short : k ≤ data.length)
    (cut : k < extent data) :
    ∃ expected, k < expected ∧ ofBytes (data.take k) = .error (.truncated expected k) := by
  have length : (data.take k).length = k := List.length_take_of_le short
  by_cases long : headerSize ≤ k
  · -- the header passes as before, so the cut is noticed at the first section it is in
    have checked : checkHeader (data.take k) = .ok () := by
      rw [checkHeader_take long short, checkHeader_of_ofBytes ok]
    have ⟨symbols, module⟩ := of_ofBytes ok
    have first : symbolsSlot + 4 ≤ k := Nat.le_trans (by decide) long
    have second : moduleSlot + 4 ≤ k := Nat.le_trans (by decide) long
    have table := readSection_take symbolsCodec first short
    have content := readSection_take Module.codec second short
    unfold ofBytes
    rw [checked, table, content]
    by_cases early : k < sectionStop symbolsSlot data
    · refine ⟨sectionStop symbolsSlot (data.take k), (lt_sectionStop_take first short).2 early, ?_⟩
      rw [if_pos early]
      rfl
    · have late : k < sectionStop moduleSlot data := by
        unfold extent at cut
        omega
      refine ⟨sectionStop moduleSlot (data.take k), (lt_sectionStop_take second short).2 late, ?_⟩
      rw [if_neg early, if_pos late, symbols]
      rfl
  · have missing : k < headerSize := Nat.lt_of_not_le long
    refine ⟨headerSize, missing, ?_⟩
    unfold ofBytes
    rw [checkHeader_eq, length, if_pos missing]
    rfl

/-- Bytes behind an artifact are not looked at. -/
lemma ofBytes_append (ok : ofBytes data = .ok a) (more : List UInt8) :
    ofBytes (data ++ more) = ofBytes data := by
  have length : data.length ≤ (data ++ more).length := by
    rw [List.length_append]
    exact Nat.le_add_right _ _
  have part : (data ++ more).take data.length = data := List.take_left
  have inside := extent_le_of_ofBytes ok
  -- the sections end where they ended
  have behind : extent (data ++ more) ≤ data.length := by
    have stop : ∀ slot, slot + 4 ≤ data.length → sectionStop slot data ≤ data.length →
        sectionStop slot (data ++ more) ≤ data.length := by
      intro slot header there
      have cut := lt_sectionStop_take header length
      rw [part] at cut
      exact Nat.le_of_not_lt fun late => Nat.not_lt_of_le there (cut.2 late)
    unfold extent at inside ⊢
    have long : 16 ≤ data.length := Nat.le_trans (Nat.le_max_left _ _) inside
    have first := stop symbolsSlot (by unfold symbolsSlot; omega) (by omega)
    have second := stop moduleSlot (by unfold moduleSlot; omega) (by omega)
    omega
  have same := ofBytes_take_of_le behind length
  rw [part] at same
  exact same.symm

/-! ## Artifacts that have been written -/

lemma eq_numberAt (ok : wordAt data offset = .ok n) : n = numberAt data offset := by
  rw [wordAt_eq] at ok
  split at ok
  · cases ok
    rfl
  · cases ok

/-- The module section is the last part of an artifact. -/
lemma length_le_extent_toBytes (fits : a.Fits) : a.toBytes.length ≤ extent a.toBytes := by
  obtain ⟨before, place, there⟩ := moduleSection_toBytes fits
  have length := congrArg List.length there
  have size : wordAt a.toBytes before.length = .ok (Module.codec.encode a.module).length := by
    apply wordAt_of_drop _ fits.module
    · exact Module.codec.encode a.module
    · rw [there, List.drop_left, List.append_nil]
      rfl
  have stop : sectionStop moduleSlot a.toBytes = a.toBytes.length := by
    simp only [List.append_nil, sectionBytes, word, List.length_append, Bytes.length_ofNat]
      at length
    unfold sectionStop
    dsimp only
    rw [← eq_numberAt place, ← eq_numberAt size, if_neg (by omega)]
    omega
  unfold extent
  omega

/-- An artifact that has been written is noticed to be cut off wherever it is cut, and read as it
was whatever is behind it. -/
theorem truncation (fits : a.Fits) :
    ofBytes a.toBytes = .ok a ∧
    (∀ k < a.toBytes.length, ∃ expected, k < expected ∧
      ofBytes (a.toBytes.take k) = .error (.truncated expected k)) ∧
    ∀ more, ofBytes (a.toBytes ++ more) = ofBytes a.toBytes := by
  have ok := ofBytes_toBytes fits
  refine ⟨ok, ?_, ofBytes_append ok⟩
  intro k cut
  apply ofBytes_take_of_lt ok (Nat.le_of_lt cut)
  exact Nat.lt_of_lt_of_le cut (length_le_extent_toBytes fits)

/-- The specimen is cut off in the length of its module section, and followed by a byte. -/
theorem truncation_specimen : specimen.Fits ∧ 53 < specimen.toBytes.length ∧
    (∃ expected, 53 < expected ∧
      ofBytes (specimen.toBytes.take 53) = .error (.truncated expected 53)) ∧
    ofBytes (specimen.toBytes ++ [0]) = ofBytes specimen.toBytes := by
  have fits : specimen.Fits := ⟨by decide +kernel, by decide +kernel⟩
  have long : 53 < specimen.toBytes.length := by decide +kernel
  have ⟨_, cut, longer⟩ := truncation fits
  exact ⟨fits, long, cut 53 long, longer [0]⟩

end Artifact
end Weaver
