import Mathlib.Algebra.Ring.Nat
import Mathlib.Tactic.Common
import Weaver.Binary.Codec

/-!
# Laws of codecs

A codec is lawful if its reader takes back what its writer has written, in front of any bytes, and
if it never reads a value that would take more bytes to write than were read. The second law is
about bytes that no writer has made: numbers in longer forms than they need are read, but written
shorter.

Two things live here:

* `Codec.Lawful`, the laws, and one lemma for each way of putting codecs together;
* the laws of the basic codecs: numbers, truth values, texts, identifiers, sequences, options.

A length takes at most eight bytes, so what is written has to be shorter than `UInt64.size` to be
read back.
-/

namespace Weaver

/-! ## Words and texts -/

namespace Bytes

theorem toNat_ofNat (width n : ℕ) : toNat (ofNat width n) = n % 256 ^ width := by
  induction width generalizing n with
  | zero => simp [ofNat, toNat, Nat.mod_one]
  | succ width ih =>
    have low : n.toUInt8.toNat = n % 256 := UInt8.toNat_ofNat'
    rw [ofNat, toNat, ih, low, Nat.pow_succ, Nat.mul_comm (256 ^ width), Nat.mod_mul]

theorem toNat_lt (bytes : List UInt8) : toNat bytes < 256 ^ bytes.length := by
  induction bytes with
  | nil => simp [toNat]
  | cons b rest ih =>
    have digit : b.toNat < 256 := b.toNat_lt
    rw [toNat, List.length_cons, Nat.pow_succ]
    omega

/-- Bytes that are a text are the form of that text. -/
theorem ofText_of_toText? {bytes : List UInt8} {s : String} (ok : toText? bytes = some s) :
    ofText s = bytes := by
  unfold toText? String.fromUTF8? at ok
  split at ok
  · injection ok with ok
    rw [← ok]
    rfl
  · cases ok

end Bytes

namespace Codec

variable {α β γ : Type}

/-! ## The laws -/

/-- The reader takes back what the writer has written, and no value is written in more bytes than it
was read from. Every value takes some bytes. -/
structure Lawful (c : Codec α) : Prop where
  pos (a : α) : 0 < (c.encode a).length
  decode_encode (a : α) (rest : List UInt8) :
    (c.encode a).length < UInt64.size → c.decode (c.encode a ++ rest) = some (a, rest)
  compact {bytes rest : List UInt8} {a : α} :
    c.decode bytes = some (a, rest) → (c.encode a).length + rest.length ≤ bytes.length

/-- No two values have the same bytes. -/
theorem Lawful.encode_injective {c : Codec α} (lawful : c.Lawful) {a b : α}
    (fits : (c.encode a).length < UInt64.size) (same : c.encode a = c.encode b) : a = b := by
  have left := lawful.decode_encode a [] fits
  have right := lawful.decode_encode b [] (same ▸ fits)
  rw [same, right] at left
  injection left with left
  exact (congrArg Prod.fst left).symm

/-! ## Combinators -/

/-- A codec for values that correspond one to one refuses none of them. -/
theorem map_eq_refine (c : Codec α) (make : α → β) (back : β → α) :
    c.map make back = c.refine (fun a => some (make a)) back := by
  have same : (c.map make back).decode = (c.refine (fun a => some (make a)) back).decode := by
    funext bytes
    show (c.decode bytes).map (fun p => (make p.1, p.2)) = (c.decode bytes).bind _
    cases c.decode bytes <;> rfl
  exact congrArg (Codec.mk (fun b => c.encode (back b))) same

theorem Lawful.refine {c : Codec α} (lawful : c.Lawful) {make? : α → Option β} {back : β → α}
    (make_back : ∀ b, make? (back b) = some b)
    (back_make : ∀ {a b}, make? a = some b → back b = a) : (c.refine make? back).Lawful where
  pos b := lawful.pos (back b)
  decode_encode b rest fits := by
    show (c.decode (c.encode (back b) ++ rest)).bind
      (fun p => (make? p.1).map fun b => (b, p.2)) = _
    rw [lawful.decode_encode (back b) rest fits, Option.bind_some, make_back]
    rfl
  compact {bytes rest b} ok := by
    obtain ⟨⟨a, rest⟩, read, wrapped⟩ := Option.bind_eq_some_iff.1 ok
    obtain ⟨b, made, same⟩ := Option.map_eq_some_iff.1 wrapped
    cases same
    show (c.encode (back b)).length + _ ≤ _
    rw [back_make made]
    exact lawful.compact read

theorem Lawful.map {c : Codec α} (lawful : c.Lawful) {make : α → β} {back : β → α}
    (make_back : ∀ b, make (back b) = b) (back_make : ∀ a, back (make a) = a) :
    (c.map make back).Lawful := by
  rw [map_eq_refine]
  refine lawful.refine (fun b => congrArg some (make_back b)) ?_
  intro a b made
  injection made with made
  rw [← made, back_make]

theorem Lawful.pair {c : Codec α} {d : Codec β} (first : c.Lawful) (second : d.Lawful) :
    (c.pair d).Lawful where
  pos p := by
    have some_bytes := first.pos p.1
    show 0 < (c.encode p.1 ++ d.encode p.2).length
    rw [List.length_append]
    omega
  decode_encode p rest fits := by
    change (c.encode p.1 ++ d.encode p.2).length < UInt64.size at fits
    rw [List.length_append] at fits
    show (c.decode ((c.encode p.1 ++ d.encode p.2) ++ rest) >>= fun a =>
      d.decode a.2 >>= fun b => pure ((a.1, b.1), b.2)) = _
    rw [List.append_assoc, first.decode_encode p.1 _ (by omega)]
    show (d.decode (d.encode p.2 ++ rest) >>= fun b => pure ((p.1, b.1), b.2)) = _
    rw [second.decode_encode p.2 rest (by omega)]
    rfl
  compact {bytes rest p} ok := by
    obtain ⟨⟨a, rest₁⟩, read₁, ok⟩ := Option.bind_eq_some_iff.1 ok
    obtain ⟨⟨b, rest₂⟩, read₂, ok⟩ := Option.bind_eq_some_iff.1 ok
    cases ok
    have shorter₁ := first.compact read₁
    have shorter₂ := second.compact read₂
    show (c.encode a ++ d.encode b).length + _ ≤ _
    rw [List.length_append]
    omega

/-! ## Numbers -/

theorem lawful_byte : byte.Lawful where
  pos _ := Nat.one_pos
  decode_encode _ _ _ := rfl
  compact {bytes rest b} ok := by
    cases bytes with
    | nil => cases ok
    | cons b bytes =>
      cases ok
      show 1 + _ ≤ _ + 1
      omega

theorem takeBytes_append (taken rest : List UInt8) :
    takeBytes taken.length (taken ++ rest) = some (taken, rest) := by
  simp [takeBytes]

theorem of_takeBytes {count : ℕ} {bytes taken rest : List UInt8}
    (ok : takeBytes count bytes = some (taken, rest)) :
    taken.length = count ∧ bytes = taken ++ rest := by
  unfold takeBytes at ok
  dsimp only at ok
  split at ok
  next enough =>
    cases ok
    exact ⟨enough, (List.take_append_drop count bytes).symm⟩
  · cases ok

/-- A word is read back if it was wide enough. -/
theorem decode_word {width n : ℕ} (fits : n < 256 ^ width) (rest : List UInt8) :
    (word width).decode ((word width).encode n ++ rest) = some (n, rest) := by
  show (takeBytes width (Bytes.ofNat width n ++ rest)).map (fun p => (Bytes.toNat p.1, p.2)) = _
  have taken := takeBytes_append (Bytes.ofNat width n) rest
  rw [Bytes.length_ofNat] at taken
  rw [taken, Option.map_some, Bytes.toNat_ofNat, Nat.mod_eq_of_lt fits]

theorem of_decode_word {width n : ℕ} {bytes rest : List UInt8}
    (ok : (word width).decode bytes = some (n, rest)) :
    n < 256 ^ width ∧ bytes.length = width + rest.length := by
  obtain ⟨⟨taken, rest⟩, read, same⟩ := Option.map_eq_some_iff.1 ok
  cases same
  obtain ⟨length, rfl⟩ := of_takeBytes read
  refine ⟨?_, by rw [List.length_append, length]⟩
  rw [← length]
  exact Bytes.toNat_lt taken

/-- The number of bytes that a number takes. -/
theorem length_number (width n : ℕ) : ((number width).encode n).length
    = if n ≤ 250 then 1 else if n < UInt16.size then 3 else if n < UInt32.size then 5 else 9 := by
  show (if n ≤ 250 then _ else if n < UInt16.size then _ else if n < UInt32.size then _ else _
    : List UInt8).length = _
  split
  · rfl
  · split
    · simp [word]
    · split <;> simp [word]

/-- What a reader of numbers makes of a first byte. -/
theorem decode_number_cons (width : ℕ) (b : UInt8) (rest : List UInt8) :
    (number width).decode (b :: rest) =
      if b ≤ 250 then some (b.toNat, rest)
      else if b = 251 ∧ 2 ≤ width then (word 2).decode rest
      else if b = 252 ∧ 4 ≤ width then (word 4).decode rest
      else if b = 253 ∧ 8 ≤ width then (word 8).decode rest
      else none := rfl

/-- The numbers that a reader of numbers of some width reads. -/
def InWidth (width n : ℕ) : Prop :=
  n ≤ 250 ∨ 2 ≤ width ∧ n < UInt16.size ∨ 4 ≤ width ∧ n < UInt32.size ∨
    8 ≤ width ∧ n < UInt64.size

/-- A number is read back by a reader of numbers that are wide enough for it. -/
theorem decode_number {width n : ℕ} (fits : InWidth width n) (rest : List UInt8) :
    (number width).decode ((number width).encode n ++ rest) = some (n, rest) := by
  unfold InWidth at fits
  have sizes : UInt16.size = 65536 ∧ UInt32.size = 4294967296 := ⟨rfl, rfl⟩
  -- what the writer takes as marker, the reader takes as width
  rcases Nat.lt_or_ge 250 n with large | small
  · rcases Nat.lt_or_ge n UInt16.size with two | more
    · have written : (number width).encode n = 251 :: (word 2).encode n := by
        show (if n ≤ 250 then _ else if n < UInt16.size then _ else _) = _
        rw [if_neg (by omega), if_pos two]
      rw [written, List.cons_append, decode_number_cons, if_neg (by decide),
        if_pos ⟨rfl, by omega⟩]
      exact decode_word two rest
    · rcases Nat.lt_or_ge n UInt32.size with four | most
      · have written : (number width).encode n = 252 :: (word 4).encode n := by
          show (if n ≤ 250 then _ else if n < UInt16.size then _ else if n < UInt32.size then _
            else _) = _
          rw [if_neg (by omega), if_neg (by omega), if_pos four]
        rw [written, List.cons_append, decode_number_cons, if_neg (by decide), if_neg (by simp),
          if_pos ⟨rfl, by omega⟩]
        exact decode_word four rest
      · have eight : n < UInt64.size := by omega
        have written : (number width).encode n = 253 :: (word 8).encode n := by
          show (if n ≤ 250 then _ else if n < UInt16.size then _ else if n < UInt32.size then _
            else _) = _
          rw [if_neg (by omega), if_neg (by omega), if_neg (by omega)]
        rw [written, List.cons_append, decode_number_cons, if_neg (by decide), if_neg (by simp),
          if_neg (by simp), if_pos ⟨rfl, by omega⟩]
        exact decode_word eight rest
  · have value : n.toUInt8.toNat = n := by
      show n % 256 = n
      omega
    have plain : n.toUInt8 ≤ 250 := by
      rw [UInt8.le_iff_toNat_le, value]
      exact small
    have written : (number width).encode n = [n.toUInt8] := if_pos small
    rw [written, List.singleton_append, decode_number_cons, if_pos plain, value]

/-- A number that was read is one of the width, and takes no more bytes than it was read from. -/
theorem of_decode_number {width n : ℕ} {bytes rest : List UInt8}
    (ok : (number width).decode bytes = some (n, rest)) :
    InWidth width n ∧ ((number width).encode n).length + rest.length ≤ bytes.length := by
  rw [length_number]
  cases bytes with
  | nil => cases ok
  | cons b bytes =>
    rw [decode_number_cons] at ok
    rw [List.length_cons]
    split at ok
    next plain =>
      cases ok
      have small : b.toNat ≤ 250 := UInt8.le_iff_toNat_le.1 plain
      rw [if_pos small]
      exact ⟨.inl small, by omega⟩
    split at ok
    next two =>
      obtain ⟨bound, length⟩ := of_decode_word ok
      have bound : n < UInt16.size := bound
      refine ⟨.inr (.inl ⟨two.2, bound⟩), ?_⟩
      rw [if_pos bound]
      split <;> omega
    split at ok
    next four =>
      obtain ⟨bound, length⟩ := of_decode_word ok
      have bound : n < UInt32.size := bound
      refine ⟨.inr (.inr (.inl ⟨four.2, bound⟩)), ?_⟩
      rw [if_pos bound]
      split
      · omega
      · split <;> omega
    split at ok
    next eight =>
      obtain ⟨bound, length⟩ := of_decode_word ok
      refine ⟨.inr (.inr (.inr ⟨eight.2, bound⟩)), ?_⟩
      split
      · omega
      · split
        · omega
        · split <;> omega
    · cases ok

theorem pos_number (width n : ℕ) : 0 < ((number width).encode n).length := by
  rw [length_number]
  split
  · omega
  · split
    · omega
    · split <;> omega

/-- Values that are spelled by numbers: each by one of the width, and read from no other. -/
theorem lawful_refine_number {width : ℕ} {make? : ℕ → Option β} {back : β → ℕ}
    (fits : ∀ b, InWidth width (back b)) (make_back : ∀ b, make? (back b) = some b)
    (back_make : ∀ {n b}, InWidth width n → make? n = some b → back b = n) :
    ((number width).refine make? back).Lawful where
  pos b := pos_number width (back b)
  decode_encode b rest _ := by
    show ((number width).decode ((number width).encode (back b) ++ rest)).bind
      (fun p => (make? p.1).map fun b => (b, p.2)) = _
    rw [decode_number (fits b), Option.bind_some, make_back]
    rfl
  compact {bytes rest b} ok := by
    obtain ⟨⟨n, rest⟩, read, wrapped⟩ := Option.bind_eq_some_iff.1 ok
    obtain ⟨b, made, same⟩ := Option.map_eq_some_iff.1 wrapped
    cases same
    obtain ⟨wide, shorter⟩ := of_decode_number read
    show ((number width).encode (back b)).length + _ ≤ _
    rw [back_make wide made]
    exact shorter

theorem lawful_uint16 : uint16.Lawful := by
  rw [uint16, map_eq_refine]
  refine lawful_refine_number (fun n => .inr (.inl ⟨Nat.le_refl 2, n.toNat_lt⟩)) (fun n => ?_) ?_
  · rw [UInt16.ofNat_toNat]
  · intro n b wide made
    injection made with made
    rw [← made, UInt16.toNat_ofNat']
    simp only [InWidth, UInt16.size] at wide
    omega

theorem lawful_uint32 : uint32.Lawful := by
  rw [uint32, map_eq_refine]
  refine lawful_refine_number
    (fun n => .inr (.inr (.inl ⟨Nat.le_refl 4, n.toNat_lt⟩))) (fun n => ?_) ?_
  · rw [UInt32.ofNat_toNat]
  · intro n b wide made
    injection made with made
    rw [← made, UInt32.toNat_ofNat']
    simp only [InWidth, UInt16.size, UInt32.size] at wide
    omega

theorem ofZigzag_toZigzag (n : Int) : ofZigzag (toZigzag n) = n := by
  unfold ofZigzag toZigzag
  split <;> split <;> omega

theorem toZigzag_ofZigzag (n : ℕ) : toZigzag (ofZigzag n) = n := by
  unfold ofZigzag toZigzag
  split <;> split <;> omega

theorem lawful_int64 : int64.Lawful := by
  rw [int64, map_eq_refine]
  refine lawful_refine_number (fun n => .inr (.inr (.inr ⟨Nat.le_refl 8, ?_⟩))) (fun n => ?_) ?_
  · have low := n.le_toInt
    have high := n.toInt_lt
    unfold toZigzag
    simp only [UInt64.size]
    split <;> omega
  · rw [ofZigzag_toZigzag, Int64.ofInt_toInt]
  · intro n b wide made
    injection made with made
    simp only [InWidth, UInt16.size, UInt32.size, UInt64.size] at wide
    -- eight bytes hold exactly the places of the integers of sixty-four bits
    have value : (Int64.ofInt (ofZigzag n)).toInt = ofZigzag n := by
      apply Int64.toInt_ofInt_of_le <;> (unfold ofZigzag; split <;> omega)
    rw [← made, value, toZigzag_ofZigzag]

theorem decode_length {n : ℕ} (fits : n < UInt64.size) (rest : List UInt8) :
    length.decode (length.encode n ++ rest) = some (n, rest) :=
  decode_number (.inr (.inr (.inr ⟨Nat.le_refl 8, fits⟩))) rest

theorem lawful_bool : bool.Lawful := by
  refine lawful_byte.refine (by decide) ?_
  intro b value read
  split at read
  next zero =>
    injection read with read
    rw [← read, zero]
    rfl
  · split at read
    next one =>
      injection read with read
      rw [← read, one]
      rfl
    · cases read

/-! ## Sequences, texts and options -/

/-- Every element takes some bytes, so a sequence is no longer than its bytes. -/
theorem Lawful.length_le {c : Codec α} (lawful : c.Lawful) (as : List α) :
    as.length ≤ (as.flatMap c.encode).length := by
  induction as with
  | nil => simp
  | cons a as ih =>
    have some_bytes := lawful.pos a
    rw [List.flatMap_cons, List.length_append, List.length_cons]
    omega

theorem Lawful.decodeMany_flatMap {c : Codec α} (lawful : c.Lawful) (as : List α)
    (rest : List UInt8) (fits : (as.flatMap c.encode).length < UInt64.size) :
    c.decodeMany as.length (as.flatMap c.encode ++ rest) = some (as, rest) := by
  induction as with
  | nil => rfl
  | cons a as ih =>
    rw [List.flatMap_cons, List.length_append] at fits
    rw [List.flatMap_cons, List.append_assoc, List.length_cons]
    show (c.decode _ >>= fun a => decodeMany c as.length a.2 >>= fun as =>
      pure (a.1 :: as.1, as.2)) = _
    rw [lawful.decode_encode a _ (by omega)]
    show (decodeMany c as.length _ >>= fun as => pure (a :: as.1, as.2)) = _
    rw [ih (by omega)]
    rfl

theorem Lawful.of_decodeMany {c : Codec α} (lawful : c.Lawful) {count : ℕ}
    {bytes rest : List UInt8} {as : List α} (ok : c.decodeMany count bytes = some (as, rest)) :
    as.length = count ∧ (as.flatMap c.encode).length + rest.length ≤ bytes.length := by
  induction count generalizing bytes as with
  | zero =>
    cases ok
    simp
  | succ count ih =>
    obtain ⟨⟨a, rest₁⟩, read, ok⟩ := Option.bind_eq_some_iff.1 ok
    obtain ⟨⟨as, rest₂⟩, more, ok⟩ := Option.bind_eq_some_iff.1 ok
    cases ok
    have shorter := lawful.compact read
    obtain ⟨count_eq, shorter'⟩ := ih more
    rw [List.flatMap_cons, List.length_append, List.length_cons]
    omega

theorem Lawful.list {c : Codec α} (lawful : c.Lawful) : (list c).Lawful where
  pos as := by
    have some_bytes := pos_number 8 as.length
    show 0 < (length.encode as.length ++ as.flatMap c.encode).length
    rw [List.length_append, length]
    omega
  decode_encode as rest fits := by
    change (length.encode as.length ++ as.flatMap c.encode).length < UInt64.size at fits
    rw [List.length_append] at fits
    have count := lawful.length_le as
    show (length.decode ((length.encode as.length ++ as.flatMap c.encode) ++ rest) >>=
      fun count => decodeMany c count.1 count.2) = _
    rw [List.append_assoc, decode_length (by omega)]
    exact lawful.decodeMany_flatMap as rest (by omega)
  compact {bytes rest as} ok := by
    obtain ⟨⟨count, rest₁⟩, read, ok⟩ := Option.bind_eq_some_iff.1 ok
    have ⟨_, shorter⟩ := of_decode_number read
    obtain ⟨rfl, shorter'⟩ := lawful.of_decodeMany ok
    show (length.encode as.length ++ as.flatMap c.encode).length + _ ≤ _
    rw [List.length_append]
    rw [length]
    omega

theorem lawful_bytes : bytes.Lawful where
  pos bs := by
    have some_bytes := pos_number 8 bs.length
    show 0 < (length.encode bs.length ++ bs).length
    rw [List.length_append, length]
    omega
  decode_encode bs rest fits := by
    change (length.encode bs.length ++ bs).length < UInt64.size at fits
    rw [List.length_append] at fits
    show (length.decode ((length.encode bs.length ++ bs) ++ rest) >>=
      fun count => takeBytes count.1 count.2) = _
    rw [List.append_assoc, decode_length (by omega)]
    exact takeBytes_append bs rest
  compact {bytes rest bs} ok := by
    obtain ⟨⟨count, rest₁⟩, read, ok⟩ := Option.bind_eq_some_iff.1 ok
    have ⟨_, shorter⟩ := of_decode_number read
    obtain ⟨rfl, split⟩ := of_takeBytes ok
    have lengths := congrArg List.length split
    rw [List.length_append] at lengths
    show (length.encode bs.length ++ bs).length + _ ≤ _
    rw [List.length_append]
    rw [length]
    omega

theorem lawful_text : text.Lawful :=
  lawful_bytes.refine Bytes.toText?_ofText Bytes.ofText_of_toText?

theorem lawful_uuid : uuid.Lawful := by
  refine lawful_bytes.refine Uuid.ofBytes?_bytes ?_
  intro bytes id made
  unfold Uuid.ofBytes? at made
  split at made
  · injection made with made
    rw [← made]
  · cases made

theorem Lawful.option {c : Codec α} (lawful : c.Lawful) : (option c).Lawful where
  pos a? := by
    cases a? with
    | none => exact Nat.one_pos
    | some a => exact Nat.succ_pos _
  decode_encode a? rest fits := by
    cases a? with
    | none => rfl
    | some a =>
      change (c.encode a).length + 1 < UInt64.size at fits
      show (c.decode (c.encode a ++ rest)).map (fun a => (some a.1, a.2)) = _
      rw [lawful.decode_encode a rest (by omega)]
      rfl
  compact {bytes rest a?} ok := by
    unfold Codec.option at ok
    dsimp only at ok
    split at ok
    · cases ok
      show 1 + _ ≤ _ + 1
      omega
    · obtain ⟨⟨a, rest⟩, read, same⟩ := Option.map_eq_some_iff.1 ok
      cases same
      have shorter := lawful.compact read
      rw [List.length_cons]
      show (c.encode a).length + 1 + rest.length ≤ _ + 1
      omega
    · cases ok

/-! ## Variants -/

/-- The index of a variant is read back. -/
theorem decode_index {i : ℕ} (fits : i < UInt32.size) (rest : List UInt8) :
    index.decode (index.encode i ++ rest) = some (i, rest) :=
  decode_number (.inr (.inr (.inl ⟨Nat.le_refl 4, fits⟩))) rest

/-- Variants without content are lawful if each stands at its position. -/
theorem lawful_enumeration {values : List α} {position : α → ℕ}
    (fits : ∀ a, position a < UInt32.size) (at_position : ∀ a, values[position a]? = some a)
    (position_at : ∀ {i a}, values[i]? = some a → position a = i) :
    (enumeration values position).Lawful :=
  lawful_refine_number (fun a => .inr (.inr (.inl ⟨Nat.le_refl 4, fits a⟩))) at_position
    (fun _ found => position_at found)

/-- A value is written as the index of its variant and a content, which `read` takes back. -/
def Writes (c : Codec β) (read : ℕ × List UInt8 → Option (β × List UInt8)) (b : β) : Prop :=
  ∃ i content, i < UInt32.size ∧ c.encode b = index.encode i ++ content ∧
    ∀ rest, content.length < UInt64.size → read (i, content ++ rest) = some (b, rest)

/-- What `read` takes for a value of the variant `i` is written as that variant, and no longer. -/
def Reads (c : Codec β) (read : ℕ × List UInt8 → Option (β × List UInt8)) (i : ℕ) : Prop :=
  ∀ {bytes rest b}, read (i, bytes) = some (b, rest) →
    ∃ content, c.encode b = index.encode i ++ content ∧
      content.length + rest.length ≤ bytes.length

/-- A codec of variants is lawful if it is so variant by variant. -/
theorem lawful_of_variants {c : Codec β} {read : ℕ × List UInt8 → Option (β × List UInt8)}
    (decode : ∀ bytes, c.decode bytes = index.decode bytes >>= read)
    (writes : ∀ b, c.Writes read b) (reads : ∀ i, c.Reads read i) : c.Lawful where
  pos b := by
    obtain ⟨i, content, _, written, _⟩ := writes b
    have some_bytes := pos_number 4 i
    rw [written, List.length_append, index]
    omega
  decode_encode b rest fits := by
    obtain ⟨i, content, small, written, back⟩ := writes b
    rw [written, List.length_append] at fits
    rw [decode, written, List.append_assoc, decode_index small]
    exact back rest (by omega)
  compact {bytes rest b} ok := by
    rw [decode] at ok
    obtain ⟨⟨i, rest₁⟩, read_index, ok⟩ := Option.bind_eq_some_iff.1 ok
    have ⟨_, shorter⟩ := of_decode_number read_index
    obtain ⟨content, written, shorter'⟩ := reads i ok
    rw [written, List.length_append, index]
    omega

/-- A variant without content. -/
theorem writes_plain {c : Codec β} {read : ℕ × List UInt8 → Option (β × List UInt8)} {b : β} (i : ℕ)
    (small : i < UInt32.size) (written : c.encode b = index.encode i)
    (back : ∀ bytes, read (i, bytes) = some (b, bytes)) : c.Writes read b :=
  ⟨i, [], small, by rw [written, List.append_nil], fun rest _ => back rest⟩

theorem reads_plain {c : Codec β} {i : ℕ} {b b' : β} {bytes rest : List UInt8}
    (written : c.encode b = index.encode i) (ok : some (b, bytes) = some (b', rest)) :
    ∃ content, c.encode b' = index.encode i ++ content ∧
      content.length + rest.length ≤ bytes.length := by
  cases ok
  exact ⟨[], by rw [written, List.append_nil], by simp⟩

/-- A variant whose content is a value of another codec. -/
theorem Lawful.writes {c : Codec β} {d : Codec α} (lawful : d.Lawful)
    {read : ℕ × List UInt8 → Option (β × List UInt8)} (i : ℕ) (make : α → β) (a : α)
    (small : i < UInt32.size) (written : c.encode (make a) = index.encode i ++ d.encode a)
    (back : ∀ bytes, read (i, bytes) = wrap d make bytes) : c.Writes read (make a) := by
  refine ⟨i, d.encode a, small, written, fun rest fits => ?_⟩
  rw [back, wrap, lawful.decode_encode a rest fits]
  rfl

theorem Lawful.reads {c : Codec β} {d : Codec α} (lawful : d.Lawful) {make : α → β} {i : ℕ} {b : β}
    {bytes rest : List UInt8} (written : ∀ a, c.encode (make a) = index.encode i ++ d.encode a)
    (ok : wrap d make bytes = some (b, rest)) :
    ∃ content, c.encode b = index.encode i ++ content ∧
      content.length + rest.length ≤ bytes.length := by
  obtain ⟨⟨a, rest⟩, read, same⟩ := Option.map_eq_some_iff.1 ok
  cases same
  exact ⟨d.encode a, written a, lawful.compact read⟩

end Codec

end Weaver
