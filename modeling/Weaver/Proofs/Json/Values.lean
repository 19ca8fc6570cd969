import Weaver.Json.Reader
import Weaver.Proofs.Json.Words

/-!
# JSON values there and back

A value is read from its words, and so from every text that spells them, however the words are
spelled and wherever there are blanks.

Three things live here:

* `ofTokens?_tokens`, by which the reader puts a value together from its words;
* `ofText?_of_spells`, by which it is read from every text that spells them;
* `spells_compact` and `spells_indented`, by which the two forms that are written are such texts, if
  the value's numbers are legible.
-/

namespace Weaver.Json

/-! ## Reading words -/

namespace Reader

variable {layers : List Layer} {ts : List Token}

/-- The first word of a value starts one. -/
lemma exists_tokens_eq (j : Json) : ∃ t ts, j.tokens = t :: ts ∧ t ≠ .closeArray := by
  cases j with
  | array items => cases items <;> exact ⟨_, _, rfl, nofun⟩
  | object members => cases members <;> exact ⟨_, _, rfl, nofun⟩
  | _ => exact ⟨_, _, rfl, nofun⟩

/-- The first item of an array comes where the array might have ended. -/
lemma run_valueOrClose (j : Json) : run ⟨layers, .valueOrClose⟩ (j.tokens ++ ts)
    = run ⟨.array [] :: layers, .value⟩ (j.tokens ++ ts) := by
  obtain ⟨t, rest, words, other⟩ := exists_tokens_eq j
  have same : step ⟨layers, .valueOrClose⟩ t = step ⟨.array [] :: layers, .value⟩ t := by
    cases t with
    | closeArray => exact absurd rfl other
    | _ => rfl
  rw [words, List.cons_append, run, run, same]

-- Induction on the value, with the items and members of arrays and objects in the same block. The
-- open layers below it and the words behind it are arbitrary, so that each part can stand anywhere.

mutual

/-- A value is put together from its words. -/
theorem run_tokens (layers : List Layer) (ts : List Token) :
    ∀ j : Json, run ⟨layers, .value⟩ (j.tokens ++ ts) = (put layers j).run ts
  | .null | .bool _ | .num _ | .text _ | .array [] | .object [] => rfl
  | .array (item :: rest) => by
    have first := run_tokens (.array [] :: layers) (itemTokens rest ++ .closeArray :: ts) item
    have others := run_itemTokens layers [item] ts rest
    rw [tokens, List.cons_append, List.append_assoc, List.append_assoc]
    exact (run_valueOrClose item).trans (first.trans others)
  | .object ((key, value) :: rest) => by
    have first := run_tokens (.object [] key :: layers) (memberTokens rest ++ .closeObject :: ts)
      value
    have others := run_memberTokens layers [(key, value)] ts rest
    rw [tokens, List.cons_append, List.cons_append, List.cons_append, List.append_assoc,
      List.append_assoc]
    exact first.trans others

/-- The items after the first are put behind those that have been read. -/
theorem run_itemTokens (layers : List Layer) (items : List Json) (ts : List Token) :
    ∀ rest : List Json, run ⟨layers, .moreItems items⟩ (itemTokens rest ++ .closeArray :: ts)
      = (put layers (.array (items.reverse ++ rest))).run ts
  | [] => by rw [List.append_nil]; rfl
  | item :: rest => by
    have first := run_tokens (.array items :: layers) (itemTokens rest ++ .closeArray :: ts) item
    have others := run_itemTokens layers (item :: items) ts rest
    rw [List.reverse_cons, List.append_assoc, List.singleton_append] at others
    rw [itemTokens, List.cons_append, List.append_assoc]
    exact first.trans others

/-- The members after the first are put behind those that have been read. -/
theorem run_memberTokens (layers : List Layer) (members : List (Option String × Json))
    (ts : List Token) : ∀ rest : List (Option String × Json),
      run ⟨layers, .moreMembers members⟩ (memberTokens rest ++ .closeObject :: ts)
        = (put layers (.object (members.reverse ++ rest))).run ts
  | [] => by rw [List.append_nil]; rfl
  | (key, value) :: rest => by
    have first := run_tokens (.object members key :: layers)
      (memberTokens rest ++ .closeObject :: ts) value
    have others := run_memberTokens layers ((key, value) :: members) ts rest
    rw [List.reverse_cons, List.append_assoc, List.singleton_append] at others
    rw [memberTokens, List.cons_append, List.cons_append, List.cons_append, List.append_assoc]
    exact first.trans others

end

end Reader

/-- A value is read from its words. -/
theorem ofTokens?_tokens (j : Json) : ofTokens? j.tokens = some j := by
  have read := Reader.run_tokens [] [] j
  rw [List.append_nil] at read
  rw [ofTokens?, read]
  rfl

/-! ## Reading text -/

/-- Punctuation and texts run into no word. -/
lemma separated_cons {t : Token} {ts : List Token} (shut : t.isOpen = false)
    (separated : Separated ts) : Separated (t :: ts) :=
  List.isChain_cons.2 ⟨fun _ _ opened => absurd (shut.symm.trans opened) nofun, separated⟩

lemma separated_cons_of_head {t : Token} {ts : List Token} (separated : Separated ts)
    (head : ∀ t ∈ ts.head?, t.isOpen = false) : Separated (t :: ts) :=
  List.isChain_cons.2 ⟨fun t' first _ => head t' first, separated⟩

mutual

/-- No two words of a value run into each other. -/
theorem separated_tokens {ts : List Token} (separated : Separated ts)
    (head : ∀ t ∈ ts.head?, t.isOpen = false) : ∀ j : Json, Separated (j.tokens ++ ts)
  | .null | .bool _ | .num _ | .text _ => separated_cons_of_head separated head
  | .array [] | .object [] => separated_cons rfl (separated_cons rfl separated)
  | .array (item :: rest) => by
    obtain ⟨others, shut⟩ := separated_itemTokens (separated_cons (t := .closeArray) rfl separated)
      (by rintro t ⟨⟩; rfl) rest
    rw [tokens, List.cons_append, List.append_assoc, List.append_assoc]
    exact separated_cons rfl (separated_tokens others shut item)
  | .object ((key, value) :: rest) => by
    obtain ⟨others, shut⟩ := separated_memberTokens
      (separated_cons (t := .closeObject) rfl separated) (by rintro t ⟨⟩; rfl) rest
    rw [tokens, List.cons_append, List.cons_append, List.cons_append, List.append_assoc,
      List.append_assoc]
    exact separated_cons rfl <| separated_cons rfl <| separated_cons rfl <|
      separated_tokens others shut value

/-- Nor do those of items. -/
theorem separated_itemTokens {ts : List Token} (separated : Separated ts)
    (head : ∀ t ∈ ts.head?, t.isOpen = false) : ∀ rest : List Json,
      Separated (itemTokens rest ++ ts) ∧ ∀ t ∈ (itemTokens rest ++ ts).head?, t.isOpen = false
  | [] => ⟨separated, head⟩
  | item :: rest => by
    obtain ⟨others, shut⟩ := separated_itemTokens separated head rest
    rw [itemTokens, List.cons_append, List.append_assoc]
    exact ⟨separated_cons rfl (separated_tokens others shut item), by rintro t ⟨⟩; rfl⟩

/-- Nor do those of members. -/
theorem separated_memberTokens {ts : List Token} (separated : Separated ts)
    (head : ∀ t ∈ ts.head?, t.isOpen = false) : ∀ rest : List (Option String × Json),
      Separated (memberTokens rest ++ ts) ∧
        ∀ t ∈ (memberTokens rest ++ ts).head?, t.isOpen = false
  | [] => ⟨separated, head⟩
  | (key, value) :: rest => by
    obtain ⟨others, shut⟩ := separated_memberTokens separated head rest
    rw [memberTokens, List.cons_append, List.cons_append, List.cons_append, List.append_assoc]
    refine ⟨?_, by rintro t ⟨⟩; rfl⟩
    exact separated_cons rfl <| separated_cons rfl <| separated_cons rfl <|
      separated_tokens others shut value

end

/-- A value is read from every text that spells its words. -/
theorem ofText?_of_spells {j : Json} {text : String} (spells : Spells j.tokens text.toList) :
    ofText? text = some j := by
  have none : Separated [] := .nil
  have separated := separated_tokens none nofun j
  rw [List.append_nil] at separated
  rw [ofText?, lex?_of_spells spells separated]
  exact ofTokens?_tokens j

/-! ## Writing text -/

/-- A value whose numbers are legible. -/
def Legible (j : Json) : Prop :=
  ∀ t ∈ j.tokens, t.Legible

lemma legible_itemTokens {items : List Json} :
    (∀ t ∈ itemTokens items, t.Legible) ↔ ∀ item ∈ items, item.Legible := by
  induction items with
  | nil => simp [itemTokens]
  | cons item rest ih =>
    rw [itemTokens, List.forall_mem_cons, List.forall_mem_append, ih, List.forall_mem_cons]
    exact and_iff_right trivial

lemma legible_memberTokens {members : List (Option String × Json)} :
    (∀ t ∈ memberTokens members, t.Legible) ↔ ∀ member ∈ members, member.2.Legible := by
  induction members with
  | nil => simp [memberTokens]
  | cons member rest ih =>
    rw [memberTokens, List.forall_mem_cons, List.forall_mem_cons, List.forall_mem_cons,
      List.forall_mem_append, ih, List.forall_mem_cons]
    simp [Token.Legible, Legible]

/-- An array is legible if its items are. -/
lemma legible_array {items : List Json} :
    (array items).Legible ↔ ∀ item ∈ items, item.Legible := by
  cases items with
  | nil => simp [Legible, tokens, Token.Legible]
  | cons item rest =>
    rw [Legible, tokens, List.forall_mem_cons, List.forall_mem_append, List.forall_mem_append,
      legible_itemTokens, List.forall_mem_cons]
    simp [Token.Legible, Legible]

/-- An object is legible if the values of its members are. -/
lemma legible_object {members : List (Option String × Json)} :
    (object members).Legible ↔ ∀ member ∈ members, member.2.Legible := by
  cases members with
  | nil => simp [Legible, tokens, Token.Legible]
  | cons member rest =>
    rw [Legible, tokens, List.forall_mem_cons, List.forall_mem_cons, List.forall_mem_cons,
      List.forall_mem_append, List.forall_mem_append, legible_memberTokens, List.forall_mem_cons]
    simp [Token.Legible, Legible]

/-- An object with readable keys is legible if the values of its members are. -/
lemma legible_ofMembers {members : List (String × Json)} :
    (ofMembers members).Legible ↔ ∀ member ∈ members, member.2.Legible := by
  rw [ofMembers, legible_object, List.forall_mem_map]

lemma legible_null : null.Legible := by
  simp [Legible, tokens, Token.Legible]

lemma legible_bool (b : Bool) : (bool b).Legible := by
  simp [Legible, tokens, Token.Legible]

lemma legible_str (s : String) : (str s).Legible := by
  simp [Legible, str, tokens, Token.Legible]

lemma legible_num {n : Number} : (num n).Legible ↔ n.Legible := by
  simp [Legible, tokens, Token.Legible]

lemma legible_int (n : ℤ) : (int n).Legible :=
  legible_num.2 (Number.legible_integer n)

/-- A fixed word is written as it is. -/
lemma Spells.cons_fixed {t : Token} {ts : List Token} {cs : List Char} (fixed : t.isFixed = true)
    (rest : Spells ts cs) : Spells (t :: ts) (t.chars ++ cs) :=
  .word (.fixed fixed) rest

/-- The compact text of a value spells its words. -/
theorem spells_compact {j : Json} (legible : j.Legible) : Spells j.tokens j.compact.toList := by
  have words {ts : List Token} (legible : ∀ t ∈ ts, t.Legible) :
      Spells ts (ts.flatMap Token.chars) := by
    induction ts with
    | nil => exact .done
    | cons t ts ih =>
      obtain ⟨first, rest⟩ := List.forall_mem_cons.1 legible
      exact .word (Token.spelled_chars first) (ih rest)
  rw [compact, String.toList_ofList]
  exact words legible

lemma spells_newLine {ts : List Token} {cs : List Char} (depth : ℕ) (rest : Spells ts cs) :
    Spells ts (newLine depth ++ cs) := by
  have blanks (n : ℕ) : Spells ts (List.replicate n ' ' ++ cs) := by
    induction n with
    | zero => exact rest
    | succ n ih => exact .blank rfl ih
  exact .blank rfl (blanks _)

/-- A key and the blank behind its colon. -/
lemma spells_key {ts : List Token} {cs : List Char} (key : Option String) (rest : Spells ts cs) :
    Spells (.text key :: .colon :: ts) (quoted key ++ ([':', ' '] ++ cs)) :=
  .word (spelled_quoted key) ((Spells.blank (c := ' ') rfl rest).cons_fixed (t := .colon) rfl)

mutual

/-- The indented text of a value spells its words at every depth. -/
theorem spells_indentedChars {ts : List Token} {cs : List Char} (rest : Spells ts cs)
    (depth : ℕ) : ∀ j : Json, j.Legible → Spells (j.tokens ++ ts) (indentedChars depth j ++ cs)
  | .null, _ => rest.cons_fixed (t := .null) rfl
  | .bool true, _ => rest.cons_fixed (t := .bool true) rfl
  | .bool false, _ => rest.cons_fixed (t := .bool false) rfl
  | .num n, legible => .word (.num (legible (.num n) List.mem_cons_self)) rest
  | .text s, _ => .word (spelled_quoted s) rest
  | .array [], _ => (rest.cons_fixed (t := .closeArray) rfl).cons_fixed (t := .openArray) rfl
  | .object [], _ => (rest.cons_fixed (t := .closeObject) rfl).cons_fixed (t := .openObject) rfl
  | .array (item :: items), legible => by
    obtain ⟨head, tail⟩ := List.forall_mem_cons.1 (legible_array.1 legible)
    have ends := spells_newLine depth (rest.cons_fixed (t := .closeArray) rfl)
    have others := spells_indentedItems ends depth items tail
    have first := spells_indentedChars others (depth + 1) item head
    have all := (spells_newLine (depth + 1) first).cons_fixed (t := .openArray) rfl
    simpa [tokens, indentedChars, Token.chars] using all
  | .object ((key, value) :: members), legible => by
    obtain ⟨head, tail⟩ := List.forall_mem_cons.1 (legible_object.1 legible)
    have ends := spells_newLine depth (rest.cons_fixed (t := .closeObject) rfl)
    have others := spells_indentedMembers ends depth members tail
    have first := spells_indentedChars others (depth + 1) value head
    have named := spells_newLine (depth + 1) (spells_key key first)
    have all := named.cons_fixed (t := .openObject) rfl
    simpa [tokens, indentedChars, Token.chars] using all

/-- The lines of the items after the first spell their words. -/
theorem spells_indentedItems {ts : List Token} {cs : List Char} (rest : Spells ts cs)
    (depth : ℕ) : ∀ items : List Json, (∀ item ∈ items, item.Legible) →
      Spells (itemTokens items ++ ts) (indentedItems depth items ++ cs)
  | [], _ => rest
  | item :: items, legible => by
    obtain ⟨head, tail⟩ := List.forall_mem_cons.1 legible
    have others := spells_indentedItems rest depth items tail
    have first := spells_indentedChars others (depth + 1) item head
    have all := (spells_newLine (depth + 1) first).cons_fixed (t := .comma) rfl
    simpa [itemTokens, indentedItems, Token.chars] using all

/-- The lines of the members after the first spell their words. -/
theorem spells_indentedMembers {ts : List Token} {cs : List Char} (rest : Spells ts cs)
    (depth : ℕ) : ∀ members : List (Option String × Json),
      (∀ member ∈ members, member.2.Legible) →
      Spells (memberTokens members ++ ts) (indentedMembers depth members ++ cs)
  | [], _ => rest
  | (key, value) :: members, legible => by
    obtain ⟨head, tail⟩ := List.forall_mem_cons.1 legible
    have others := spells_indentedMembers rest depth members tail
    have first := spells_indentedChars others (depth + 1) value head
    have named := spells_newLine (depth + 1) (spells_key key first)
    have all := named.cons_fixed (t := .comma) rfl
    simpa [memberTokens, indentedMembers, Token.chars] using all

end

/-- The indented text of a value spells its words. -/
theorem spells_indented {j : Json} (legible : j.Legible) : Spells j.tokens j.indented.toList := by
  have all := spells_indentedChars .done 0 j legible
  rw [List.append_nil, List.append_nil] at all
  rwa [indented, String.toList_ofList]

end Weaver.Json
