import Mathlib.Data.List.Chain
import Mathlib.Tactic.Common
import Weaver.Json.Writer
import Weaver.Proofs.Json.Numbers

/-!
# The words of JSON text

A text is a sequence of words with blanks before, between and behind them. Names and punctuation
have one spelling, numbers and texts have many: a character of a text may stand for itself, behind a
backslash, or as its number. The lexer reads every one of them.

Three things live here:

* `Token.Spelled` and `Spells`, which texts are spellings of a sequence of words;
* `lex?_of_spells`, by which the lexer finds the words in all of them, if no two words meet that
  would run into each other;
* `Token.spelled_chars`, by which the writer's spelling of a word is one.
-/

namespace Weaver.Json

open Lexer (isNumberChar)

/-! ## Spellings -/

/-- A character that may stand between words. -/
def isBlank (c : Char) : Bool :=
  c == ' ' || c == '\t' || c == '\n' || c == '\r'

/-- The letters behind a backslash with the characters that they stand for. -/
def shortEscapes : List (Char × Char) :=
  [('"', '"'), ('\\', '\\'), ('/', '/'), ('b', '\x08'), ('f', '\x0c'), ('n', '\n'), ('r', '\r'),
    ('t', '\t')]

/-- The hexadecimal digits with their values. -/
def hexDigits : List (Char × ℕ) :=
  "0123456789abcdef".toList.zipIdx ++ "ABCDEF".toList.zipIdx 10

/-- The spellings of a unit in the body of a text. -/
inductive TextUnit.Spelled : TextUnit → List Char → Prop where
  | plain {c : Char} (quote : c ≠ '"') (backslash : c ≠ '\\') (printed : 0x20 ≤ c.toNat) :
      Spelled (.char c) [c]
  | short {letter c : Char} (escape : (letter, c) ∈ shortEscapes) :
      Spelled (.char c) ['\\', letter]
  | unicode {a b c d : Char} {i j k l : ℕ} (first : (a, i) ∈ hexDigits)
      (second : (b, j) ∈ hexDigits) (third : (c, k) ∈ hexDigits) (fourth : (d, l) ∈ hexDigits) :
      Spelled (.escape (16 * (16 * (16 * i + j) + k) + l)) ['\\', 'u', a, b, c, d]

/-- The spellings of the body of a text. -/
inductive BodySpelled : List TextUnit → List Char → Prop where
  | nil : BodySpelled [] []
  | cons {u : TextUnit} {units : List TextUnit} {word body : List Char} (first : u.Spelled word)
      (rest : BodySpelled units body) : BodySpelled (u :: units) (word ++ body)

/-- Numbers and texts are spelled in more than one way. -/
def Token.isFixed : Token → Bool
  | .num _ | .text _ => false
  | _ => true

/-- The spellings of a word. -/
inductive Token.Spelled : Token → List Char → Prop where
  | fixed {t : Token} (fixed : t.isFixed = true) : Spelled t t.chars
  | num {n : Number} {literal : List Char} (spelled : n.Spelled literal) :
      Spelled (.num n) literal
  | text {units : List TextUnit} {body : List Char} (spelled : BodySpelled units body) :
      Spelled (.text ((readUnits units).map String.ofList)) ('"' :: (body ++ ['"']))

/-- The texts that consist of the given words, with blanks anywhere between them. -/
inductive Spells : List Token → List Char → Prop where
  | done : Spells [] []
  | blank {c : Char} {ts : List Token} {cs : List Char} (blank : isBlank c = true)
      (rest : Spells ts cs) : Spells ts (c :: cs)
  | word {t : Token} {ts : List Token} {word cs : List Char} (first : t.Spelled word)
      (rest : Spells ts cs) : Spells (t :: ts) (word ++ cs)

/-! ## Words that could run into each other -/

/-- The end of a name or number shows only in what comes after it. -/
def Token.isOpen : Token → Bool
  | .null | .bool _ | .num _ => true
  | _ => false

/-- Of two words in a row, one shows where it starts or where it ends. -/
def Separated (ts : List Token) : Prop :=
  ts.IsChain fun a b => a.isOpen = true → b.isOpen = false

/-- Nothing follows that could go on with a name or number. -/
def Stops (cs : List Char) : Prop :=
  ∀ c ∈ cs.head?, isNumberChar c = false ∧ c.isLower = false

lemma stops_of_spells {ts : List Token} {cs : List Char} (spells : Spells ts cs)
    (shut : ∀ t ∈ ts.head?, t.isOpen = false) : Stops cs := by
  cases spells with
  | done => exact nofun
  | blank blank rest =>
    intro c first
    cases first
    simp only [isBlank, Bool.or_eq_true, beq_iff_eq] at blank
    rcases blank with ((rfl | rfl) | rfl) | rfl <;> decide
  | @word t ts word cs first rest =>
    have shut := shut t rfl
    -- what is not open starts with its punctuation mark or quote
    have starts {c : Char} {tail : List Char} (mark : isNumberChar c = false ∧ c.isLower = false) :
        Stops (c :: tail) := by
      intro c' first
      cases first
      exact mark
    cases first with
    | num => cases shut
    | text spelled => exact starts (by decide)
    | fixed fixed =>
      cases t with
      | null | bool => cases shut
      | num | text => cases fixed
      | _ => exact starts (by decide)

/-! ## Lexing -/

namespace Lexer

/-- What the lexer makes of a text from a state on. -/
def finish (s : Lexer) (cs : List Char) : Option (List Token) :=
  (s.run cs).bind fun s => s.settle.map (·.tokens.reverse)

variable {s : Lexer} {ts : List Token} {cs : List Char}

lemma finish_cons (s : Lexer) (c : Char) (cs : List Char) :
    s.finish (c :: cs) = (s.step c).bind (·.finish cs) := by
  rw [finish, run, Option.bind_assoc]
  rfl

/-- Behind a name or number the lexer goes on as if it had begun anew. -/
lemma finish_of_stops {mode : Mode} {t : Token}
    (settles : (Lexer.mk mode ts).settle = some ⟨.between, t :: ts⟩)
    (steps : ∀ c, isNumberChar c = false → c.isLower = false →
      (Lexer.mk mode ts).step c = (Lexer.mk mode ts).settle.bind (·.start c))
    (stops : Stops cs) : finish ⟨mode, ts⟩ cs = finish ⟨.between, t :: ts⟩ cs := by
  cases cs with
  | nil =>
    rw [finish, finish, run, run, Option.bind_some, settles]
    rfl
  | cons c cs =>
    obtain ⟨number, lower⟩ := stops c rfl
    rw [finish_cons, finish_cons, steps c number lower, settles]
    rfl

lemma finish_blank {c : Char} (blank : isBlank c = true) :
    finish ⟨.between, ts⟩ (c :: cs) = finish ⟨.between, ts⟩ cs := by
  simp only [isBlank, Bool.or_eq_true, beq_iff_eq] at blank
  rcases blank with ((rfl | rfl) | rfl) | rfl <;> exact finish_cons _ _ _

/-! ### Names -/

lemma finish_fixed {t : Token} (fixed : t.isFixed = true) (stops : t.isOpen = true → Stops cs) :
    finish ⟨.between, ts⟩ (t.chars ++ cs) = finish ⟨.between, t :: ts⟩ cs := by
  have name (letters : List Char) (read : (Lexer.mk (.word letters) ts).settle
      = some ⟨.between, t :: ts⟩) (opened : t.isOpen = true) :
      finish ⟨.word letters, ts⟩ cs = finish ⟨.between, t :: ts⟩ cs :=
    finish_of_stops read (fun c _ lower => by rw [step]; simp [lower]) (stops opened)
  cases t with
  | null => exact name "null".toList.reverse rfl rfl
  | bool b =>
    cases b with
    | true => exact name "true".toList.reverse rfl rfl
    | false => exact name "false".toList.reverse rfl rfl
  | num | text => cases fixed
  | _ => exact finish_cons _ _ _

/-! ### Numbers -/

lemma finish_collect {literal : List Char} (all : ∀ c ∈ literal, isNumberChar c = true)
    (before : List Char) : finish ⟨.number before, ts⟩ (literal ++ cs)
      = finish ⟨.number (literal.reverse ++ before), ts⟩ cs := by
  induction literal generalizing before with
  | nil => rfl
  | cons c rest ih =>
    obtain ⟨first, rest'⟩ := List.forall_mem_cons.1 all
    have step : (Lexer.mk (.number before) ts).step c = some ⟨.number (c :: before), ts⟩ := by
      rw [step]
      simp [first]
    rw [List.cons_append, finish_cons, step, Option.bind_some, ih rest', List.reverse_cons,
      List.append_assoc]
    rfl

lemma start_number {c : Char} (first : c = '-' ∨ c.isDigit = true) :
    (Lexer.mk .between ts).start c = some ⟨.number [c], ts⟩ := by
  have mark : (c == '-' || c.isDigit) = true := by simpa using first
  unfold start
  split
  case h_12 => rw [if_pos mark]
  all_goals exact absurd mark (by decide)

lemma finish_num {literal : List Char} {n : Number} (spelled : n.Spelled literal)
    (stops : Stops cs) :
    finish ⟨.between, ts⟩ (literal ++ cs) = finish ⟨.between, .num n :: ts⟩ cs := by
  have value := Number.ofChars?_of_spelled spelled
  obtain ⟨⟨c, rest, rfl, first⟩, all⟩ := spelled.chars
  have rest' := (List.forall_mem_cons.1 all).2
  have settles : (Lexer.mk (.number (rest.reverse ++ [c])) ts).settle
      = some ⟨.between, .num n :: ts⟩ := by
    simp only [settle, List.reverse_append, List.reverse_reverse, List.reverse_singleton,
      List.singleton_append, value, Option.map_some]
    rfl
  calc finish ⟨.between, ts⟩ (c :: rest ++ cs)
    _ = ((Lexer.mk .between ts).start c).bind (·.finish (rest ++ cs)) := finish_cons _ _ _
    _ = finish ⟨.number [c], ts⟩ (rest ++ cs) := by rw [start_number first, Option.bind_some]
    _ = finish ⟨.number (rest.reverse ++ [c]), ts⟩ cs := finish_collect rest' [c]
    _ = finish ⟨.between, .num n :: ts⟩ cs :=
      finish_of_stops settles (fun c number _ => by rw [step]; simp [number]) stops

/-! ### Texts -/

lemma shortEscape?_of_mem {letter c : Char} (escape : (letter, c) ∈ shortEscapes) :
    shortEscape? letter = some c := by
  have all : ∀ pair ∈ shortEscapes, shortEscape? pair.1 = some pair.2 := by decide
  exact all _ escape

lemma hexValue?_of_mem {digit : Char} {value : ℕ} (listed : (digit, value) ∈ hexDigits) :
    Bytes.hexValue? digit = some value := by
  have all : ∀ pair ∈ hexDigits, Bytes.hexValue? pair.1 = some pair.2 := by decide
  exact all _ listed

lemma finish_unit {u : TextUnit} {word : List Char} (spelled : u.Spelled word)
    (units : List TextUnit) :
    finish ⟨.text units, ts⟩ (word ++ cs) = finish ⟨.text (u :: units), ts⟩ cs := by
  cases spelled with
  | @plain c quote backslash printed =>
    have step : (Lexer.mk (.text units) ts).step c = some ⟨.text (.char c :: units), ts⟩ := by
      rw [step]
      simp [quote, backslash, Nat.not_lt_of_le printed]
    rw [List.singleton_append, finish_cons, step, Option.bind_some]
  | @short letter c escape =>
    have escape := shortEscape?_of_mem escape
    have opens : (Lexer.mk (.text units) ts).step '\\' = some ⟨.escape units, ts⟩ := rfl
    have other : letter ≠ 'u' := by
      rintro rfl
      cases escape
    have closes : (Lexer.mk (.escape units) ts).step letter
        = some ⟨.text (.char c :: units), ts⟩ := by
      rw [step]
      simp [other, escape]
    rw [List.cons_append, finish_cons, opens, Option.bind_some, List.singleton_append, finish_cons,
      closes, Option.bind_some]
  | @unicode a b c d i j k l first second third fourth =>
    have opens : (Lexer.mk (.text units) ts).step '\\' = some ⟨.escape units, ts⟩ := rfl
    have marks : (Lexer.mk (.escape units) ts).step 'u' = some ⟨.unicode units 0 0, ts⟩ := rfl
    have digit {x : Char} {value count code : ℕ} (listed : (x, value) ∈ hexDigits) :
        (Lexer.mk (.unicode units count code) ts).step x
          = some (if count = 3 then ⟨.text (.escape (16 * code + value) :: units), ts⟩
            else ⟨.unicode units (count + 1) (16 * code + value), ts⟩) := by
      simp only [step, hexValue?_of_mem listed, Option.map_some]
    simp [finish_cons, opens, marks, digit first, digit second, digit third, digit fourth]

lemma finish_body {units : List TextUnit} {body : List Char} (spelled : BodySpelled units body)
    (before : List TextUnit) : finish ⟨.text before, ts⟩ (body ++ cs)
      = finish ⟨.text (units.reverse ++ before), ts⟩ cs := by
  -- on the units, with those in front of them collected already
  induction spelled generalizing before with
  | nil => rfl
  | cons first rest ih =>
    rw [List.append_assoc, finish_unit first, ih, List.reverse_cons, List.append_assoc]
    rfl

lemma finish_text {units : List TextUnit} {body : List Char} (spelled : BodySpelled units body) :
    finish ⟨.between, ts⟩ ('"' :: (body ++ ['"']) ++ cs)
      = finish ⟨.between, .text ((readUnits units).map String.ofList) :: ts⟩ cs := by
  have opens : (Lexer.mk .between ts).step '"' = some ⟨.text [], ts⟩ := rfl
  have closes : (Lexer.mk (.text (units.reverse ++ [])) ts).step '"'
      = some ⟨.between, .text ((readUnits units).map String.ofList) :: ts⟩ := by
    rw [step, List.append_nil]
    simp [emit]
  rw [List.cons_append, List.append_assoc, finish_cons, opens, Option.bind_some,
    finish_body spelled, List.singleton_append, finish_cons, closes, Option.bind_some]

end Lexer

/-! ## Whole texts -/

/-- In every text that spells words, the lexer finds these words. -/
theorem lex?_of_spells {ts : List Token} {cs : List Char} (spells : Spells ts cs)
    (separated : Separated ts) : lex? cs = some ts := by
  have finds {ts : List Token} {cs : List Char} (spells : Spells ts cs)
      (separated : Separated ts) (before : List Token) :
      Lexer.finish ⟨.between, before⟩ cs = some (before.reverse ++ ts) := by
    -- a word that shows no end of its own ends where the next one starts
    induction spells generalizing before with
    | done => rw [List.append_nil]; rfl
    | blank blank rest ih => rw [Lexer.finish_blank blank, ih separated]
    | @word t ts word cs first rest ih =>
      obtain ⟨next, others⟩ := List.isChain_cons.1 separated
      have stops (opened : t.isOpen = true) : Stops cs :=
        stops_of_spells rest fun t' member => next t' member opened
      have found : Lexer.finish ⟨.between, before⟩ (word ++ cs)
          = Lexer.finish ⟨.between, t :: before⟩ cs := by
        cases first with
        | fixed fixed => exact Lexer.finish_fixed fixed stops
        | num spelled => exact Lexer.finish_num spelled (stops rfl)
        | text spelled => exact Lexer.finish_text spelled
      rw [found, ih others, List.reverse_cons, List.append_assoc]
      rfl
  exact finds spells separated []

/-! ## The writer's spelling -/

/-- What is written inside quotes for a character is read as this character. -/
lemma exists_unit_of_escapeChar (c : Char) : ∃ u : TextUnit, u.Spelled (escapeChar c) ∧
    ∀ units, readUnits (u :: units) = (readUnits units).map (c :: ·) := by
  unfold escapeChar
  split
  case h_8 quote backslash _ _ _ _ _ =>
    split
    next control =>
      -- the code has two digits, and no surrogate has so few
      have code : c.toNat.toUInt8.toNat = c.toNat := by
        simp only [Nat.toUInt8_eq, UInt8.toNat_ofNat']
        omega
      have zero : ('0', 0) ∈ hexDigits := by decide
      have digit {d : ℕ} (small : d < 16) : (Nat.digitChar d, d) ∈ hexDigits := by
        have all : ∀ d < 16, (Nat.digitChar d, d) ∈ hexDigits := by decide
        exact all d small
      refine ⟨_, .unicode zero zero (digit (d := c.toNat.toUInt8.toNat / 16) (by omega))
        (digit (d := c.toNat.toUInt8.toNat % 16) (by omega)), fun units => ?_⟩
      have whole : 16 * (16 * (16 * 0 + 0) + c.toNat / 16) + c.toNat % 16 = c.toNat := by omega
      rw [code, whole, readUnits.eq_def]
      dsimp only
      rw [if_neg (by omega), if_neg (by omega), Char.ofNat_toNat]
    next printed => exact ⟨.char c, .plain quote backslash (by omega), fun _ => rfl⟩
  all_goals exact ⟨.char _, .short (by decide), fun _ => rfl⟩

lemma exists_bodySpelled_of_escapeChar (cs : List Char) :
    ∃ units, BodySpelled units (cs.flatMap escapeChar) ∧ readUnits units = some cs := by
  induction cs with
  | nil => exact ⟨[], .nil, rfl⟩
  | cons c cs ih =>
    obtain ⟨u, spelled, reads⟩ := exists_unit_of_escapeChar c
    obtain ⟨units, rest, all⟩ := ih
    refine ⟨u :: units, .cons spelled rest, ?_⟩
    rw [reads, all]
    rfl

lemma spelled_quoted (s : Option String) : (Token.text s).Spelled (quoted s) := by
  cases s with
  | none =>
    have half : BodySpelled [.escape 0xD800] ['\\', 'u', 'd', '8', '0', '0'] :=
      .cons (.unicode (i := 13) (j := 8) (k := 0) (l := 0) (by decide) (by decide) (by decide)
        (by decide)) .nil
    exact .text half
  | some s =>
    obtain ⟨units, spelled, reads⟩ := exists_bodySpelled_of_escapeChar s.toList
    have text := Token.Spelled.text spelled
    rwa [reads, Option.map_some, String.ofList_toList] at text

/-- A word that is no illegible number. -/
def Token.Legible : Token → Prop
  | .num n => n.Legible
  | _ => True

/-- The writer's spelling of a word is one that the lexer reads. -/
theorem Token.spelled_chars {t : Token} (legible : t.Legible) : t.Spelled t.chars := by
  cases t with
  | num n => exact .num legible
  | text s => exact spelled_quoted s
  | _ => exact .fixed rfl

end Weaver.Json
