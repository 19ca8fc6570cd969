import Weaver.Proofs.Weave.Edits

/-!
# How a weave ends

How a weave ends can be told from the module as it is given: from its stamp and the names of its
types, from its markers, and from the first of its edits that is refused. Where no two types share a
name, every edit is about the type that it was called for, so it can only be refused for a name that
is taken, and the first one refused is the first whose type has a member of that name.

Four things live here:

* `Module.verdict` and `outcome_run`, by which every weave ends as it can be told;
* `Module.verdict_eq_error_iff` and its like, when a module ends in each way;
* `Module.clash?`, the types that would get a method but have a member of its name;
* `settles_of_nodup`, how weaves end where no two types share a name.
-/

namespace Weaver

/-! ## The verdict -/

/-- The names of the types that targets of a kind are about. -/
def Targets.names (targets : Targets) : EntryKind → List String
  | .factory => targets.constructable.map (·.ty)
  | .injector => targets.injectable.map (·.ty)

/-- Edits that are all of one kind are all or none of them of a kind. -/
lemma map_ty_filter_kind {τ : Type} {edit : τ → TypeEdit} {own : EntryKind}
    (same : ∀ a, (edit a).kind = own) (targets : List τ) (kind : EntryKind) :
    ((targets.map edit).filter (·.kind == kind)).map (·.ty)
      = if own = kind then targets.map fun a => (edit a).ty else [] := by
  rw [List.filter_map, List.map_map]
  split
  next of =>
    have all : targets.filter ((·.kind == kind) ∘ edit) = targets :=
      List.filter_eq_self.2 fun a _ => beq_iff_eq.2 ((same a).trans of)
    rw [all]
    rfl
  next other =>
    have none : targets.filter ((·.kind == kind) ∘ edit) = [] :=
      List.filter_eq_nil_iff.2 fun a _ has => other ((same a).symm.trans (eq_of_beq has))
    rw [none]
    rfl

lemma ConstructorTarget.kind_edit (c : ConstructorTarget) : c.edit.kind = .factory :=
  rfl

lemma FieldTarget.kind_edit (f : FieldTarget) : f.edit.kind = .injector :=
  rfl

lemma Targets.map_ty_edits (targets : Targets) (kind : EntryKind) :
    (targets.edits.filter (·.kind == kind)).map (·.ty) = targets.names kind := by
  have factories := map_ty_filter_kind ConstructorTarget.kind_edit targets.constructable kind
  have injectors := map_ty_filter_kind FieldTarget.kind_edit targets.injectable kind
  rw [edits, List.filter_append, List.map_append, factories, injectors]
  cases kind with
  | factory => exact List.append_nil _
  | injector => rfl

/-- The report of a weave of the module. -/
def Module.report (m : Module) (options : WeaveOptions) : WeaveReport where
  module := m.name
  registrar := registrarName m.name options.registrarName
  factories := m.allTargets.names .factory
  injectors := m.allTargets.names .injector

/-- How a weave of the module ends, told without any edits. -/
def Module.verdict (m : Module) (options : WeaveOptions) : Except WeaveError WeaveOutcome :=
  if m.isWoven (registrarName m.name options.registrarName) then .ok .alreadyWoven
  else if m.allTargets.isEmpty then .ok .nothingToWeave
  else match m.refusal? [] m.allTargets.edits with
    | some e => .error e
    | none => .ok (.woven (m.report options))

namespace WeaveCall

lemma outcome_eq (m : Module) (options : WeaveOptions) (supply : IdSupply) :
    (run { options, supply } m).outcome = (m.weave options supply).map (·.1) := by
  simp only [run, Bool.false_eq_true, if_false]
  cases m.weave options supply <;> rfl

lemma given_run (m : Module) (options : WeaveOptions) (supply : IdSupply) :
    (run { options, supply } m).given = m := by
  simp only [run, Bool.false_eq_true, if_false]
  cases m.weave options supply <;> rfl

end WeaveCall

/-- A weave ends as it was told without any edits. -/
lemma outcome_run (m : Module) (options : WeaveOptions) (supply : IdSupply) :
    (WeaveCall.run { options, supply } m).outcome = m.verdict options := by
  rw [WeaveCall.outcome_eq, Module.weave, Module.verdict]
  cases recognised : m.isWoven (registrarName m.name options.registrarName) with
  | true => rfl
  | false =>
    have absent := Module.typeNamed?_of_not_isWoven recognised
    simp only [Bool.false_eq_true, if_false, Module.targets_eq_allTargets absent]
    cases m.allTargets.isEmpty with
    | true => rfl
    | false =>
      simp only [Bool.false_eq_true, if_false]
      rw [Draft.addAll_eq_foldlM, Draft.foldlM_attempt (Module.EditedBy.refl m)]
      cases m.refusal? [] m.allTargets.edits with
      | some e => rfl
      | none =>
        -- no edit has brought in a type of the registrar's name
        let start : Draft := { module := m, supply }
        obtain ⟨made, edited⟩ := Draft.editedBy_foldl (d := start) (Module.EditedBy.refl m)
          m.allTargets.edits
        have entries := start.entries_foldl m.allTargets.edits
        generalize m.allTargets.edits.foldl Draft.carryOut start = d at edited entries
        have free := edited (registrarName m.name options.registrarName)
        rw [absent] at free
        cases found : d.module.typeNamed? (registrarName m.name options.registrarName) with
        | some t =>
          rw [found] at free
          cases free
        | none =>
          have reported (kind : EntryKind) : (d.entries kind).map (·.ty) = m.allTargets.names kind := by
            rw [entries, Targets.map_ty_edits]
            cases kind <;> rfl
          obtain ⟨registrar, rest, added⟩ := Draft.addRegistrar_eq found options.editorOnly
          show Except.map _ (d.addRegistrar _ _ >>= _) = _
          rw [added]
          refine congrArg (fun report => Except.ok (WeaveOutcome.woven report)) ?_
          rw [Module.report, ← reported, ← reported]
          rfl

/-! ## How every weave ends -/

namespace Module

/-- The module carries a stamp or has a type of its registrar's name. -/
def Recognised (m : Module) (registrar : String) : Prop :=
  m.stamp.isSome ∨ ∃ t ∈ m.types, t.name = registrar

/-- Some type that is no interface has a marked field or, if it can be constructed, a marked
constructor. -/
def HasTargets (m : Module) : Prop :=
  ∃ t ∈ m.types, t.isInterface = false ∧
    ((∃ f ∈ t.fields, f.isMarked) ∨ (t.isAbstract = false ∧ ∃ c ∈ t.constructors, c.isMarked))

variable {m : Module}

lemma isWoven_iff {registrar : String} : m.isWoven registrar ↔ m.Recognised registrar := by
  rw [isWoven, Bool.or_eq_true, typeNamed?, List.find?_isSome, Recognised]
  simp only [beq_iff_eq]

lemma hasTargets_iff : m.HasTargets ↔ ∃ t ∈ m.types, ∃ kind, t.gets kind := by
  refine exists_congr fun t => and_congr_right fun _ => ⟨?_, ?_⟩
  · rintro ⟨proper, ⟨f, member, marked⟩ | ⟨concrete, c, member, marked⟩⟩
    · refine ⟨.injector, ?_⟩
      simp only [TypeDef.gets, proper, List.any_eq_true.2 ⟨f, member, marked⟩]
      rfl
    · refine ⟨.factory, ?_⟩
      simp only [TypeDef.gets, proper, concrete, List.any_eq_true.2 ⟨c, member, marked⟩]
      rfl
  · rintro ⟨_ | _, gets⟩
    · simp only [TypeDef.gets, Bool.and_eq_true, Bool.not_eq_true', List.any_eq_true] at gets
      exact ⟨gets.1.1, .inr ⟨gets.1.2, gets.2⟩⟩
    · simp only [TypeDef.gets, Bool.and_eq_true, Bool.not_eq_true', List.any_eq_true] at gets
      exact ⟨gets.1, .inl gets.2⟩

lemma isEmpty_allTargets_iff : m.allTargets.isEmpty ↔ ¬m.HasTargets := by
  have empty {τ : Type} {target? : TypeDef → Option τ} {kind : EntryKind}
      (hit : ∀ t, (target? t).isSome = t.gets kind) :
      (m.types.filterMap target?).isEmpty ↔ ∀ t ∈ m.types, ¬t.gets kind := by
    rw [List.isEmpty_iff, List.filterMap_eq_nil_iff]
    refine forall₂_congr fun t _ => ?_
    rw [← hit, Option.not_isSome_iff_eq_none]
  rw [Targets.isEmpty, Bool.and_eq_true, allTargets, empty TypeDef.isSome_constructorTarget?,
    empty TypeDef.isSome_fieldTarget?, hasTargets_iff]
  constructor
  · rintro ⟨factories, injectors⟩ ⟨t, member, _ | _, gets⟩
    · exact factories t member gets
    · exact injectors t member gets
  · intro none
    exact ⟨fun t member gets => none ⟨t, member, .factory, gets⟩,
      fun t member gets => none ⟨t, member, .injector, gets⟩⟩

lemma edits_of_not_hasTargets (none : ¬m.HasTargets) : m.allTargets.edits = [] := by
  have empty := isEmpty_allTargets_iff.2 none
  rw [Targets.isEmpty, Bool.and_eq_true, List.isEmpty_iff, List.isEmpty_iff] at empty
  rw [Targets.edits, empty.1, empty.2]
  rfl

section Verdict

variable {options : WeaveOptions}

lemma verdict_of_not_recognised
    (unknown : ¬m.Recognised (registrarName m.name options.registrarName)) :
    m.verdict options = if m.allTargets.isEmpty then .ok .nothingToWeave
      else match m.refusal? [] m.allTargets.edits with
        | some e => .error e
        | none => .ok (.woven (m.report options)) :=
  if_neg fun woven => unknown (isWoven_iff.1 woven)

lemma verdict_eq_alreadyWoven_iff : m.verdict options = .ok .alreadyWoven
    ↔ m.Recognised (registrarName m.name options.registrarName) := by
  by_cases recognised : m.Recognised (registrarName m.name options.registrarName)
  · rw [verdict, if_pos (isWoven_iff.2 recognised)]
    exact iff_of_true rfl recognised
  · rw [verdict_of_not_recognised recognised]
    refine iff_of_false (fun same => ?_) recognised
    split at same
    · cases same
    · split at same <;> cases same

lemma verdict_eq_nothingToWeave_iff : m.verdict options = .ok .nothingToWeave
    ↔ ¬m.Recognised (registrarName m.name options.registrarName) ∧ ¬m.HasTargets := by
  by_cases recognised : m.Recognised (registrarName m.name options.registrarName)
  · rw [verdict_eq_alreadyWoven_iff.2 recognised]
    exact iff_of_false nofun fun other => other.1 recognised
  · rw [verdict_of_not_recognised recognised]
    split
    next empty => exact iff_of_true rfl ⟨recognised, isEmpty_allTargets_iff.1 empty⟩
    next some =>
      refine iff_of_false (fun same => ?_) fun other => some (isEmpty_allTargets_iff.2 other.2)
      split at same <;> cases same

/-- A weave fails at the first edit that is refused. -/
lemma verdict_eq_error_iff {e : WeaveError} : m.verdict options = .error e
    ↔ ¬m.Recognised (registrarName m.name options.registrarName) ∧
      m.refusal? [] m.allTargets.edits = some e := by
  by_cases recognised : m.Recognised (registrarName m.name options.registrarName)
  · rw [verdict_eq_alreadyWoven_iff.2 recognised]
    exact iff_of_false nofun fun other => other.1 recognised
  · rw [verdict_of_not_recognised recognised]
    split
    next empty =>
      rw [edits_of_not_hasTargets (isEmpty_allTargets_iff.1 empty)]
      exact iff_of_false nofun fun other => nomatch other.2
    next =>
      cases m.refusal? [] m.allTargets.edits with
      | none => exact iff_of_false nofun fun other => nomatch other.2
      | some refused => simp [recognised]

lemma verdict_eq_woven_iff {report : WeaveReport} : m.verdict options = .ok (.woven report)
    ↔ ¬m.Recognised (registrarName m.name options.registrarName) ∧ m.HasTargets ∧
      m.refusal? [] m.allTargets.edits = none ∧ report = m.report options := by
  by_cases recognised : m.Recognised (registrarName m.name options.registrarName)
  · rw [verdict_eq_alreadyWoven_iff.2 recognised]
    exact iff_of_false nofun fun other => other.1 recognised
  · rw [verdict_of_not_recognised recognised]
    split
    next empty =>
      exact iff_of_false nofun fun other => isEmpty_allTargets_iff.1 empty other.2.1
    next some =>
      have targets : m.HasTargets := not_not.1 fun none => some (isEmpty_allTargets_iff.2 none)
      cases m.refusal? [] m.allTargets.edits with
      | some e => exact iff_of_false nofun fun other => nomatch other.2.2.1
      | none => simp [recognised, targets, eq_comm]

end Verdict

end Module

/-! ## How weaves end if names are distinct -/

/-- Edits of different types or kinds are refused for what the module was before all of them. -/
lemma Module.refusal?_eq_findSome? (m : Module) {made : List (String × EntryKind)}
    {edits : List TypeEdit} (apart : (edits.map fun x => (x.ty, x.kind)).Nodup)
    (fresh : ∀ x ∈ edits, (x.ty, x.kind) ∉ made) :
    m.refusal? made edits = edits.findSome? (m.refusalOf? []) := by
  induction edits generalizing made with
  | nil => rfl
  | cons x rest ih =>
    rw [List.map_cons, List.nodup_cons] at apart
    have later : ∀ y ∈ rest, (y.ty, y.kind) ∉ (x.ty, x.kind) :: made := fun y member listed => by
      rcases List.mem_cons.1 listed with same | old
      · exact apart.1 (same ▸ List.mem_map_of_mem member)
      · exact fresh y (List.mem_cons_of_mem _ member) old
    have first : m.refusalOf? made x = m.refusalOf? [] x := by
      simp only [refusalOf?, if_neg (fresh x List.mem_cons_self), if_neg List.not_mem_nil]
    rw [refusal?, ih apart.2 later, first, List.findSome?_cons]
    cases m.refusalOf? [] x <;> rfl

/-- Values for what a list selects, if only elements with a property have one. -/
lemma findSome?_filterMap_eq {α β γ : Type} {p : α → Bool} {f : α → γ} {g : β → Option γ}
    {select : α → Option β} {l : List α}
    (same : ∀ a ∈ l, (select a).bind g = if p a then some (f a) else none) :
    (l.filterMap select).findSome? g = (l.find? p).map f := by
  induction l with
  | nil => rfl
  | cons a rest ih =>
    have own := same a List.mem_cons_self
    have later := ih fun b member => same b (List.mem_cons_of_mem _ member)
    rw [List.filterMap_cons, List.find?_cons]
    cases hit : p a with
    | true =>
      rw [hit, if_pos rfl] at own
      obtain ⟨b, selected, value⟩ := Option.bind_eq_some_iff.1 own
      simp only [selected, List.findSome?_cons, value]
      rfl
    | false =>
      rw [hit, if_neg Bool.false_ne_true] at own
      cases selected : select a with
      | none => exact later
      | some b =>
        rw [selected, Option.bind_some] at own
        simp only [List.findSome?_cons, own]
        exact later

/-- The first type that gets a method of a kind although a member has its name. -/
def Module.clash? (m : Module) (kind : EntryKind) : Option TypeDef :=
  m.types.find? fun t => t.gets kind && t.hasMemberNamed kind.memberName

namespace TypeDef

/-- A type bears out the target that it is. -/
lemma lacks?_of_constructorTarget? {t : TypeDef} {c : ConstructorTarget}
    (target : t.constructorTarget? = some c) : c.edit.lacks? t = none := by
  have gets : t.gets .factory = true := by
    rw [← isSome_constructorTarget?, target]
    rfl
  obtain ⟨ctor, marked, same⟩ := markedConstructor?_of_gets gets
  obtain rfl : c = _ := Option.some.inj (target.symm.trans same)
  have found : (t.constructor? ctor.id).isSome = true :=
    List.find?_isSome.2 ⟨ctor, List.mem_of_find?_eq_some marked, beq_self_eq_true _⟩
  exact if_pos found

lemma lacks?_of_fieldTarget? {t : TypeDef} {f : FieldTarget} (target : t.fieldTarget? = some f) :
    f.edit.lacks? t = none := by
  obtain rfl := eq_of_fieldTarget? target
  refine Option.map_eq_none_iff.2 (List.find?_eq_none.2 fun name listed => ?_)
  obtain ⟨field, member, rfl⟩ := List.mem_map.1 listed
  have found : (t.field? field.name).isSome = true :=
    List.find?_isSome.2 ⟨field, (List.mem_filter.1 member).1, beq_self_eq_true _⟩
  rw [Option.isNone_eq_false_iff.2 found]
  exact Bool.false_ne_true

end TypeDef

/-- The targets of a kind are refused at the first clash. -/
lemma Module.findSome?_refusalOf? {m : Module} (names : (m.types.map (·.name)).Nodup) {τ : Type}
    {target? : TypeDef → Option τ} {edit : τ → TypeEdit} {kind : EntryKind}
    (hit : ∀ t, (target? t).isSome = t.gets kind) (own : ∀ a, (edit a).kind = kind)
    (named : ∀ t a, target? t = some a → (edit a).ty = t.name)
    (borne : ∀ t a, target? t = some a → (edit a).lacks? t = none) :
    ((m.types.filterMap target?).map edit).findSome? (m.refusalOf? [])
      = (m.clash? kind).map fun t => .nameCollision t.name kind.memberName := by
  rw [List.findSome?_map]
  refine findSome?_filterMap_eq fun t member => ?_
  cases target : target? t with
  | none =>
    have misses : t.gets kind = false := by rw [← hit, target]; rfl
    rw [misses]
    rfl
  | some a =>
    have gets : t.gets kind = true := by rw [← hit, target]; rfl
    have found : m.typeNamed? (edit a).ty = some t := by
      rw [named t a target]
      exact find?_key_of_mem TypeDef.name names member
    show m.refusalOf? [] (edit a) = _
    rw [refusalOf?, found, gets, Bool.true_and]
    simp only [if_neg List.not_mem_nil]
    rw [TypeEdit.refusal?, borne t a target, own]
    rfl

/-- If no two types share a name, the edits of a weave fail at the first type that would get a
factory but has a member of its name, else at the first such type for injectors. -/
lemma Module.refusal?_eq_clash {m : Module} (names : (m.types.map (·.name)).Nodup) :
    m.refusal? [] m.allTargets.edits
      = ((m.clash? .factory).map fun t => .nameCollision t.name factoryName).or
        ((m.clash? .injector).map fun t => .nameCollision t.name injectorName) := by
  have apart : (m.allTargets.edits.map fun x => (x.ty, x.kind)).Nodup := by
    rw [map_ty_kind_edits, List.nodup_append]
    refine ⟨(nodup_targetNames names .factory).map fun _ _ same => congrArg Prod.fst same,
      (nodup_targetNames names .injector).map fun _ _ same => congrArg Prod.fst same, ?_⟩
    intro a ha b hb same
    obtain ⟨_, -, rfl⟩ := List.mem_map.1 ha
    obtain ⟨_, -, rfl⟩ := List.mem_map.1 hb
    cases congrArg Prod.snd same
  rw [m.refusal?_eq_findSome? apart fun _ _ => List.not_mem_nil, Targets.edits,
    List.findSome?_append]
  have factories := findSome?_refusalOf? names TypeDef.isSome_constructorTarget?
    ConstructorTarget.kind_edit
    (fun _ _ => TypeDef.ty_of_constructorTarget?) fun _ _ => TypeDef.lacks?_of_constructorTarget?
  have injectors := findSome?_refusalOf? names TypeDef.isSome_fieldTarget? FieldTarget.kind_edit
    (fun _ _ target => congrArg FieldTarget.ty (TypeDef.eq_of_fieldTarget? target))
    fun _ _ => TypeDef.lacks?_of_fieldTarget?
  exact congrArg₂ Option.or factories injectors

namespace Module

variable {m : Module}

/-- The type is the first in a weave whose method cannot be added for a name that is taken: the
factories come before the injectors, and each of them in the order of their types. -/
def FirstClash (m : Module) (kind : EntryKind) (t : TypeDef) : Prop :=
  m.clash? kind = some t ∧ (kind = .injector → m.clash? .factory = none)

/-- Every clash keeps the weave from succeeding, and the first one is what it reports. -/
lemma refusal?_eq_some_iff (names : (m.types.map (·.name)).Nodup) {e : WeaveError} :
    m.refusal? [] m.allTargets.edits = some e
      ↔ ∃ kind t, m.FirstClash kind t ∧ e = .nameCollision t.name kind.memberName := by
  rw [refusal?_eq_clash names]
  constructor
  · intro refused
    cases factory : m.clash? .factory with
    | some t =>
      rw [factory] at refused
      exact ⟨.factory, t, ⟨factory, nofun⟩, (Option.some.inj refused).symm⟩
    | none =>
      rw [factory, Option.map_none, Option.none_or, Option.map_eq_some_iff] at refused
      obtain ⟨t, injector, same⟩ := refused
      exact ⟨.injector, t, ⟨injector, fun _ => factory⟩, same.symm⟩
  · rintro ⟨_ | _, t, ⟨clash, first⟩, rfl⟩
    · rw [clash]
      rfl
    · rw [first rfl, clash]
      rfl

lemma refusal?_eq_none_iff (names : (m.types.map (·.name)).Nodup) :
    m.refusal? [] m.allTargets.edits = none ↔ ∀ kind, m.clash? kind = none := by
  rw [refusal?_eq_clash names, Option.or_eq_none_iff, Option.map_eq_none_iff,
    Option.map_eq_none_iff]
  exact ⟨fun none kind => by cases kind; exacts [none.1, none.2],
    fun none => ⟨none .factory, none .injector⟩⟩

end Module

/-- How a weave of a module ends is settled by the module. -/
structure Module.Settles (m : Module) (options : WeaveOptions) (run : WeaveRun) : Prop where
  alreadyWoven : run.outcome = .ok .alreadyWoven
    ↔ m.Recognised (registrarName m.name options.registrarName)
  nothingToWeave : run.outcome = .ok .nothingToWeave
    ↔ ¬m.Recognised (registrarName m.name options.registrarName) ∧ ¬m.HasTargets
  refused (e : WeaveError) : run.outcome = .error e
    ↔ ¬m.Recognised (registrarName m.name options.registrarName) ∧
      ∃ kind t, m.FirstClash kind t ∧ e = .nameCollision t.name kind.memberName
  woven (report : WeaveReport) : run.outcome = .ok (.woven report)
    ↔ ¬m.Recognised (registrarName m.name options.registrarName) ∧ m.HasTargets ∧
      (∀ kind, m.clash? kind = none) ∧ report = m.report options
  /-- No weave fails for a target that the module does not bear out. -/
  borneOut (cause : Mismatch) : run.outcome ≠ .error (.mismatch cause)
  /-- What does not get woven stays as it was. -/
  left : run.isWoven = false → run.left = m

/-- How a weave ends is settled by the module if no two of its types share a name. -/
theorem settles_of_nodup {m : Module} (names : (m.types.map (·.name)).Nodup)
    (options : WeaveOptions) (supply : IdSupply) :
    m.Settles options (WeaveCall.run { options, supply } m) where
  alreadyWoven := by rw [outcome_run, Module.verdict_eq_alreadyWoven_iff]
  nothingToWeave := by rw [outcome_run, Module.verdict_eq_nothingToWeave_iff]
  refused e := by
    rw [outcome_run, Module.verdict_eq_error_iff, Module.refusal?_eq_some_iff names]
  woven report := by
    rw [outcome_run, Module.verdict_eq_woven_iff, Module.refusal?_eq_none_iff names]
  borneOut cause := by
    rw [outcome_run, ne_eq, Module.verdict_eq_error_iff, Module.refusal?_eq_some_iff names]
    rintro ⟨-, kind, t, -, same⟩
    cases same
  left unwoven := by
    rcases WeaveCall.run_cases { options, supply } m with ⟨woven, -⟩ | ⟨-, same⟩
    · rw [unwoven] at woven
      cases woven
    · rw [same]
      exact WeaveCall.given_run m options supply

/-- A module of two types whose names are taken: the second would get a factory, and the first an
injector. -/
def clashing : Module :=
  { name := "Clash"
    types :=
      [{ TypeDef.newClass (Uuid.numbered 1) "Clash.Wire" with
          fields := [Field.injected (Uuid.numbered 2) injectorName "Clash.Plug"] },
        { TypeDef.newClass (Uuid.numbered 3) "Clash.Plug" with
          constructors := [(Method.newConstructor (Uuid.numbered 4)).mark .inject]
          methods := [Method.newStatic (Uuid.numbered 5) factoryName] }] }

/-- The factory is what the weave of such a module reports, though its type comes second. -/
theorem settles_clashing :
    (clashing.types.map (·.name)).Nodup ∧
      clashing.Settles {} (WeaveCall.run { options := {}, supply := lampIds } clashing) ∧
      (WeaveCall.run { options := {}, supply := lampIds } clashing).outcome
        = .error (.nameCollision "Clash.Plug" factoryName) :=
  ⟨by decide, settles_of_nodup (by decide) {} lampIds, rfl⟩

end Weaver