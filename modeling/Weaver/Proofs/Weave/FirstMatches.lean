import Weaver.Proofs.Weave.Verdict

/-!
# What targets are taken to mean

Targets are found by position and passed on by name and identifier, and every edit looks them up
again and takes the first match. Where a type, a field or a constructor that was found is not the
first of its name or identifier, the edit is about another one, or about none at all.

Four things live here:

* `mapFirsts`, a change of the first type of each name;
* `Module.rewovenByName`, the rewrite of a module in which every lookup takes the first match;
* `eq_rewovenByName_of_weave`, by which every weave of any module is that rewrite;
* `weave_of_targetsFirst`, by which targets mean what was found if each is the first match.
-/

namespace Weaver

/-! ## The first type of each name -/

/-- Changes the first type of each name that has not been seen. -/
def mapFirsts (f : TypeDef → TypeDef) (seen : List String) : List TypeDef → List TypeDef
  | [] => []
  | t :: rest => (if t.name ∈ seen then t else f t) :: mapFirsts f (t.name :: seen) rest

section MapFirsts

variable {f g : TypeDef → TypeDef} {seen : List String} {l : List TypeDef} {ty : String}

lemma mapFirsts_congr
    (same : ∀ t, l.find? (·.name == t.name) = some t → t.name ∉ seen → f t = g t) :
    mapFirsts f seen l = mapFirsts g seen l := by
  induction l generalizing seen with
  | nil => rfl
  | cons t rest ih =>
    have later : mapFirsts f (t.name :: seen) rest = mapFirsts g (t.name :: seen) rest := by
      refine ih fun s found new => same s ?_ fun old => new (List.mem_cons_of_mem _ old)
      have other : t.name ≠ s.name := fun equal => new (by rw [equal]; exact List.mem_cons_self)
      rw [List.find?_cons, beq_false_of_ne other]
      exact found
    rw [mapFirsts, mapFirsts, later]
    split
    · rfl
    next new =>
      rw [same t (by rw [List.find?_cons, beq_self_eq_true]) new]

lemma mapFirsts_id : mapFirsts (fun t => t) seen l = l := by
  induction l generalizing seen with
  | nil => rfl
  | cons t rest ih => rw [mapFirsts, ih, ite_self]

/-- A change of the first type of a name, and then one of the first type of each name. -/
lemma mapFirsts_updateFirst (keeps : ∀ t, (f t).name = t.name) (new : ty ∉ seen) :
    mapFirsts g seen (updateFirst (·.name == ty) f l)
      = mapFirsts (fun t => g (if t.name = ty then f t else t)) seen l := by
  induction l generalizing seen with
  | nil => rfl
  | cons t rest ih =>
    rw [updateFirst]
    by_cases own : t.name = ty
    · -- no later type of the name is changed
      have later : mapFirsts g (ty :: seen) rest
          = mapFirsts (fun t => g (if t.name = ty then f t else t)) (ty :: seen) rest :=
        mapFirsts_congr fun s _ other => by
          have apart : s.name ≠ ty := fun same => other (by rw [same]; exact List.mem_cons_self)
          rw [if_neg apart]
      rw [if_pos (beq_iff_eq.2 own), mapFirsts, mapFirsts, keeps, own, if_neg new, if_neg new,
        if_pos rfl, later]
    · have other : ty ∉ t.name :: seen := fun member =>
        (List.mem_cons.1 member).elim (fun same => own same.symm) new
      rw [if_neg (by simpa using own), mapFirsts, mapFirsts, ih other, if_neg own]

lemma mapFirsts_mapFirsts (keeps : ∀ t, (f t).name = t.name) :
    mapFirsts g seen (mapFirsts f seen l) = mapFirsts (fun t => g (f t)) seen l := by
  induction l generalizing seen with
  | nil => rfl
  | cons t rest ih =>
    by_cases old : t.name ∈ seen
    · simp only [mapFirsts, if_pos old, ih]
    · simp only [mapFirsts, if_neg old, keeps, ih]

/-- Where a change does nothing to types whose name an earlier type has, it may as well be made of
all types. -/
lemma mapFirsts_eq_map (firsts : l.Pairwise fun s t => s.name = t.name → f t = t)
    (old : ∀ t ∈ l, t.name ∈ seen → f t = t) : mapFirsts f seen l = l.map f := by
  induction l generalizing seen with
  | nil => rfl
  | cons t rest ih =>
    rw [List.pairwise_cons] at firsts
    have later : ∀ s ∈ rest, s.name ∈ t.name :: seen → f s = s := fun s member known => by
      rcases List.mem_cons.1 known with same | known
      · exact firsts.1 s member same.symm
      · exact old s (List.mem_cons_of_mem _ member) known
    rw [mapFirsts, ih firsts.2 later, List.map_cons]
    split
    next known => rw [old t List.mem_cons_self known]
    next => rfl

end MapFirsts

/-! ## The rewrite by name -/

/-- What edits make of a type that is the first of its name, with the identifiers that are drawn for
each name. -/
def TypeDef.changedBy (t : TypeDef) (edits : List TypeEdit) (id : String → Uuid) : TypeDef :=
  match edits.find? (·.ty == t.name) with
  | none => t
  | some x => x.extend t (id t.name)

/-- What targets make of a type that is the first of its name. -/
def Targets.changed (targets : Targets) (ids : WeaveIds) (t : TypeDef) : TypeDef :=
  (t.changedBy (targets.constructable.map ConstructorTarget.edit) (ids.entry .factory)).changedBy
    (targets.injectable.map FieldTarget.edit) (ids.entry .injector)

/-- The module after a weave in which every lookup by name takes the first match. -/
def Module.rewovenByName (m : Module) (options : WeaveOptions) (ids : WeaveIds) : Module :=
  { m with
    types := mapFirsts (m.allTargets.changed ids) [] m.types
      ++ [m.registrar options ids]
    stamp := some
      { toolVersion
        sourceHash := m.hash
        factories := (m.targetNames .factory).length.toUInt32
        injectors := (m.targetNames .injector).length.toUInt32 } }

lemma TypeDef.name_changedBy (t : TypeDef) (edits : List TypeEdit) (id : String → Uuid) :
    (t.changedBy edits id).name = t.name := by
  unfold changedBy
  split
  · rfl
  next x _ => exact (x.extends_extend t _).name

/-- Edits of a kind that are about different types change the first type of each name, the `n`-th of
them with the `n`-th identifier drawn. -/
lemma Draft.foldl_carryOut {kind : EntryKind} {id : String → Uuid} {edits : List TypeEdit}
    {d : Draft} (own : ∀ x ∈ edits, x.kind = kind) (distinct : (edits.map (·.ty)).Nodup)
    (drawn : (edits.map (·.ty)).map id = d.supply.next edits.length) :
    edits.foldl carryOut d = d.withAdded kind
      (mapFirsts (fun t => t.changedBy edits id) [] d.module.types)
      ((edits.map (·.ty)).map fun ty => ⟨ty, id ty⟩) := by
  induction edits generalizing d with
  | nil =>
    have same : mapFirsts (fun t => t.changedBy [] id) [] d.module.types = d.module.types :=
      mapFirsts_id
    rw [same]
    cases kind <;> simp [withAdded, IdSupply.skip]
  | cons x rest ih =>
    rw [List.map_cons, List.nodup_cons] at distinct
    rw [List.map_cons, List.map_cons, List.length_cons, IdSupply.next] at drawn
    injection drawn with head drawn
    have kindEq := own x List.mem_cons_self
    have first : d.carryOut x = d.withAdded kind
        (updateFirst (·.name == x.ty) (x.extend · (id x.ty)) d.module.types) [⟨x.ty, id x.ty⟩] := by
      rw [carryOut, kindEq, head]
    have supply : (d.carryOut x).supply = d.supply.draw.2 := by
      rw [first]
      cases kind <;> rfl
    -- the later edits are about other types
    have types : mapFirsts (fun t => t.changedBy rest id) []
          (updateFirst (·.name == x.ty) (x.extend · (id x.ty)) d.module.types)
        = mapFirsts (fun t => t.changedBy (x :: rest) id) [] d.module.types := by
      rw [mapFirsts_updateFirst (fun t => (x.extends_extend t _).name) List.not_mem_nil]
      refine mapFirsts_congr fun t _ _ => ?_
      rw [TypeDef.changedBy, TypeDef.changedBy, List.find?_cons]
      by_cases named : t.name = x.ty
      · have name : (x.extend t (id x.ty)).name = x.ty := (x.extends_extend t _).name.trans named
        have none : rest.find? (·.ty == x.ty) = none := List.find?_eq_none.2 fun y member same =>
          distinct.1 (eq_of_beq same ▸ List.mem_map_of_mem member)
        rw [if_pos named, name, none, named, beq_self_eq_true]
      · rw [if_neg named, beq_false_of_ne (Ne.symm named)]
    rw [List.foldl_cons, ih (fun y member => own y (List.mem_cons_of_mem _ member)) distinct.2
      (by rw [supply]; exact drawn), first]
    cases kind <;>
      simp [withAdded, types, IdSupply.skip, Nat.add_assoc, Nat.add_comm 1]

/-! ## Every weave -/

namespace Module

variable {m : Module}

/-- No two edits that are not refused are about the same type and of the same kind. -/
lemma nodup_of_refusal?_eq_none {made : List (String × EntryKind)} {edits : List TypeEdit}
    (accepted : m.refusal? made edits = none) :
    (∀ x ∈ edits, (x.ty, x.kind) ∉ made) ∧ (edits.map fun x => (x.ty, x.kind)).Nodup := by
  induction edits generalizing made with
  | nil => exact ⟨nofun, List.nodup_nil⟩
  | cons x rest ih =>
    rw [refusal?, Option.or_eq_none_iff] at accepted
    obtain ⟨others, distinct⟩ := ih accepted.2
    have first : (x.ty, x.kind) ∉ made := fun listed => by
      have refused := accepted.1
      rw [refusalOf?] at refused
      split at refused
      · cases refused
      · rw [if_pos listed] at refused
        cases refused
    refine ⟨fun y member => ?_, List.nodup_cons.2 ⟨fun listed => ?_, distinct⟩⟩
    · rcases List.mem_cons.1 member with rfl | later
      · exact first
      · exact fun listed => others y later (List.mem_cons_of_mem _ listed)
    · obtain ⟨y, member, same⟩ := List.mem_map.1 listed
      refine others y member ?_
      rw [same]
      exact List.mem_cons_self

lemma nodup_targetNames_of_accepted (accepted : m.refusal? [] m.allTargets.edits = none)
    (kind : EntryKind) : (m.targetNames kind).Nodup := by
  have distinct := (nodup_of_refusal?_eq_none accepted).2
  rw [map_ty_kind_edits, List.nodup_append] at distinct
  cases kind
  · exact distinct.1.of_map _
  · exact distinct.2.1.of_map _

end Module

/-- The edits for factories and then those for injectors change the first type of each name. -/
lemma Draft.foldl_edits {m : Module} {supply : IdSupply} {ids : WeaveIds}
    (accepted : m.refusal? [] m.allTargets.edits = none)
    (drawn : ids.inOrder m = supply.next m.idsNeeded) :
    m.allTargets.edits.foldl carryOut { module := m, supply } = {
      module := { m with types := mapFirsts (m.allTargets.changed ids) [] m.types }
      supply := supply.skip ((m.targetNames .factory).length + (m.targetNames .injector).length)
      factories := ids.entries m .factory
      injectors := ids.entries m .injector } := by
  obtain ⟨factories, injectors, -⟩ := WeaveIds.parts_of_inOrder drawn
  have tys₁ : (m.allTargets.constructable.map ConstructorTarget.edit).map (·.ty)
      = m.targetNames .factory := by
    rw [Module.targetNames, ← map_ty_constructable, List.map_map]
    rfl
  have tys₂ : (m.allTargets.injectable.map FieldTarget.edit).map (·.ty)
      = m.targetNames .injector := by
    rw [Module.targetNames, ← map_ty_injectable, List.map_map]
    rfl
  have lengths₁ := congrArg List.length tys₁
  have lengths₂ := congrArg List.length tys₂
  rw [List.length_map] at lengths₁ lengths₂
  have own₁ : ∀ x ∈ m.allTargets.constructable.map ConstructorTarget.edit, x.kind = .factory := by
    intro x member
    obtain ⟨c, -, rfl⟩ := List.mem_map.1 member
    rfl
  have own₂ : ∀ x ∈ m.allTargets.injectable.map FieldTarget.edit, x.kind = .injector := by
    intro x member
    obtain ⟨f, -, rfl⟩ := List.mem_map.1 member
    rfl
  have first := foldl_carryOut (d := { module := m, supply }) own₁
    (by rw [tys₁]; exact Module.nodup_targetNames_of_accepted accepted .factory)
    (by rw [tys₁, lengths₁]; exact factories)
  have second := foldl_carryOut (d := (m.allTargets.constructable.map ConstructorTarget.edit).foldl
      carryOut { module := m, supply }) own₂
    (by rw [tys₂]; exact Module.nodup_targetNames_of_accepted accepted .injector)
    (by
      rw [tys₂, lengths₂, injectors, first, tys₁]
      simp [withAdded])
  rw [Targets.edits, List.foldl_append, second, first, tys₁, tys₂]
  simp only [withAdded, List.length_map, IdSupply.skip, Nat.add_assoc, List.nil_append]
  rw [mapFirsts_mapFirsts fun t => t.name_changedBy _ _]
  rfl

/-- All edits of a weave together, and the registrar. -/
lemma Draft.addAll_allTargets {m : Module} {supply : IdSupply} {ids : WeaveIds} {registrar : String}
    {editorOnly : Bool} {d : Draft} (accepted : m.refusal? [] m.allTargets.edits = none)
    (drawn : ids.inOrder m = supply.next m.idsNeeded)
    (ok : addAll { module := m, supply } m.allTargets registrar editorOnly = .ok d) :
    d = {
      module := { m with
        types := mapFirsts (m.allTargets.changed ids) [] m.types
          ++ [registrarType ids.registrar registrar
            (bakeMethod ids.bake (ids.entries m .factory) (ids.entries m .injector) editorOnly)] }
      supply := supply.skip m.idsNeeded
      factories := ids.entries m .factory
      injectors := ids.entries m .injector } := by
  obtain ⟨-, -, last⟩ := WeaveIds.parts_of_inOrder drawn
  simp only [IdSupply.next, List.cons.injEq, and_true] at last
  rw [addAll_eq_foldlM, foldlM_attempt (Module.EditedBy.refl m), accepted,
    foldl_edits accepted drawn] at ok
  obtain ⟨d₁, edited, ok⟩ := exists_of_bind_eq_ok ok
  injection edited with edited
  rw [← edited] at ok
  obtain ⟨m₂, added, ok⟩ := exists_of_bind_eq_ok ok
  rw [Module.addRegistrar] at added
  split at added
  · cases added
  injection added with added
  injection ok with ok
  rw [← ok, ← added, last.1, last.2]
  rfl

/-- Every weave of any module looks each target up under its name and takes the first match. -/
theorem eq_rewovenByName_of_weave {m m' : Module} {options : WeaveOptions}
    {supply supply' : IdSupply} {report : WeaveReport}
    (woven : m.weave options supply = .ok (.woven report, m', supply')) :
    ∃ ids : WeaveIds, ids.inOrder m = supply.next m.idsNeeded ∧ m' = m.rewovenByName options ids ∧
      supply' = supply.skip m.idsNeeded ∧ report = m.report options := by
  have outcome := outcome_run m options supply
  rw [WeaveCall.outcome_eq, woven] at outcome
  obtain ⟨-, -, accepted, reported⟩ := Module.verdict_eq_woven_iff.1 outcome.symm
  obtain ⟨ids, drawn⟩ := exists_weaveIds_of_nodup
    (Module.nodup_targetNames_of_accepted accepted) supply
  refine ⟨ids, drawn, ?_⟩
  have absent := typeNamed?_registrar_of_weave woven
  rw [Module.weave] at woven
  split at woven
  · cases woven
  dsimp only at woven
  split at woven
  · cases woven
  obtain ⟨d, ok, woven⟩ := exists_of_bind_eq_ok woven
  rw [Module.targets_eq_allTargets absent] at ok
  rw [Draft.addAll_allTargets accepted drawn ok] at woven
  injection woven with woven
  simp only [Prod.mk.injEq] at woven
  obtain ⟨-, rfl, rfl⟩ := woven
  simp [Module.rewovenByName, Module.registrar_eq, WeaveIds.entries, reported]

/-! ## Targets that are the first match -/

/-- What the edits of a weave look up by name or identifier is the first match: a type with targets
is the first of its name, and so are its marked fields, and the constructor that is selected is the
first of its identifier. -/
structure Module.TargetsFirst (m : Module) : Prop where
  types : m.types.Pairwise fun s t => s.name = t.name → ∀ kind, t.gets kind = false
  fields : ∀ t ∈ m.types, t.gets .injector →
    t.fields.Pairwise fun f g => f.name = g.name → g.isMarked = false
  constructors : ∀ t ∈ m.types, t.gets .factory → ∀ before c after,
    t.constructors = before ++ c :: after → (∀ b ∈ before, b.isMarked = false) → c.isMarked →
    ∀ b ∈ before, b.id ≠ c.id

/-- Names that are not ambiguous are looked up where they were found. -/
lemma Module.Unambiguous.targetsFirst {m : Module} (names : m.Unambiguous) : m.TargetsFirst where
  types := (List.pairwise_map.1 names.types).imp fun apart same => absurd same apart
  fields t member _ := firsts_of_nodup (names.fields t member)
  constructors t member _ before c after parts _ _ b earlier := by
    have distinct := names.constructors t member
    rw [parts, List.map_append, List.nodup_append] at distinct
    exact distinct.2.2 _ (List.mem_map_of_mem earlier) _ List.mem_cons_self

namespace Module.TargetsFirst

variable {m : Module}

/-- A type that gets a method is found under its name. -/
lemma typeNamed?_of_gets (first : m.TargetsFirst) {t : TypeDef} {kind : EntryKind}
    (member : t ∈ m.types) (gets : t.gets kind = true) : m.typeNamed? t.name = some t := by
  obtain ⟨before, after, parts⟩ := List.append_of_mem member
  have types := first.types
  rw [parts, List.pairwise_append] at types
  rw [Module.typeNamed?, parts]
  refine find?_append_cons (fun s earlier => beq_false_of_ne fun same => ?_) (beq_self_eq_true _)
  rw [types.2.2 s earlier t List.mem_cons_self same kind] at gets
  cases gets

/-- The edits of a kind that are about the first type of a name are the edit for this type. -/
lemma find?_edits (first : m.TargetsFirst) {τ : Type} {target? : TypeDef → Option τ}
    {edit : τ → TypeEdit} {kind : EntryKind} (hit : ∀ t, (target? t).isSome = t.gets kind)
    (named : ∀ t a, target? t = some a → (edit a).ty = t.name) {t : TypeDef}
    (found : m.typeNamed? t.name = some t) :
    ((m.types.filterMap target?).map edit).find? (·.ty == t.name) = (target? t).map edit := by
  rw [List.find?_map]
  cases target : target? t with
  | some a =>
    obtain ⟨own, before, after, parts, others⟩ := List.find?_eq_some_iff_append.1 found
    rw [parts, List.filterMap_append, List.filterMap_cons_some target]
    refine congrArg (Option.map edit) (find?_append_cons (fun b listed => ?_) ?_)
    · obtain ⟨s, earlier, selected⟩ := List.mem_filterMap.1 listed
      rw [Function.comp_apply, named s b selected]
      simpa using others s earlier
    · rw [Function.comp_apply, named t a target]
      exact beq_self_eq_true _
  | none =>
    refine congrArg (Option.map edit) (List.find?_eq_none.2 fun b listed own => ?_)
    obtain ⟨s, member, selected⟩ := List.mem_filterMap.1 listed
    rw [Function.comp_apply, named s b selected] at own
    have gets : s.gets kind = true := by rw [← hit, selected]; rfl
    have again := first.typeNamed?_of_gets member gets
    rw [eq_of_beq own, found] at again
    obtain rfl := Option.some.inj again
    rw [target] at selected
    cases selected

/-- The factory that an edit makes is that for the constructor that was found. -/
lemma extend_constructorTarget (first : m.TargetsFirst) {t : TypeDef} (member : t ∈ m.types)
    {c : ConstructorTarget} (target : t.constructorTarget? = some c) (id : Uuid) :
    c.edit.extend t id = t.extended .factory id := by
  have gets : t.gets .factory = true := by
    rw [← TypeDef.isSome_constructorTarget?, target]
    rfl
  obtain ⟨ctor, marked, same⟩ := TypeDef.markedConstructor?_of_gets gets
  obtain rfl : c = _ := Option.some.inj (target.symm.trans same)
  obtain ⟨own, before, after, parts, unmarked⟩ := List.find?_eq_some_iff_append.1 marked
  have unmarked : ∀ b ∈ before, b.isMarked = false := fun b earlier => by
    simpa using unmarked b earlier
  have apart : ∀ b ∈ before, (b.id == ctor.id) = false := fun b earlier =>
    beq_false_of_ne (first.constructors t member gets before ctor after parts unmarked own b earlier)
  have found : t.constructor? ctor.id = some ctor := by
    rw [TypeDef.constructor?, parts]
    exact find?_append_cons apart (beq_self_eq_true _)
  have exposed : t.exposeConstructor ctor.id = { t with constructors := t.constructorsExposed } := by
    rw [TypeDef.exposeConstructor, TypeDef.constructorsExposed, parts,
      updateFirst_append_cons _ apart (beq_self_eq_true _), updateFirst_append_cons _ unmarked own]
  show (t.exposeConstructor ctor.id).addSynthesized
    (factoryMethod id t.name ((t.constructor? ctor.id).getD default)) = _
  rw [found, exposed, Option.getD_some]
  simp only [TypeDef.extended, TypeDef.synthesized?, gets, marked, if_true, Option.map_some,
    TypeDef.documentedFactory_eq]

/-- The injector that an edit makes is that for the fields that were found. -/
lemma extend_fieldTarget {t : TypeDef}
    (firsts : t.fields.Pairwise fun f g => f.name = g.name → g.isMarked = false)
    {f : FieldTarget} (target : t.fieldTarget? = some f) (id : Uuid) :
    f.edit.extend t id = t.extended .injector id := by
  have gets : t.gets .injector = true := by
    rw [← TypeDef.isSome_fieldTarget?, target]
    rfl
  obtain rfl := TypeDef.eq_of_fieldTarget? target
  have exposed : t.exposeFields (t.markedFields.map (·.name))
      = ({ t with fields := t.fieldsExposed }, .ok t.markedFields) :=
    exposeFields_eq [] rfl firsts
  have method : injectorMethod id t.name ((t.markedFields.map (·.name)).filterMap t.field?)
      = injectorMethod id t.name t.markedFields := by
    rcases t.exposeFields_cases (t.markedFields.map (·.name)) with
      ⟨_, -, failed⟩ | ⟨-, fields, ok, same⟩
    · rw [exposed] at failed
      cases failed
    · rw [exposed] at ok
      injection ok with ok
      subst ok
      exact (injectorMethod_congr same id t.name).symm
  show (t.exposeFields (t.markedFields.map (·.name))).1.addSynthesized
    (injectorMethod id t.name ((t.markedFields.map (·.name)).filterMap t.field?)) = _
  rw [method, exposed]
  simp only [TypeDef.extended, TypeDef.synthesized?, gets, if_true, TypeDef.documentedInjector_eq]

/-- The targets of a module make of the first type of a name what a weave makes of this type. -/
lemma changed_eq_rewoven (first : m.TargetsFirst) (ids : WeaveIds) {t : TypeDef}
    (found : m.typeNamed? t.name = some t) :
    m.allTargets.changed ids t = t.rewoven (ids.entry .factory t.name) (ids.entry .injector t.name) := by
  have member : t ∈ m.types := List.mem_of_find?_eq_some found
  have factory : t.changedBy (m.allTargets.constructable.map ConstructorTarget.edit)
      (ids.entry .factory) = t.extended .factory (ids.entry .factory t.name) := by
    have edit : ((m.types.filterMap TypeDef.constructorTarget?).map ConstructorTarget.edit).find?
        (·.ty == t.name) = t.constructorTarget?.map ConstructorTarget.edit :=
      first.find?_edits TypeDef.isSome_constructorTarget?
        (fun _ _ => TypeDef.ty_of_constructorTarget?) found
    rw [TypeDef.changedBy, Module.allTargets, edit]
    cases target : t.constructorTarget? with
    | none =>
      have misses : t.gets .factory = false := by
        rw [← TypeDef.isSome_constructorTarget?, target]
        rfl
      exact (TypeDef.extended_eq_self misses _).symm
    | some c => exact first.extend_constructorTarget member target _
  have injector : (t.extended .factory (ids.entry .factory t.name)).changedBy
      (m.allTargets.injectable.map FieldTarget.edit) (ids.entry .injector)
      = (t.extended .factory (ids.entry .factory t.name)).extended .injector
        (ids.entry .injector t.name) := by
    have edit : ((m.types.filterMap TypeDef.fieldTarget?).map FieldTarget.edit).find?
        (·.ty == t.name) = t.fieldTarget?.map FieldTarget.edit :=
      first.find?_edits TypeDef.isSome_fieldTarget?
        (fun _ _ target => congrArg FieldTarget.ty (TypeDef.eq_of_fieldTarget? target)) found
    rw [TypeDef.changedBy, TypeDef.extended_name, Module.allTargets, edit]
    -- a factory changes nothing that the injector depends on
    have same := t.fieldTarget?_extended_factory (ids.entry .factory t.name)
    cases target : t.fieldTarget? with
    | none =>
      have misses : (t.extended .factory (ids.entry .factory t.name)).gets .injector = false := by
        rw [← TypeDef.isSome_fieldTarget?, same, target]
        rfl
      exact (TypeDef.extended_eq_self misses _).symm
    | some f =>
      have gets : t.gets .injector = true := by
        rw [← TypeDef.isSome_fieldTarget?, target]
        rfl
      refine extend_fieldTarget ?_ (same.trans target) _
      rw [TypeDef.fields_extended_factory]
      exact first.fields t member gets
  rw [Targets.changed, factory, injector, TypeDef.extended_extended]

/-- Where targets are the first match, the rewrite by name is the rewrite of every type on its own. -/
lemma rewovenByName_eq_rewoven (first : m.TargetsFirst) (options : WeaveOptions) (ids : WeaveIds) :
    m.rewovenByName options ids = m.rewoven options ids := by
  have changed : mapFirsts (m.allTargets.changed ids) [] m.types
      = mapFirsts (fun t => t.rewoven (ids.entry .factory t.name) (ids.entry .injector t.name)) []
        m.types :=
    mapFirsts_congr fun t found _ => first.changed_eq_rewoven ids found
  have bare : m.types.Pairwise fun s t => s.name = t.name →
      t.rewoven (ids.entry .factory t.name) (ids.entry .injector t.name) = t :=
    first.types.imp fun {s t} none same => by
      rw [← TypeDef.extended_extended, TypeDef.extended_eq_self (none same .factory),
        TypeDef.extended_eq_self (none same .injector)]
  rw [Module.rewovenByName, Module.rewoven, changed,
    mapFirsts_eq_map bare fun _ _ seen => absurd seen List.not_mem_nil]

/-- A type that an edit of the module is about bears out its target. -/
lemma lacks?_of_mem_edits (first : m.TargetsFirst) {x : TypeEdit} (member : x ∈ m.allTargets.edits) :
    ∃ t, m.typeNamed? x.ty = some t ∧ x.lacks? t = none := by
  rw [Targets.edits, List.mem_append, List.mem_map, List.mem_map] at member
  rcases member with ⟨c, listed, rfl⟩ | ⟨f, listed, rfl⟩
  · obtain ⟨t, member, target⟩ := List.mem_filterMap.1 listed
    have gets : t.gets .factory = true := by
      rw [← TypeDef.isSome_constructorTarget?, target]
      rfl
    refine ⟨t, ?_, TypeDef.lacks?_of_constructorTarget? target⟩
    rw [← first.typeNamed?_of_gets member gets, ← TypeDef.ty_of_constructorTarget? target]
    rfl
  · obtain ⟨t, member, target⟩ := List.mem_filterMap.1 listed
    have gets : t.gets .injector = true := by
      rw [← TypeDef.isSome_fieldTarget?, target]
      rfl
    refine ⟨t, ?_, TypeDef.lacks?_of_fieldTarget? target⟩
    rw [← first.typeNamed?_of_gets member gets]
    exact congrArg (fun f => m.typeNamed? f.ty) (TypeDef.eq_of_fieldTarget? target)

end Module.TargetsFirst

/-- Edits that types bear out are refused for names that are taken only. -/
lemma Module.refusal?_ne_mismatch {m : Module} {made : List (String × EntryKind)}
    {edits : List TypeEdit}
    (borne : ∀ x ∈ edits, ∃ t, m.typeNamed? x.ty = some t ∧ x.lacks? t = none) (cause : Mismatch) :
    m.refusal? made edits ≠ some (.mismatch cause) := by
  induction edits generalizing made with
  | nil =>
    intro same
    cases same
  | cons x rest ih =>
    obtain ⟨t, found, lacks⟩ := borne x List.mem_cons_self
    have own : m.refusalOf? made x ≠ some (.mismatch cause) := by
      simp only [refusalOf?, found, TypeEdit.refusal?, lacks, Option.map_none]
      intro same
      split at same
      · cases same
      · split at same <;> cases same
    have later : m.refusal? ((x.ty, x.kind) :: made) rest ≠ some (.mismatch cause) :=
      ih fun y member => borne y (List.mem_cons_of_mem _ member)
    rw [refusal?]
    cases refused : m.refusalOf? made x with
    | none => exact later
    | some e =>
      rw [refused] at own
      exact own

/-- Where targets are the first match, what is woven is what was found: no weave fails for a target
that the module does not bear out, and one that succeeds makes exactly the selected constructors
and the marked fields public, with a factory for the parameters of the one and an injector for the
types of the others, in their own types. -/
theorem weave_of_targetsFirst {m : Module} (first : m.TargetsFirst) (options : WeaveOptions)
    (supply : IdSupply) :
    (∀ cause, m.weave options supply ≠ .error (.mismatch cause)) ∧
      ∀ report m' supply', m.weave options supply = .ok (.woven report, m', supply') →
        ∃ ids : WeaveIds, ids.inOrder m = supply.next m.idsNeeded ∧ m' = m.rewoven options ids ∧
          supply' = supply.skip m.idsNeeded ∧ report = m.report options := by
  constructor
  · intro cause failed
    have outcome := outcome_run m options supply
    rw [WeaveCall.outcome_eq, failed] at outcome
    exact Module.refusal?_ne_mismatch (fun x => first.lacks?_of_mem_edits) cause
      (Module.verdict_eq_error_iff.1 outcome.symm).2
  · intro report m' supply' woven
    obtain ⟨ids, drawn, same, rest⟩ := eq_rewovenByName_of_weave woven
    exact ⟨ids, drawn, same.trans (first.rewovenByName_eq_rewoven options ids), rest⟩

/-- A module in which names and identifiers are repeated, with the targets in front: two types of a
name, two fields of a name and two constructors of an identifier. -/
def echoing : Module :=
  { name := "Echo"
    types :=
      [{ TypeDef.newClass (Uuid.numbered 1) "Echo.Wall" with
          fields :=
            [Field.injected (Uuid.numbered 2) "sound" "Echo.Voice",
              { id := Uuid.numbered 3, name := "sound", ty := "Echo.Wall" }]
          constructors :=
            [(Method.newConstructor (Uuid.numbered 4)).mark .inject,
              { Method.newConstructor (Uuid.numbered 4) with params := [⟨"sound", "Echo.Voice"⟩] }] },
        TypeDef.newClass (Uuid.numbered 5) "Echo.Wall"] }

lemma echoing_targetsFirst : echoing.TargetsFirst where
  types := by
    refine List.pairwise_pair.2 fun _ kind => ?_
    cases kind <;> rfl
  fields := by
    intro t member gets
    rcases List.mem_pair.1 member with rfl | rfl
    · exact List.pairwise_pair.2 fun _ => rfl
    · cases gets
  constructors := by
    intro t member gets before c after parts unmarked _ b earlier
    rcases List.mem_pair.1 member with rfl | rfl
    · -- the constructor in front is marked, so there is none before the selected one
      cases before with
      | nil => cases earlier
      | cons first rest =>
        injection parts with same
        have marked := unmarked first List.mem_cons_self
        rw [← same] at marked
        cases marked
    · cases gets

theorem weave_echoing :
    echoing.TargetsFirst ∧ ∃ report m' supply',
      echoing.weave {} lampIds = .ok (.woven report, m', supply') ∧
      ∃ ids : WeaveIds, ids.inOrder echoing = lampIds.next echoing.idsNeeded ∧
        m' = echoing.rewoven {} ids ∧ supply' = lampIds.skip echoing.idsNeeded ∧
        report = echoing.report {} :=
  ⟨echoing_targetsFirst, _, _, _, rfl,
    (weave_of_targetsFirst echoing_targetsFirst {} lampIds).2 _ _ _ rfl⟩

/-- A marked field that is not the first of its name is not what its injector resolves, nor is it
made public. -/
example :
    let wall := { TypeDef.newClass (Uuid.numbered 1) "Echo.Wall" with
      fields :=
        [{ id := Uuid.numbered 2, name := "sound", ty := "Echo.Noise" },
          Field.injected (Uuid.numbered 3) "sound" "Echo.Voice"] }
    ∃ report m' supply', ({ name := "Echo", types := [wall] } : Module).weave {} lampIds
        = .ok (.woven report, m', supply') ∧
      m'.types.head?.map (fun t => t.fields.map (·.visibility)) = some [.everywhere, .ownType] ∧
      m'.types.head?.map (fun t => t.methods.flatMap (·.body))
        = some [.loadArg 0, .loadArg 1, .resolve "Echo.Noise", .storeField "Echo.Wall" "sound",
          .ret] :=
  ⟨_, _, _, rfl, rfl, rfl⟩

/-- A marked field of a type that is not the first of its name is looked for in another type. -/
example :
    let wall := TypeDef.newClass (Uuid.numbered 1) "Echo.Wall"
    let heard := { wall with fields := [Field.injected (Uuid.numbered 2) "sound" "Echo.Voice"] }
    ({ name := "Echo", types := [wall, heard] } : Module).weave {} lampIds
      = .error (.mismatch (.unknownField "sound" "Echo.Wall")) :=
  rfl

end Weaver
