import Mathlib.Data.List.Forall2
import Weaver.Proofs.Weave.Additions

/-!
# Weaving again

A module that has been woven is recognised by its stamp or by its registrar. With the stamp taken
off and the registrar called something else it is taken for a new one, and only a name stands in the
way of a second weave: the first target is the same as before, the type it names has the member that
the first weave added, and so the first edit fails. Nothing is assumed about the module here, so the
type that a target names need not be the one that has the markers.

Four things live here:

* `TypeDef.Widens`, by which every edit keeps the targets of a module and its members;
* `Module.Spent`, the invariant: the type that the first target names has the member to be added;
* `weave_of_spent` and `spent_of_weave`, that a spent module is refused and a woven module is spent;
* `weaves_once`, for every sequence of weaves.
-/

namespace Weaver

/-! ## Targets of a module without its registrar -/

/-- The targets of all types. -/
def Module.allTargets (m : Module) : Targets where
  constructable := m.types.filterMap TypeDef.constructorTarget?
  injectable := m.types.filterMap TypeDef.fieldTarget?

/-- Without a type of the registrar's name, every type may be a target. -/
lemma Module.targets_eq_allTargets {m : Module} {registrar : String}
    (unwoven : m.typeNamed? registrar = none) : m.targets registrar = m.allTargets := by
  have all : m.types.filter (·.name != registrar) = m.types := by
    rw [List.filter_eq_self]
    intro t ht
    have other := List.find?_eq_none.1 unwoven t ht
    simpa using other
  rw [targets, allTargets, all]

/-- The type that the first edit of a weave looks up, and the member that it adds. -/
def Targets.first? : Targets → Option (String × String)
  | ⟨c :: _, _⟩ => some (c.ty, factoryName)
  | ⟨[], f :: _⟩ => some (f.ty, injectorName)
  | ⟨[], []⟩ => none

/-! ## What edits keep -/

lemma forall₂_trans {α : Type} {R : α → α → Prop} {l₁ l₂ l₃ : List α}
    (trans : ∀ a b c, R a b → R b c → R a c) (first : List.Forall₂ R l₁ l₂)
    (second : List.Forall₂ R l₂ l₃) : List.Forall₂ R l₁ l₃ := by
  induction first generalizing l₃ with
  | nil => exact second
  | cons head _ ih =>
    cases second with
    | cons head' tail' => exact .cons (trans _ _ _ head head') (ih tail')

/-- The second type is the same target as the first, and has at least its members. -/
structure TypeDef.Widens (t t' : TypeDef) : Prop where
  name : t'.name = t.name
  constructorTarget? : t'.constructorTarget? = t.constructorTarget?
  fieldTarget? : t'.fieldTarget? = t.fieldTarget?
  members (member : String) : t.hasMemberNamed member → t'.hasMemberNamed member

lemma TypeDef.Widens.refl (t : TypeDef) : t.Widens t :=
  ⟨rfl, rfl, rfl, fun _ has => has⟩

lemma TypeDef.Widens.trans {t₁ t₂ t₃ : TypeDef} (first : t₁.Widens t₂) (second : t₂.Widens t₃) :
    t₁.Widens t₃ where
  name := second.name.trans first.name
  constructorTarget? := second.constructorTarget?.trans first.constructorTarget?
  fieldTarget? := second.fieldTarget?.trans first.fieldTarget?
  members member has := second.members member (first.members member has)

/-- The second module has the types of the first in the same places, each of them widened. -/
def Module.Widens (m m' : Module) : Prop :=
  List.Forall₂ TypeDef.Widens m.types m'.types

/-- The type that a name refers to has a member of the given name. -/
def Module.HasMember (m : Module) (ty member : String) : Prop :=
  ∃ t, m.typeNamed? ty = some t ∧ t.hasMemberNamed member

namespace Module.Widens

lemma refl (m : Module) : m.Widens m :=
  List.forall₂_same.2 fun t _ => .refl t

lemma trans {m₁ m₂ m₃ : Module} (first : m₁.Widens m₂) (second : m₂.Widens m₃) : m₁.Widens m₃ :=
  forall₂_trans (fun _ _ _ => TypeDef.Widens.trans) first second

/-- A function that does not see the edits of a type selects the same from all types. -/
lemma filterMap_eq {m m' : Module} {τ : Type} {target? : TypeDef → Option τ}
    (widens : m.Widens m') (keeps : ∀ t t', t.Widens t' → target? t' = target? t) :
    m'.types.filterMap target? = m.types.filterMap target? := by
  unfold Module.Widens at widens
  generalize m.types = types, m'.types = types' at widens
  induction widens with
  | nil => rfl
  | cons head _ ih => rw [List.filterMap_cons, List.filterMap_cons, keeps _ _ head, ih]

lemma allTargets {m m' : Module} (widens : m.Widens m') : m'.allTargets = m.allTargets := by
  rw [Module.allTargets, Module.allTargets,
    widens.filterMap_eq fun _ _ widens => widens.constructorTarget?,
    widens.filterMap_eq fun _ _ widens => widens.fieldTarget?]

/-- A type that is found by its name has been widened in its place. -/
lemma exists_typeNamed? {m m' : Module} {ty : String} {t : TypeDef} (widens : m.Widens m')
    (found : m.typeNamed? ty = some t) : ∃ t', m'.typeNamed? ty = some t' ∧ t.Widens t' := by
  unfold Module.typeNamed? at found ⊢
  unfold Module.Widens at widens
  generalize m.types = types, m'.types = types' at widens found
  induction widens with
  | nil => cases found
  | @cons s s' rest rest' head _ ih =>
    rw [List.find?_cons] at found ⊢
    rw [head.name]
    cases own : s.name == ty with
    | true =>
      rw [own] at found
      injection found with same
      exact ⟨s', rfl, same ▸ head⟩
    | false =>
      rw [own] at found
      exact ih found

lemma hasMember {m m' : Module} {ty member : String} (widens : m.Widens m')
    (hasMember : m.HasMember ty member) : m'.HasMember ty member := by
  obtain ⟨t, found, has⟩ := hasMember
  obtain ⟨t', found', wider⟩ := widens.exists_typeNamed? found
  exact ⟨t', found', wider.members member has⟩

end Module.Widens

/-! ## One edit -/

/-- A change of the first match changes no other element. -/
lemma forall₂_updateFirst {α : Type} {R : α → α → Prop} {p : α → Bool} {f : α → α} {l : List α}
    {a : α} (found : l.find? p = some a) (changed : R a (f a)) (refl : ∀ b, R b b) :
    List.Forall₂ R l (updateFirst p f l) := by
  induction l with
  | nil => exact .nil
  | cons b rest ih =>
    rw [List.find?_cons] at found
    rw [updateFirst]
    cases own : p b with
    | true =>
      rw [own] at found
      injection found with same
      subst same
      exact .cons changed (List.forall₂_same.2 fun c _ => refl c)
    | false =>
      rw [own] at found
      exact .cons (refl b) (ih found)

/-- The first match stays the first match if the change keeps the condition. -/
lemma find?_updateFirst_self {α : Type} {p : α → Bool} {f : α → α} {l : List α} {a : α}
    (found : l.find? p = some a) (keeps : p (f a)) : (updateFirst p f l).find? p = some (f a) := by
  obtain ⟨own, before, after, rfl, others⟩ := List.find?_eq_some_iff_append.1 found
  have others : ∀ b ∈ before, p b = false := fun b hb => by simpa using others b hb
  rw [updateFirst_append_cons f others own]
  exact find?_append_cons others keeps

/-- A change that a function does not see, it does not see in a list either. -/
lemma map_updateFirst {α β : Type} {g : α → β} {p : α → Bool} {f : α → α}
    (unseen : ∀ a, g (f a) = g a) (l : List α) : (updateFirst p f l).map g = l.map g := by
  induction l with
  | nil => rfl
  | cons a rest ih =>
    rw [updateFirst]
    split
    · rw [List.map_cons, unseen, List.map_cons]
    · rw [List.map_cons, ih, List.map_cons]

namespace TypeDef

/-- The target of a type depends on the markers and identifiers of its constructors only. -/
lemma constructorTarget?_congr {t t' : TypeDef} (name : t'.name = t.name) (kind : t'.kind = t.kind)
    (isAbstract : t'.isAbstract = t.isAbstract)
    (ctors : t'.constructors.map (fun c => (c.id, c.isMarked))
      = t.constructors.map (fun c => (c.id, c.isMarked))) :
    t'.constructorTarget? = t.constructorTarget? := by
  have first (s : TypeDef) : s.markedConstructor?.map (·.id)
      = ((s.constructors.map fun c => (c.id, c.isMarked)).find? (·.2)).map (·.1) := by
    rw [List.find?_map, Option.map_map]
    rfl
  have same : t'.markedConstructor?.map (·.id) = t.markedConstructor?.map (·.id) := by
    rw [first, first, ctors]
  have target (s : TypeDef) : s.constructorTarget? = if s.isInterface || s.isAbstract then none
      else (s.markedConstructor?.map (·.id)).map fun id => ⟨s.name, id⟩ := by
    rw [constructorTarget?, Option.map_map]
    rfl
  rw [target, target, same, isInterface, isInterface, name, kind, isAbstract]

/-- The fields of a target depend on the markers and names of the fields only. -/
lemma fieldTarget?_congr {t t' : TypeDef} (name : t'.name = t.name) (kind : t'.kind = t.kind)
    (fields : t'.fields.map (fun f => (f.name, f.isMarked))
      = t.fields.map (fun f => (f.name, f.isMarked))) :
    t'.fieldTarget? = t.fieldTarget? := by
  have names (s : TypeDef) : s.markedFields.map (·.name)
      = ((s.fields.map fun f => (f.name, f.isMarked)).filter (·.2)).map (·.1) := by
    rw [List.filter_map, List.map_map]
    rfl
  have same : t'.markedFields.map (·.name) = t.markedFields.map (·.name) := by
    rw [names, names, fields]
  have target (s : TypeDef) : s.fieldTarget?
      = if s.isInterface || (s.markedFields.map (·.name)).isEmpty then none
        else some ⟨s.name, s.markedFields.map (·.name)⟩ := by
    rw [fieldTarget?, List.isEmpty_map]
  rw [target, target, same, isInterface, isInterface, name, kind]

/-- Whether a type has a member depends on the names of its methods and fields only. -/
lemma hasMemberNamed_iff {t : TypeDef} {member : String} :
    t.hasMemberNamed member ↔ member ∈ t.methods.map (·.name) ∨ member ∈ t.fields.map (·.name) := by
  rw [hasMemberNamed, Bool.or_eq_true, List.any_eq_true, List.any_eq_true, List.mem_map,
    List.mem_map]
  simp only [beq_iff_eq]

/-- Making a constructor public and adding a factory widens a type. -/
lemma widens_factory (t : TypeDef) (ctor : Uuid) (m : Method) :
    t.Widens ((t.exposeConstructor ctor).addSynthesized m) where
  name := rfl
  constructorTarget? := constructorTarget?_congr rfl rfl rfl
    (map_updateFirst (f := (·.withVisibility .everywhere)) (fun _ => rfl) t.constructors)
  fieldTarget? := fieldTarget?_congr rfl rfl rfl
  members member has := by
    rw [hasMemberNamed_iff] at has ⊢
    refine has.imp_left fun has => ?_
    show member ∈ (t.methods ++ [m]).map (·.name)
    rw [List.map_append]
    exact List.mem_append_left _ has

/-- Making fields public widens a type. -/
lemma widens_exposeFields (t : TypeDef) (names : List String) :
    t.Widens (t.exposeFields names).1 := by
  induction names generalizing t with
  | nil => exact .refl t
  | cons name rest ih =>
    rw [exposeFields]
    cases t.field? name with
    | none => exact .refl t
    | some f =>
      have exposed : t.Widens (t.exposeField name) := by
        have fields : (t.exposeField name).fields.map (fun f => (f.name, f.isMarked))
            = t.fields.map fun f => (f.name, f.isMarked) :=
          map_updateFirst (f := (·.withVisibility .everywhere)) (fun _ => rfl) t.fields
        refine ⟨rfl, constructorTarget?_congr rfl rfl rfl rfl, fieldTarget?_congr rfl rfl fields,
          fun member has => ?_⟩
        have named : (t.exposeField name).fields.map (·.name) = t.fields.map (·.name) :=
          map_updateFirst (f := (·.withVisibility .everywhere)) (fun _ => rfl) t.fields
        rw [hasMemberNamed_iff] at has ⊢
        rw [named]
        exact has
      exact exposed.trans (ih _)

/-- Adding a method widens a type, and the type has the method. -/
lemma widens_addSynthesized (t : TypeDef) (m : Method) :
    t.Widens (t.addSynthesized m) ∧ (t.addSynthesized m).hasMemberNamed m.name := by
  have methods : (t.addSynthesized m).methods.map (·.name)
      = t.methods.map (·.name) ++ [m.name] := List.map_append
  refine ⟨⟨rfl, constructorTarget?_congr rfl rfl rfl rfl, fieldTarget?_congr rfl rfl rfl,
    fun member has => ?_⟩, ?_⟩
  · rw [hasMemberNamed_iff] at has ⊢
    rw [methods]
    exact has.imp_left (List.mem_append_left _)
  · rw [hasMemberNamed_iff, methods]
    exact .inl (List.mem_append_right _ (List.mem_singleton.2 rfl))

end TypeDef

/-- What a successful edit does: it widens the module, and the type that its target names has the
member that it adds. -/
structure Module.Edited (ty member : String) (m m' : Module) : Prop where
  widens : m.Widens m'
  hasMember : m'.HasMember ty member

/-- A change of the type of a name is an edit if that type is widened and has the member. -/
lemma Module.edited_updateType {m : Module} {ty member : String} {t : TypeDef}
    {f : TypeDef → TypeDef} (found : m.typeNamed? ty = some t) (widens : t.Widens (f t))
    (has : (f t).hasMemberNamed member) : m.Edited ty member (m.updateType ty f) where
  widens := forall₂_updateFirst found widens .refl
  hasMember := by
    have named : (f t).name = ty := widens.name.trans (key_of_find? TypeDef.name found)
    exact ⟨f t, find?_updateFirst_self found (beq_iff_eq.2 named), has⟩

lemma Module.edited_addFactory {m m' : Module} {target : ConstructorTarget} {id : Uuid}
    (ok : m.addFactory target id = .ok m') : m.Edited target.ty factoryName m' := by
  unfold addFactory at ok
  split at ok
  · cases ok
  next t found =>
  split at ok
  · cases ok
  split at ok
  · cases ok
  next ctor _ =>
    injection ok with ok
    rw [← ok]
    exact edited_updateType found (t.widens_factory _ _) (TypeDef.widens_addSynthesized _ _).2

lemma Module.edited_addInjector {m m' : Module} {target : FieldTarget} {id : Uuid}
    (ok : m.addInjector target id = (m', .ok ())) : m.Edited target.ty injectorName m' := by
  unfold addInjector at ok
  split at ok
  · cases ok
  next t found =>
  split at ok
  · cases ok
  split at ok
  · cases ok
  next exposed fields step =>
    injection ok with ok _
    have exposes : t.Widens exposed := by
      have widens := t.widens_exposeFields target.fields
      rw [step] at widens
      exact widens
    have added := exposed.widens_addSynthesized (injectorMethod id target.ty fields)
    rw [← ok]
    exact edited_updateType found (exposes.trans added.1) added.2

/-! ## All edits of a weave -/

namespace Draft

/-- The edits for targets of one kind, each of which adds the same member. -/
def Adds {τ : Type} (edit : Draft → τ → Except WeaveError Draft) (ty : τ → String)
    (member : String) : Prop :=
  ∀ (d d' : Draft) (target : τ), edit d target = .ok d' →
    d.module.Edited (ty target) member d'.module

lemma adds_addFactory : Adds addFactory ConstructorTarget.ty factoryName := by
  intro d d' target ok
  obtain ⟨m, added, ok⟩ := exists_of_bind_eq_ok ok
  injection ok with ok
  rw [← ok]
  exact Module.edited_addFactory added

lemma adds_addInjector : Adds addInjector FieldTarget.ty injectorName := by
  intro d d' target ok
  unfold addInjector at ok
  cases added : d.module.addInjector target d.supply.draw.1 with
  | mk m outcome =>
    simp only [added] at ok
    obtain ⟨⟨⟩, rfl, ok⟩ := exists_of_bind_eq_ok ok
    injection ok with ok
    rw [← ok]
    exact Module.edited_addInjector added

variable {τ : Type} {edit : Draft → τ → Except WeaveError Draft} {ty : τ → String} {member : String}
  {d d' : Draft}

/-- What relates the modules before and after each edit relates those before and after all. -/
lemma rel_foldlM {R : Module → Module → Prop} (refl : ∀ m, R m m)
    (trans : ∀ m₁ m₂ m₃, R m₁ m₂ → R m₂ m₃ → R m₁ m₃)
    (step : ∀ (d d' : Draft) (target : τ), edit d target = .ok d' → R d.module d'.module)
    {targets : List τ} (ok : targets.foldlM edit d = .ok d') : R d.module d'.module := by
  induction targets generalizing d with
  | nil =>
    injection ok with ok
    rw [ok]
    exact refl d'.module
  | cons target rest ih =>
    rw [List.foldlM_cons] at ok
    obtain ⟨d₁, first, ok⟩ := exists_of_bind_eq_ok ok
    exact trans _ _ _ (step d d₁ target first) (ih ok)

/-- Edits one after the other widen the module. -/
lemma Adds.widens_foldlM (adds : Adds edit ty member) {targets : List τ}
    (ok : targets.foldlM edit d = .ok d') : d.module.Widens d'.module :=
  rel_foldlM Module.Widens.refl (fun _ _ _ => .trans)
    (fun d d' target ok => (adds d d' target ok).widens) ok

/-- The type of the first target goes on to have the member through the edits that follow. -/
lemma Adds.hasMember_foldlM (adds : Adds edit ty member) {target : τ} {rest : List τ}
    (ok : (target :: rest).foldlM edit d = .ok d') : d'.module.HasMember (ty target) member := by
  rw [List.foldlM_cons] at ok
  obtain ⟨d₁, first, ok⟩ := exists_of_bind_eq_ok ok
  exact (adds.widens_foldlM ok).hasMember (adds d d₁ target first).hasMember

end Draft

/-! ## Spent modules -/

/-- The first edit of a weave would add a member that the type it looks up has already. -/
def Module.Spent (m : Module) : Prop :=
  ∃ ty member, m.allTargets.first? = some (ty, member) ∧ m.HasMember ty member

/-- Modules with the same types are spent alike. -/
lemma Module.Spent.of_types {m m' : Module} (spent : m.Spent) (types : m'.types = m.types) :
    m'.Spent := by
  unfold Module.Spent Module.HasMember Module.allTargets Module.typeNamed?
  rw [types]
  exact spent

/-- A registrar behind the types is no target, and hides no type. -/
lemma Module.Spent.addType {m : Module} (spent : m.Spent) (id : Uuid) (name : String)
    (bake : Method) : (m.addType (registrarType id name bake)).Spent := by
  obtain ⟨ty, member, first, t, found, has⟩ := spent
  refine ⟨ty, member, ?_, t, ?_, has⟩
  · have targets : (m.addType (registrarType id name bake)).allTargets = m.allTargets := by
      simp [allTargets, Module.addType, List.filterMap_append, registrarType,
        TypeDef.constructorTarget?, TypeDef.fieldTarget?, TypeDef.markedFields]
    rw [targets]
    exact first
  · rw [typeNamed?, Module.addType, List.find?_append]
    rw [typeNamed?] at found
    rw [found]
    rfl

/-- The edits of a weave fail if the first of them would add a member that is there. -/
lemma Draft.addAll_of_hasMember {d : Draft} {targets : Targets} {ty member : String} {t : TypeDef}
    (first : targets.first? = some (ty, member)) (found : d.module.typeNamed? ty = some t)
    (has : t.hasMemberNamed member) (registrar : String) (editorOnly : Bool) :
    d.addAll targets registrar editorOnly = .error (.nameCollision t.name member) := by
  obtain ⟨constructable, injectable⟩ := targets
  cases constructable with
  | cons c rest =>
    injection first with first
    injection first with named added
    subst named added
    have refused : d.addFactory c = .error (.nameCollision t.name factoryName) := by
      simp only [Draft.addFactory, Module.addFactory, found, has, if_true]
      rfl
    rw [addAll, List.foldlM_cons, refused]
    rfl
  | nil =>
    cases injectable with
    | nil => cases first
    | cons f rest =>
      injection first with first
      injection first with named added
      subst named added
      have refused : d.addInjector f = .error (.nameCollision t.name injectorName) := by
        simp only [Draft.addInjector, Module.addInjector, found, has, if_true]
        rfl
      show (f :: rest).foldlM addInjector d >>= _ = _
      rw [List.foldlM_cons, refused]
      rfl

lemma Targets.isEmpty_eq_false {targets : Targets} {edit : String × String}
    (first : targets.first? = some edit) : targets.isEmpty = false := by
  obtain ⟨_ | ⟨c, rest⟩, _ | ⟨f, rest'⟩⟩ := targets
  · cases first
  · rfl
  · rfl
  · rfl

/-- A module that has neither a stamp nor its registrar has no type of the registrar's name. -/
lemma Module.typeNamed?_of_not_isWoven {m : Module} {registrar : String}
    (unwoven : m.isWoven registrar = false) : m.typeNamed? registrar = none := by
  rw [isWoven, Bool.or_eq_false_iff] at unwoven
  exact Option.isNone_iff_eq_none.1 (Option.isSome_eq_false_iff.1 unwoven.2)

/-- What a weave adds leaves the module spent. -/
lemma Draft.spent_of_addAll {d d' : Draft} {targets : Targets} {registrar : String}
    {editorOnly : Bool} (all : d.module.allTargets = targets) (some : targets.isEmpty = false)
    (ok : d.addAll targets registrar editorOnly = .ok d') : d'.module.Spent := by
  rw [addAll] at ok
  obtain ⟨d₁, factories, ok⟩ := exists_of_bind_eq_ok ok
  obtain ⟨d₂, injectors, ok⟩ := exists_of_bind_eq_ok ok
  obtain ⟨m, registered, ok⟩ := exists_of_bind_eq_ok ok
  have widens₁ := adds_addFactory.widens_foldlM factories
  have widens₂ := adds_addInjector.widens_foldlM injectors
  have same : d₂.module.allTargets = targets := by
    rw [widens₂.allTargets, widens₁.allTargets, all]
  have spent : d₂.module.Spent := by
    obtain ⟨_ | ⟨c, rest⟩, _ | ⟨f, rest'⟩⟩ := targets
    · cases some
    · exact ⟨f.ty, injectorName, by rw [same]; rfl, adds_addInjector.hasMember_foldlM injectors⟩
    · have hasMember := adds_addFactory.hasMember_foldlM factories
      exact ⟨c.ty, factoryName, by rw [same]; rfl, widens₂.hasMember hasMember⟩
    · have hasMember := adds_addFactory.hasMember_foldlM factories
      exact ⟨c.ty, factoryName, by rw [same]; rfl, widens₂.hasMember hasMember⟩
  rw [Module.addRegistrar] at registered
  split at registered
  · cases registered
  · injection registered with registered
    injection ok with ok
    rw [← ok, ← registered]
    exact spent.addType _ _ _

/-- What a weave that ends well has done: it has left the module alone, or it has added what the
targets call for and stamped the module. -/
lemma weave_cases {m m' : Module} {options : WeaveOptions} {supply supply' : IdSupply}
    {outcome : WeaveOutcome} (ran : m.weave options supply = .ok (outcome, m', supply')) :
    (outcome = .alreadyWoven ∧ m' = m) ∨ (outcome = .nothingToWeave ∧ m' = m) ∨
      ∃ report d, outcome = .woven report ∧ m.allTargets.isEmpty = false ∧
        Draft.addAll { module := m, supply } m.allTargets
          (registrarName m.name options.registrarName) options.editorOnly = .ok d ∧
        m'.types = d.module.types := by
  rw [Module.weave] at ran
  cases recognised : m.isWoven (registrarName m.name options.registrarName) with
  | true =>
    simp only [recognised, if_true] at ran
    injection ran with ran
    injection ran with ended ran
    injection ran with left
    exact .inl ⟨ended.symm, left.symm⟩
  | false =>
    have targets := Module.targets_eq_allTargets (Module.typeNamed?_of_not_isWoven recognised)
    simp only [recognised, Bool.false_eq_true, if_false, targets] at ran
    cases empty : m.allTargets.isEmpty with
    | true =>
      simp only [empty, if_true] at ran
      injection ran with ran
      injection ran with ended ran
      injection ran with left
      exact .inr (.inl ⟨ended.symm, left.symm⟩)
    | false =>
      simp only [empty, Bool.false_eq_true, if_false] at ran
      obtain ⟨d, added, ran⟩ := exists_of_bind_eq_ok ran
      injection ran with ran
      injection ran with ended ran
      injection ran with left
      exact .inr (.inr ⟨_, d, ended.symm, rfl, added, by rw [← left]⟩)

/-- A weave of a spent module does nothing: the module is recognised as woven or refused. -/
lemma weave_of_spent {m : Module} (spent : m.Spent) (options : WeaveOptions) (supply : IdSupply) :
    m.weave options supply = .ok (.alreadyWoven, m, supply) ∨
      m.stamp = none ∧ ∃ ty member, m.weave options supply = .error (.nameCollision ty member) := by
  cases recognised : m.isWoven (registrarName m.name options.registrarName) with
  | true =>
    left
    rw [Module.weave]
    simp only [recognised, if_true]
    rfl
  | false =>
    obtain ⟨ty, member, first, t, found, has⟩ := spent
    have targets := Module.targets_eq_allTargets (Module.typeNamed?_of_not_isWoven recognised)
    have unstamped : m.stamp = none := by
      rw [Module.isWoven, Bool.or_eq_false_iff] at recognised
      simpa using recognised.1
    refine .inr ⟨unstamped, t.name, member, ?_⟩
    rw [Module.weave]
    simp only [recognised, targets, Targets.isEmpty_eq_false first, Bool.false_eq_true, if_false]
    rw [Draft.addAll_of_hasMember first found has]
    rfl

/-! ## Sequences of weaves -/

/-- One of a sequence of weaves: whether the stamp is taken off beforehand, how to weave, and where
identifiers come from. -/
structure WeaveCall where
  unstamp : Bool := false
  options : WeaveOptions := {}
  supply : IdSupply

/-- What one of a sequence of weaves has done: the module it was given, how it ended, and the module
that the caller has afterwards. -/
structure WeaveRun where
  given : Module
  outcome : Except WeaveError WeaveOutcome
  left : Module

/-- The module without its stamp. -/
def Module.unstamped (m : Module) : Module :=
  { m with stamp := none }

/-- Weaves a module. On an error the caller keeps the module it has. -/
def WeaveCall.run (c : WeaveCall) (m : Module) : WeaveRun :=
  let given := if c.unstamp then m.unstamped else m
  match given.weave c.options c.supply with
  | .ok (outcome, left, _) => ⟨given, .ok outcome, left⟩
  | .error e => ⟨given, .error e, given⟩

/-- Weaves a module again and again. -/
def weaveAll : Module → List WeaveCall → List WeaveRun
  | _, [] => []
  | m, c :: rest => c.run m :: weaveAll (c.run m).left rest

namespace WeaveRun

/-- Whether the module was woven. -/
def isWoven (r : WeaveRun) : Bool :=
  match r.outcome with
  | .ok (.woven _) => true
  | _ => false

/-- The module was recognised as woven, as every module with a stamp is, or was refused for a name
that is taken, and is left as it was given. -/
structure Refused (r : WeaveRun) : Prop where
  left : r.left = r.given
  outcome : r.outcome = .ok .alreadyWoven ∨
    r.given.stamp = none ∧ ∃ ty member, r.outcome = .error (.nameCollision ty member)

end WeaveRun

namespace WeaveCall

/-- The module that a weave of a sequence is given is the one before it, but for the stamp. -/
lemma unstamped_given (c : WeaveCall) (m : Module) : (c.run m).given.unstamped = m.unstamped := by
  have given : (c.run m).given = if c.unstamp then m.unstamped else m := by
    rw [run]
    split <;> rfl
  rw [given]
  split <;> rfl

/-- A weave that weaves a module leaves it spent, and any other leaves the module it was given. -/
lemma run_cases (c : WeaveCall) (m : Module) :
    ((c.run m).isWoven ∧ (c.run m).left.Spent) ∨
      ((c.run m).isWoven = false ∧ (c.run m).left = (c.run m).given) := by
  rw [run]
  generalize (if c.unstamp then m.unstamped else m) = given
  cases ended : given.weave c.options c.supply with
  | error e => exact .inr ⟨rfl, rfl⟩
  | ok result =>
    obtain ⟨outcome, left, rest⟩ := result
    rcases weave_cases ended with ⟨rfl, same⟩ | ⟨rfl, same⟩ | ⟨_, d, rfl, some, added, types⟩
    · exact .inr ⟨rfl, same⟩
    · exact .inr ⟨rfl, same⟩
    · exact .inl ⟨rfl, (Draft.spent_of_addAll rfl some added).of_types types⟩

/-- A weave of a spent module is refused, and what it leaves is spent. -/
lemma refused_of_spent {m : Module} (spent : m.Spent) (c : WeaveCall) : (c.run m).Refused := by
  have given : (if c.unstamp then m.unstamped else m).Spent := by
    split
    · exact spent.of_types rfl
    · exact spent
  rw [run]
  generalize (if c.unstamp then m.unstamped else m) = given at given ⊢
  rcases weave_of_spent given c.options c.supply with ended | ⟨unstamped, ty, member, ended⟩
  · rw [ended]
    exact ⟨rfl, .inl rfl⟩
  · rw [ended]
    exact ⟨rfl, .inr ⟨unstamped, ty, member, rfl⟩⟩

end WeaveCall

/-- A weave that was refused has not woven the module. -/
lemma WeaveRun.Refused.isWoven_eq_false {r : WeaveRun} (refused : r.Refused) :
    r.isWoven = false := by
  rcases refused.outcome with ended | ⟨-, ty, member, ended⟩
  · rw [isWoven, ended]
  · rw [isWoven, ended]

/-- Every weave of a spent module, and of what is left of it, is refused, and takes off nothing but
the stamp. -/
lemma refused_of_mem_weaveAll {m : Module} (spent : m.Spent) {calls : List WeaveCall} {r : WeaveRun}
    (member : r ∈ weaveAll m calls) : r.Refused ∧ r.given.unstamped = m.unstamped := by
  induction calls generalizing m with
  | nil => cases member
  | cons c rest ih =>
    have refused := WeaveCall.refused_of_spent spent c
    have same := c.unstamped_given m
    rcases List.mem_cons.1 member with rfl | later
    · exact ⟨refused, same⟩
    · have left : (c.run m).left.unstamped = m.unstamped := by rw [refused.left, same]
      have still : (c.run m).left.Spent := by
        refine spent.of_types ?_
        have types := congrArg Module.types left
        exact types
      obtain ⟨refused', same'⟩ := ih still later
      exact ⟨refused', same'.trans left⟩

/-- At every time, the module is as it was in the beginning or as one weave of this has left it, but
for the stamp. -/
lemma exists_weave_of_mem {m : Module} {calls : List WeaveCall} {r : WeaveRun}
    (member : r ∈ weaveAll m calls) :
    r.left.unstamped = m.unstamped ∨
      ∃ first ∈ weaveAll m calls, first.isWoven ∧ first.given.unstamped = m.unstamped ∧
        r.left.unstamped = first.left.unstamped := by
  induction calls generalizing m with
  | nil => cases member
  | cons c rest ih =>
    have given := c.unstamped_given m
    rw [weaveAll] at member ⊢
    rcases c.run_cases m with ⟨woven, spent⟩ | ⟨unwoven, same⟩
    · refine .inr ⟨c.run m, List.mem_cons_self, woven, given, ?_⟩
      rcases List.mem_cons.1 member with rfl | later
      · rfl
      · obtain ⟨refused, left⟩ := refused_of_mem_weaveAll spent later
        rw [refused.left, left]
    · have left : (c.run m).left.unstamped = m.unstamped := by rw [same, given]
      rcases List.mem_cons.1 member with rfl | later
      · exact .inl left
      · rw [← left]
        refine (ih later).imp_right fun ⟨first, listed, once⟩ => ?_
        exact ⟨first, List.mem_cons_of_mem _ listed, once⟩

/-- A weave that has not woven the module leaves it as it was given. -/
lemma left_eq_given_of_mem {m : Module} {calls : List WeaveCall} {r : WeaveRun}
    (member : r ∈ weaveAll m calls) (unwoven : r.isWoven = false) : r.left = r.given := by
  induction calls generalizing m with
  | nil => cases member
  | cons c rest ih =>
    rcases List.mem_cons.1 member with rfl | later
    · rcases c.run_cases m with ⟨woven, -⟩ | ⟨-, same⟩
      · rw [unwoven] at woven
        cases woven
      · exact same
    · exact ih later

/-- Weaves after the one that weaves the module are refused. -/
lemma pairwise_weaveAll (m : Module) (calls : List WeaveCall) :
    (weaveAll m calls).Pairwise fun first later =>
      first.isWoven → later.Refused ∧ later.given.unstamped = first.left.unstamped := by
  induction calls generalizing m with
  | nil => exact .nil
  | cons c rest ih =>
    rw [weaveAll, List.pairwise_cons]
    refine ⟨fun r later woven => ?_, ih _⟩
    rcases c.run_cases m with ⟨-, spent⟩ | ⟨unwoven, -⟩
    · exact refused_of_mem_weaveAll spent later
    · rw [unwoven] at woven
      cases woven

/-- A condition that holds of no element after the first it holds of holds at most once. -/
lemma countP_le_one_of_pairwise {α : Type} {p : α → Bool} {l : List α}
    (pairs : l.Pairwise fun first later => p first → p later = false) : l.countP p ≤ 1 := by
  induction l with
  | nil => exact Nat.zero_le 1
  | cons first rest ih =>
    rw [List.pairwise_cons] at pairs
    cases holds : p first with
    | true =>
      have none : rest.countP p = 0 := by
        rw [List.countP_eq_zero]
        intro later member
        rw [pairs.1 later member holds]
        exact Bool.false_ne_true
      rw [List.countP_cons_of_pos holds, none]
    | false =>
      have other : ¬p first = true := by
        rw [holds]
        exact Bool.false_ne_true
      rw [List.countP_cons_of_neg other]
      exact ih pairs.2

/-- So the module is woven at most once. -/
lemma countP_weaveAll_le (m : Module) (calls : List WeaveCall) :
    (weaveAll m calls).countP WeaveRun.isWoven ≤ 1 := by
  refine countP_le_one_of_pairwise ((pairwise_weaveAll m calls).imp fun refused woven => ?_)
  exact (refused woven).1.isWoven_eq_false

/-- However often a module is woven, whatever the settings are and whether the stamp is taken off in
between or not: it is woven at most once, so nothing is added to it twice. Weaves that do not weave
the module leave it as they were given it. Those after the one that does find the module as that one
has left it, but for the stamp; they recognise it or refuse it. -/
theorem weaves_once (m : Module) (calls : List WeaveCall) :
    (weaveAll m calls).countP WeaveRun.isWoven ≤ 1 ∧
      (∀ r ∈ weaveAll m calls, r.isWoven = false → r.left = r.given) ∧
      (∀ r ∈ weaveAll m calls, r.left.unstamped = m.unstamped ∨
        ∃ first ∈ weaveAll m calls, first.isWoven ∧ first.given.unstamped = m.unstamped ∧
          r.left.unstamped = first.left.unstamped) ∧
      (weaveAll m calls).Pairwise fun first later =>
        first.isWoven → later.Refused ∧ later.given.unstamped = first.left.unstamped :=
  ⟨countP_weaveAll_le m calls, fun _ => left_eq_given_of_mem, fun _ => exists_weave_of_mem,
    pairwise_weaveAll m calls⟩

/-- Four weaves of the lamp: the second finds the stamp, the third neither stamp nor registrar under
the name it goes by, and the fourth the registrar. -/
def lampCalls : List WeaveCall :=
  [{ supply := lampIds },
   { supply := lampIds },
   { supply := lampIds, unstamp := true
     options := { editorOnly := true, registrarName := "Setup" } },
   { supply := lampIds, unstamp := true }]

/-- The lamp is woven by the first weave only. -/
theorem weaves_once_lamp :
    ∃ report, (weaveAll lamp lampCalls).map (·.outcome) =
        [.ok (.woven report), .ok .alreadyWoven, .error (.nameCollision "Lamp.Bulb" factoryName),
          .ok .alreadyWoven] ∧
      (weaveAll lamp lampCalls).countP WeaveRun.isWoven ≤ 1 :=
  ⟨_, rfl, (weaves_once lamp lampCalls).1⟩

end Weaver
