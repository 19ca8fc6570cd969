import Mathlib.Data.List.Nodup
import Mathlib.Tactic.Common
import Weaver.Module.Build
import Weaver.Proofs.Lookups
import Weaver.Weave.Basic

/-!
# What a weave changes

A weave edits a copy of the module target by target, and every edit looks its type and its members
up again, by name or by identifier. This file states the outcome without any of these lookups: each
type is rewritten on its own, from its own markers, and the registrar is appended. The code that is
added is written out as it is documented, without the templates that the weaver makes it from.

Four things live here:

* `TypeDef.documentedFactory`, `TypeDef.documentedInjector` and `Module.registrar`, what is added;
* `TypeDef.rewoven` and `Module.rewoven`, the rewrite of a type and of a module;
* `WeaveIds`, the identifiers that a weave hands out, and the order in which they are drawn;
* `exists_rewoven_of_weave`, by which a weave of a module whose names are unambiguous is the rewrite.
-/

namespace Weaver

/-! ## Modules without ambiguous names -/

/-- No two types of the module share a name, and within a type no two fields share a name and no two
constructors an identifier. -/
structure Module.Unambiguous (m : Module) : Prop where
  types : (m.types.map (·.name)).Nodup
  fields : ∀ t ∈ m.types, (t.fields.map (·.name)).Nodup
  constructors : ∀ t ∈ m.types, (t.constructors.map (·.id)).Nodup

/-! ## Documented code -/

namespace TypeDef

/-- The factory of the type for a constructor. It takes a container, resolves the parameters in
order, constructs and gives an `object` back. -/
def documentedFactory (t : TypeDef) (id : Uuid) (ctor : Method) : Method where
  id := id
  name := "__prewire_create"
  visibility := .everywhere
  isStatic := true
  params := [⟨"container", "Prewire.Container"⟩]
  returnType := some "object"
  markers := [.custom "prewire.generated"]
  body := (ctor.params.flatMap fun p => [.loadArg 0, .resolve p.ty])
    ++ [.newObject t.name ctor.id, .upcast "object", .ret]

/-- The injector of the type. It takes an instance and a container, and resolves and stores the
marked fields in order. -/
def documentedInjector (t : TypeDef) (id : Uuid) : Method where
  id := id
  name := "__prewire_inject"
  visibility := .everywhere
  isStatic := true
  params := [⟨"instance", t.name⟩, ⟨"container", "Prewire.Container"⟩]
  returnType := none
  markers := [.custom "prewire.generated"]
  body := (t.markedFields.flatMap fun f =>
    [.loadArg 0, .loadArg 1, .resolve f.ty, .storeField t.name f.name]) ++ [.ret]

/-- The weaver's template for factories makes the documented one. -/
@[simp] lemma documentedFactory_eq (t : TypeDef) (id : Uuid) (ctor : Method) :
    t.documentedFactory id ctor = factoryMethod id t.name ctor :=
  rfl

/-- The weaver's template for injectors makes the documented one. -/
@[simp] lemma documentedInjector_eq (t : TypeDef) (id : Uuid) :
    t.documentedInjector id = injectorMethod id t.name t.markedFields :=
  rfl

/-! ## The rewrite of a type -/

/-- Whether a weave adds a method of this kind to the type: a factory for a marked constructor of a
class that can be constructed, an injector for marked fields of any class. -/
def gets (t : TypeDef) : EntryKind → Bool
  | .factory => !t.isInterface && !t.isAbstract && t.constructors.any Method.isMarked
  | .injector => !t.isInterface && t.fields.any Field.isMarked

/-- The method of a kind that the type gets, under an identifier. -/
def synthesized? (t : TypeDef) (kind : EntryKind) (id : Uuid) : Option Method :=
  if t.gets kind then
    match kind with
    | .factory => t.markedConstructor?.map (t.documentedFactory id)
    | .injector => some (t.documentedInjector id)
  else none

/-- The fields of the type with the marked ones public. -/
def fieldsExposed (t : TypeDef) : List Field :=
  t.fields.map fun f => if f.isMarked then f.withVisibility .everywhere else f

/-- The constructors of the type with the first marked one public. -/
def constructorsExposed (t : TypeDef) : List Method :=
  updateFirst Method.isMarked (·.withVisibility .everywhere) t.constructors

/-- The type after a weave. What is not listed stays as it was, and so does an interface. -/
def rewoven (t : TypeDef) (factoryId injectorId : Uuid) : TypeDef :=
  if t.isInterface then t
  else { t with
    visibility := if t.gets .factory || t.gets .injector then .everywhere else t.visibility
    fields := t.fieldsExposed
    constructors := if t.isAbstract then t.constructors else t.constructorsExposed
    methods := t.methods ++ (t.synthesized? .factory factoryId).toList
      ++ (t.synthesized? .injector injectorId).toList }

end TypeDef

/-! ## The rewrite of a module -/

/-- The types among some that get a method of a kind, by name and in order. -/
def namesThatGet (kind : EntryKind) (types : List TypeDef) : List String :=
  (types.filter (·.gets kind)).map (·.name)

/-- The types of the module that get a method of a kind, by name and in order. -/
def Module.targetNames (m : Module) (kind : EntryKind) : List String :=
  namesThatGet kind m.types

/-- The identifiers that a weave hands out: one for each method that it adds to a type, one for the
registrar and one for the registrar's method. -/
structure WeaveIds where
  entry : EntryKind → String → Uuid
  registrar : Uuid
  bake : Uuid

namespace WeaveIds

/-- The methods of a kind that a weave adds to a module, in the order of their types. -/
def entries (ids : WeaveIds) (m : Module) (kind : EntryKind) : List Synthesized :=
  (m.targetNames kind).map fun ty => ⟨ty, ids.entry kind ty⟩

/-- The identifiers in the order in which a weave of the module draws them. -/
def inOrder (ids : WeaveIds) (m : Module) : List Uuid :=
  (m.targetNames .factory).map (ids.entry .factory)
    ++ (m.targetNames .injector).map (ids.entry .injector) ++ [ids.registrar, ids.bake]

end WeaveIds

/-- The number of identifiers that a weave of the module draws. -/
def Module.idsNeeded (m : Module) : ℕ :=
  (m.targetNames .factory).length + (m.targetNames .injector).length + 2

/-- The registrar of the module after its weave. Its one method runs when the module is loaded, by
editors only if the module is for editors only, and registers all factories, then all injectors,
each in the order of their types. -/
def Module.registrar (m : Module) (options : WeaveOptions) (ids : WeaveIds) : TypeDef where
  id := ids.registrar
  name := m.name ++ "." ++ options.registrarName
  visibility := .everywhere
  kind := .classType
  isAbstract := true
  methods :=
    [{ id := ids.bake
       name := "Bake"
       visibility := .everywhere
       isStatic := true
       params := []
       returnType := none
       markers :=
         [if options.editorOnly then .editorLoadHook else .runtimeLoadHook,
           .custom "prewire.generated"]
       body :=
         ((m.targetNames .factory).flatMap fun ty =>
             [.loadMethod ty (ids.entry .factory ty), .register .factory ty])
           ++ ((m.targetNames .injector).flatMap fun ty =>
             [.loadMethod ty (ids.entry .injector ty), .register .injector ty])
           ++ [.ret] }]

/-- The weaver's templates for the registrar make the documented one. -/
lemma Module.registrar_eq (m : Module) (options : WeaveOptions) (ids : WeaveIds) :
    m.registrar options ids
      = registrarType ids.registrar (registrarName m.name options.registrarName)
        (bakeMethod ids.bake (ids.entries m .factory) (ids.entries m .injector)
          options.editorOnly) := by
  have registers : ∀ kind, registrations kind (ids.entries m kind)
      = (m.targetNames kind).flatMap fun ty =>
        [.loadMethod ty (ids.entry kind ty), .register kind ty] := fun kind => by
    rw [registrations, WeaveIds.entries, List.flatMap_map]
  rw [bakeMethod, registers, registers]
  rfl

/-- The module after a weave: every type rewritten on its own, the registrar behind them, and the
stamp. The name and the references stay as they were. -/
def Module.rewoven (m : Module) (options : WeaveOptions) (ids : WeaveIds) : Module :=
  { m with
    types := m.types.map
        (fun t => t.rewoven (ids.entry .factory t.name) (ids.entry .injector t.name))
      ++ [m.registrar options ids]
    stamp := some
      { toolVersion
        sourceHash := m.hash
        factories := (m.targetNames .factory).length.toUInt32
        injectors := (m.targetNames .injector).length.toUInt32 } }

namespace IdSupply

/-- The next `n` identifiers of a supply. -/
def next (supply : IdSupply) : ℕ → List Uuid
  | 0 => []
  | n + 1 => supply.draw.1 :: supply.draw.2.next n

/-- A supply after `n` identifiers were drawn. -/
def skip (supply : IdSupply) (n : ℕ) : IdSupply :=
  { supply with drawn := supply.drawn + n }

lemma skip_draw (supply : IdSupply) (n : ℕ) : supply.draw.2.skip n = supply.skip (n + 1) := by
  simp only [draw, skip, Nat.add_assoc, Nat.add_comm 1]

lemma length_next (supply : IdSupply) (n : ℕ) : (supply.next n).length = n := by
  induction n generalizing supply with
  | zero => rfl
  | succ n ih => rw [next, List.length_cons, ih]

lemma next_add (supply : IdSupply) (m n : ℕ) :
    supply.next (m + n) = supply.next m ++ (supply.skip m).next n := by
  induction m generalizing supply with
  | zero => simp [next, skip]
  | succ m ih =>
    rw [Nat.succ_add, next, next, ih, skip_draw]
    rfl

end IdSupply

/-! ## First matches -/

section FirstMatch

variable {α : Type} {p : α → Bool} {l r : List α} {a : α}

lemma updateFirst_append_cons (f : α → α) (before : ∀ b ∈ l, p b = false) (found : p a = true) :
    updateFirst p f (l ++ a :: r) = l ++ f a :: r := by
  induction l with
  | nil => simp [updateFirst, found]
  | cons b l ih =>
    have hb : p b = false := before b List.mem_cons_self
    rw [List.cons_append, updateFirst, hb, ih fun c hc => before c (List.mem_cons_of_mem _ hc)]
    rfl

lemma updateFirst_eq_self (f : α → α) (none : ∀ b ∈ l, p b = false) : updateFirst p f l = l := by
  induction l with
  | nil => rfl
  | cons b l ih =>
    have hb : p b = false := none b List.mem_cons_self
    rw [updateFirst, hb, ih fun c hc => none c (List.mem_cons_of_mem _ hc)]
    rfl

/-- The first match of a condition, changed through a key that no other element has. -/
lemma updateFirst_key_of_find? {κ : Type} [BEq κ] [LawfulBEq κ] (key : α → κ) (f : α → α)
    (keys : (l.map key).Nodup) (found : l.find? p = some a) :
    updateFirst (key · == key a) f l = updateFirst p f l := by
  obtain ⟨ha, before, after, rfl, hbefore⟩ := List.find?_eq_some_iff_append.1 found
  rw [List.map_append, List.map_cons, List.nodup_append] at keys
  have hkey : ∀ b ∈ before, (key b == key a) = false := fun b hb =>
    beq_false_of_ne (keys.2.2 _ (List.mem_map_of_mem hb) _ List.mem_cons_self)
  have hp : ∀ b ∈ before, p b = false := fun b hb => by simpa using hbefore b hb
  rw [updateFirst_append_cons f hp ha]
  exact updateFirst_append_cons f hkey (beq_self_eq_true _)

end FirstMatch

/-! ## One target -/

namespace TypeDef

/-- The type with its method of a kind, if it gets one, and with the members that this method
touches public. -/
def extended (t : TypeDef) (kind : EntryKind) (id : Uuid) : TypeDef :=
  match t.synthesized? kind id, kind with
  | none, _ => t
  | some m, .factory => { t with constructors := t.constructorsExposed }.addSynthesized m
  | some m, .injector => { t with fields := t.fieldsExposed }.addSynthesized m

lemma extended_name (t : TypeDef) (kind : EntryKind) (id : Uuid) :
    (t.extended kind id).name = t.name := by
  unfold extended
  split <;> rfl

lemma synthesized?_eq_none {t : TypeDef} {kind : EntryKind} (h : t.gets kind = false) (id : Uuid) :
    t.synthesized? kind id = none := by
  simp [synthesized?, h]

lemma extended_eq_self {t : TypeDef} {kind : EntryKind} (h : t.gets kind = false) (id : Uuid) :
    t.extended kind id = t := by
  unfold extended
  rw [synthesized?_eq_none h]

/-- A type that gets a factory has a first marked constructor. -/
lemma markedConstructor?_of_gets {t : TypeDef} (h : t.gets .factory = true) :
    ∃ c, t.markedConstructor? = some c ∧ t.constructorTarget? = some ⟨t.name, c.id⟩ := by
  simp only [gets, Bool.and_eq_true, Bool.not_eq_true', List.any_eq_true] at h
  obtain ⟨⟨interface, abstract⟩, marked⟩ := h
  obtain ⟨c, hc⟩ := Option.isSome_iff_exists.1 (List.find?_isSome.2 marked)
  refine ⟨c, hc, ?_⟩
  simp only [constructorTarget?, interface, abstract, markedConstructor?, hc]
  rfl

lemma ty_of_constructorTarget? {t : TypeDef} {target : ConstructorTarget}
    (hit : t.constructorTarget? = some target) : target.ty = t.name := by
  unfold constructorTarget? at hit
  split at hit
  · cases hit
  · obtain ⟨c, -, rfl⟩ := Option.map_eq_some_iff.1 hit
    rfl

lemma eq_of_fieldTarget? {t : TypeDef} {target : FieldTarget}
    (hit : t.fieldTarget? = some target) : target = ⟨t.name, t.markedFields.map (·.name)⟩ := by
  unfold fieldTarget? at hit
  split at hit
  · cases hit
  · exact (Option.some.inj hit).symm

lemma constructorTarget?_eq_none {t : TypeDef} (h : t.gets .factory = false) :
    t.constructorTarget? = none := by
  unfold constructorTarget?
  split
  · rfl
  next proper =>
    simp only [gets, ← Bool.not_or, proper, Bool.not_false, Bool.true_and] at h
    rw [markedConstructor?, Option.map_eq_none_iff, List.find?_eq_none]
    intro c hc marked
    exact Bool.false_ne_true (h.symm.trans (List.any_eq_true.2 ⟨c, hc, marked⟩))

end TypeDef

/-- One factory: the type that the target names is extended, and nothing else changes. -/
lemma addFactory_eq {m m' : Module} {t : TypeDef} {before after : List TypeDef}
    {target : ConstructorTarget} {id : Uuid} (types : m.types = before ++ t :: after)
    (names : ∀ s ∈ before, s.name ≠ t.name) (ctors : (t.constructors.map (·.id)).Nodup)
    (gets : t.gets .factory = true) (hit : t.constructorTarget? = some target)
    (ok : m.addFactory target id = .ok m') :
    m' = { m with types := before ++ t.extended .factory id :: after } := by
  -- the target is about the first marked constructor, which is found again under its identifier
  obtain ⟨c, marked, target?⟩ := TypeDef.markedConstructor?_of_gets gets
  obtain rfl : target = ⟨t.name, c.id⟩ := Option.some.inj (hit.symm.trans target?)
  have hnames : ∀ s ∈ before, (s.name == t.name) = false := fun s hs =>
    beq_false_of_ne (names s hs)
  have named : m.typeNamed? t.name = some t := by
    rw [Module.typeNamed?, types]
    exact find?_append_cons hnames (beq_self_eq_true _)
  have found : t.constructor? c.id = some c := find?_key_of_find? Method.id ctors marked
  have exposed : t.exposeConstructor c.id = { t with constructors := t.constructorsExposed } := by
    rw [TypeDef.exposeConstructor]
    congr 1
    exact updateFirst_key_of_find? Method.id _ ctors marked
  rw [Module.addFactory] at ok
  simp only [named] at ok
  split at ok
  · cases ok
  · simp only [found] at ok
    injection ok with ok
    rw [← ok, Module.updateType, types, updateFirst_append_cons _ hnames (beq_self_eq_true _),
      exposed]
    simp only [TypeDef.extended, TypeDef.synthesized?, gets, marked, if_true, Option.map_some,
      TypeDef.documentedFactory_eq]

/-- The marked fields of a type, looked up by name and made public one after the other, if each of
them is the first of its name. -/
lemma exposeFields_eq {t : TypeDef} (before : List Field) {after : List Field}
    (fields : t.fields = before ++ after)
    (firsts : t.fields.Pairwise fun f g => f.name = g.name → g.isMarked = false) :
    t.exposeFields ((after.filter Field.isMarked).map (·.name))
      = ({ t with
            fields := before
              ++ after.map fun f => if f.isMarked then f.withVisibility .everywhere else f },
          .ok (after.filter Field.isMarked)) := by
  -- the fields before the split are as they end up, those after it are still to come
  induction after generalizing t before with
  | nil => simp [TypeDef.exposeFields, ← fields]
  | cons f rest ih =>
    cases marked : f.isMarked with
    | false =>
      have later := ih (before ++ [f]) (by simpa using fields) firsts
      simpa [marked] using later
    | true =>
      rw [fields, List.pairwise_append] at firsts
      have hnames : ∀ g ∈ before, (g.name == f.name) = false := fun g hg =>
        beq_false_of_ne fun same => by
          rw [firsts.2.2 g hg f List.mem_cons_self same] at marked
          cases marked
      have found : t.field? f.name = some f := by
        rw [TypeDef.field?, fields]
        exact find?_append_cons hnames (beq_self_eq_true _)
      have exposed : (t.exposeField f.name).fields
          = (before ++ [f.withVisibility .everywhere]) ++ rest := by
        rw [TypeDef.exposeField, fields, updateFirst_append_cons _ hnames (beq_self_eq_true _)]
        simp
      -- the type has changed, so the rest is about the type with the first field public
      have later := ih _ exposed (by
        rw [exposed, List.append_assoc, List.pairwise_append]
        simpa [Field.withVisibility, Field.isMarked] using firsts)
      rw [List.filter_cons_of_pos marked, List.map_cons, TypeDef.exposeFields]
      simp only [found, later]
      simp [marked, TypeDef.exposeField, Except.map]

/-- Fields with names of their own are the first of their names. -/
lemma firsts_of_nodup {fields : List Field} (names : (fields.map (·.name)).Nodup) :
    fields.Pairwise fun f g => f.name = g.name → g.isMarked = false :=
  (List.pairwise_map.1 names).imp fun apart same => absurd same apart

/-- One injector: the type that the target names is extended, and nothing else changes. -/
lemma addInjector_eq {m m' : Module} {t : TypeDef} {before after : List TypeDef}
    {target : FieldTarget} {id : Uuid} (types : m.types = before ++ t :: after)
    (names : ∀ s ∈ before, s.name ≠ t.name) (fields : (t.fields.map (·.name)).Nodup)
    (gets : t.gets .injector = true) (hit : t.fieldTarget? = some target)
    (ok : m.addInjector target id = (m', .ok ())) :
    m' = { m with types := before ++ t.extended .injector id :: after } := by
  obtain rfl := TypeDef.eq_of_fieldTarget? hit
  have hnames : ∀ s ∈ before, (s.name == t.name) = false := fun s hs =>
    beq_false_of_ne (names s hs)
  have named : m.typeNamed? t.name = some t := by
    rw [Module.typeNamed?, types]
    exact find?_append_cons hnames (beq_self_eq_true _)
  have exposed : t.exposeFields (t.markedFields.map (·.name))
      = ({ t with fields := t.fieldsExposed }, .ok t.markedFields) :=
    exposeFields_eq [] rfl (firsts_of_nodup fields)
  rw [Module.addInjector] at ok
  simp only [named] at ok
  split at ok
  · simp at ok
  · simp only [exposed, Prod.mk.injEq, and_true] at ok
    rw [← ok, Module.updateType, types, updateFirst_append_cons _ hnames (beq_self_eq_true _)]
    simp only [TypeDef.extended, TypeDef.synthesized?, gets, if_true, TypeDef.documentedInjector_eq]

/-! ## All targets of a kind -/

lemma namesThatGet_cons_pos {kind : EntryKind} {t : TypeDef} (gets : t.gets kind = true)
    (rest : List TypeDef) :
    namesThatGet kind (t :: rest) = t.name :: namesThatGet kind rest := by
  simp [namesThatGet, gets]

lemma namesThatGet_cons_neg {kind : EntryKind} {t : TypeDef} (gets : t.gets kind = false)
    (rest : List TypeDef) : namesThatGet kind (t :: rest) = namesThatGet kind rest := by
  simp [namesThatGet, gets]

namespace Draft

/-- The draft with other types and with more methods of a kind added, for which the identifiers were
drawn. -/
def withAdded (d : Draft) (kind : EntryKind) (types : List TypeDef) (added : List Synthesized) :
    Draft :=
  match kind with
  | .factory =>
    { d with
      module := { d.module with types }
      supply := d.supply.skip added.length
      factories := d.factories ++ added }
  | .injector =>
    { d with
      module := { d.module with types }
      supply := d.supply.skip added.length
      injectors := d.injectors ++ added }

/-- What one edit for a target of a kind does to a draft whose type it is about. -/
def Extends {τ : Type} (edit : Draft → τ → Except WeaveError Draft) (target? : TypeDef → Option τ)
    (kind : EntryKind) (t : TypeDef) : Prop :=
  ∀ (d d' : Draft) (before after : List TypeDef) (target : τ),
    d.module.types = before ++ t :: after → (∀ s ∈ before, s.name ≠ t.name) →
    target? t = some target → edit d target = .ok d' →
    d' = d.withAdded kind (before ++ t.extended kind d.supply.draw.1 :: after)
      [⟨t.name, d.supply.draw.1⟩]

/-- The edits for all targets of a kind extend every type on its own, the `n`-th of them with the
`n`-th identifier drawn. -/
lemma foldlM_edit {τ : Type} {edit : Draft → τ → Except WeaveError Draft}
    {target? : TypeDef → Option τ} {kind : EntryKind} {id : String → Uuid} {d d' : Draft}
    (before : List TypeDef) {types : List TypeDef}
    (step : ∀ t ∈ types, t.gets kind = true → Extends edit target? kind t)
    (hit : ∀ t, (target? t).isSome = t.gets kind)
    (names : ((before ++ types).map (·.name)).Nodup) (start : d.module.types = before ++ types)
    (drawn : (namesThatGet kind types).map id = d.supply.next (namesThatGet kind types).length)
    (ok : (types.filterMap target?).foldlM edit d = .ok d') :
    d' = d.withAdded kind (before ++ types.map fun t => t.extended kind (id t.name))
      ((namesThatGet kind types).map fun ty => ⟨ty, id ty⟩) := by
  -- the types before the split have been extended, those after it are as in the module
  induction types generalizing d before with
  | nil =>
    simp only [List.filterMap_nil, List.foldlM_nil] at ok
    injection ok with ok
    cases kind <;> simp [withAdded, namesThatGet, ← start, ← ok, IdSupply.skip]
  | cons t rest ih =>
    have hstep : ∀ s ∈ rest, s.gets kind = true → Extends edit target? kind s := fun s hs =>
      step s (List.mem_cons_of_mem _ hs)
    cases gets : t.gets kind with
    | false =>
      have missed : target? t = none :=
        Option.isNone_iff_eq_none.1 (by simp [← Option.not_isSome, hit, gets])
      rw [List.filterMap_cons_none missed] at ok
      rw [namesThatGet_cons_neg gets] at drawn ⊢
      have later := ih (before ++ [t]) hstep (by simpa using names)
        (by simpa using start) drawn ok
      rw [later, List.map_cons, TypeDef.extended_eq_self gets]
      simp
    | true =>
      obtain ⟨target, found⟩ := Option.isSome_iff_exists.1 ((hit t).trans gets)
      rw [List.filterMap_cons_some found, List.foldlM_cons] at ok
      obtain ⟨d₁, ok₁, ok⟩ := exists_of_bind_eq_ok ok
      -- names are distinct, so the edit looks up the type it is for
      have before_ne : ∀ s ∈ before, s.name ≠ t.name := fun s hs => by
        rw [List.map_append, List.map_cons, List.nodup_append] at names
        exact names.2.2 _ (List.mem_map_of_mem hs) _ List.mem_cons_self
      have first := step t List.mem_cons_self gets d d₁ before rest target start before_ne found ok₁
      rw [namesThatGet_cons_pos gets, List.map_cons, List.length_cons, IdSupply.next] at drawn
      injection drawn with head drawn
      rw [← head] at first
      have later := ih (before ++ [t.extended kind (id t.name)]) hstep
        (by simpa [TypeDef.extended_name] using names)
        (by rw [first]; cases kind <;> simp [withAdded])
        (by rw [first, drawn]; cases kind <;> rfl) ok
      rw [later, first, namesThatGet_cons_pos gets]
      cases kind <;>
        simp [withAdded, IdSupply.skip, Nat.add_assoc, Nat.add_comm 1]

lemma extends_addFactory {t : TypeDef} (gets : t.gets .factory = true)
    (ctors : (t.constructors.map (·.id)).Nodup) :
    Extends addFactory TypeDef.constructorTarget? .factory t := by
  intro d d' before after target types names hit ok
  obtain ⟨m, added, ok⟩ := exists_of_bind_eq_ok ok
  injection ok with ok
  rw [← ok, addFactory_eq types names ctors gets hit added, TypeDef.ty_of_constructorTarget? hit]
  rfl

lemma extends_addInjector {t : TypeDef} (gets : t.gets .injector = true)
    (fields : (t.fields.map (·.name)).Nodup) :
    Extends addInjector TypeDef.fieldTarget? .injector t := by
  intro d d' before after target types names hit ok
  unfold addInjector at ok
  cases added : d.module.addInjector target d.supply.draw.1 with
  | mk m outcome =>
    simp only [added] at ok
    obtain ⟨⟨⟩, rfl, ok⟩ := exists_of_bind_eq_ok ok
    injection ok with ok
    rw [← ok, addInjector_eq types names fields gets hit added, TypeDef.eq_of_fieldTarget? hit]
    rfl

end Draft

/-! ## The whole weave -/

namespace TypeDef

lemma isSome_constructorTarget? (t : TypeDef) :
    t.constructorTarget?.isSome = t.gets .factory := by
  cases gets : t.gets .factory with
  | false => rw [constructorTarget?_eq_none gets]; rfl
  | true =>
    obtain ⟨c, -, target⟩ := markedConstructor?_of_gets gets
    rw [target]; rfl

lemma isSome_fieldTarget? (t : TypeDef) : t.fieldTarget?.isSome = t.gets .injector := by
  unfold fieldTarget? gets markedFields
  cases t.isInterface with
  | true => rfl
  | false =>
    cases marked : t.fields.any Field.isMarked with
    | false =>
      have none : t.fields.filter Field.isMarked = [] :=
        List.filter_eq_nil_iff.2 fun f hf => by simpa using List.any_eq_false.1 marked f hf
      simp [none]
    | true =>
      obtain ⟨f, hf, marked⟩ := List.any_eq_true.1 marked
      have some : (t.fields.filter Field.isMarked).isEmpty = false :=
        List.isEmpty_eq_false_iff.2 (List.ne_nil_of_mem (List.mem_filter.2 ⟨hf, marked⟩))
      simp [some]

lemma constructorsExposed_eq_self {t : TypeDef} (proper : t.isInterface = false)
    (concrete : t.isAbstract = false) (gets : t.gets .factory = false) :
    t.constructorsExposed = t.constructors := by
  simp only [TypeDef.gets, proper, concrete, Bool.not_false, Bool.true_and] at gets
  exact updateFirst_eq_self _ fun c hc => by simpa using List.any_eq_false.1 gets c hc

lemma fieldsExposed_eq_self {t : TypeDef} (proper : t.isInterface = false)
    (gets : t.gets .injector = false) : t.fieldsExposed = t.fields := by
  simp only [TypeDef.gets, proper, Bool.not_false, Bool.true_and] at gets
  have unmarked : ∀ f ∈ t.fields, f.isMarked = false := fun f hf => by
    simpa using List.any_eq_false.1 gets f hf
  rw [fieldsExposed, List.map_congr_left fun f hf => if_neg (by simp [unmarked f hf]),
    List.map_id']

lemma extended_factory {t : TypeDef} (proper : t.isInterface = false) (id : Uuid) :
    t.extended .factory id = { t with
      visibility := if t.gets .factory then .everywhere else t.visibility
      constructors := if t.isAbstract then t.constructors else t.constructorsExposed
      methods := t.methods ++ (t.synthesized? .factory id).toList } := by
  cases gets : t.gets .factory with
  | false =>
    have same : (if t.isAbstract then t.constructors else t.constructorsExposed)
        = t.constructors := by
      split
      · rfl
      next concrete => exact constructorsExposed_eq_self proper (by simpa using concrete) gets
    rw [extended_eq_self gets, synthesized?_eq_none gets, same]
    simp
  | true =>
    have concrete : t.isAbstract = false := by
      simp only [TypeDef.gets, Bool.and_eq_true, Bool.not_eq_true'] at gets
      exact gets.1.2
    obtain ⟨c, marked, -⟩ := markedConstructor?_of_gets gets
    simp [extended, synthesized?, gets, marked, concrete, addSynthesized, withVisibility, addMethod]

lemma extended_injector {t : TypeDef} (proper : t.isInterface = false) (id : Uuid) :
    t.extended .injector id = { t with
      visibility := if t.gets .injector then .everywhere else t.visibility
      fields := t.fieldsExposed
      methods := t.methods ++ (t.synthesized? .injector id).toList } := by
  cases gets : t.gets .injector with
  | false =>
    rw [extended_eq_self gets, synthesized?_eq_none gets, fieldsExposed_eq_self proper gets]
    simp
  | true => simp [extended, synthesized?, gets, addSynthesized, withVisibility, addMethod]

lemma rewoven_of_class {t : TypeDef} (proper : t.isInterface = false)
    (factoryId injectorId : Uuid) :
    t.rewoven factoryId injectorId = { t with
      visibility := if t.gets .factory || t.gets .injector then .everywhere else t.visibility
      fields := t.fieldsExposed
      constructors := if t.isAbstract then t.constructors else t.constructorsExposed
      methods := t.methods ++ (t.synthesized? .factory factoryId).toList
        ++ (t.synthesized? .injector injectorId).toList } :=
  if_neg (by simp [proper])

/-- Both extensions together are the rewrite of the type. -/
lemma extended_extended (t : TypeDef) (factoryId injectorId : Uuid) :
    (t.extended .factory factoryId).extended .injector injectorId
      = t.rewoven factoryId injectorId := by
  cases proper : t.isInterface with
  | true =>
    have none : ∀ kind, t.gets kind = false := fun kind => by cases kind <;> simp [gets, proper]
    rw [extended_eq_self (none .factory), extended_eq_self (none .injector), rewoven, if_pos proper]
  | false =>
    have proper' : (t.extended .factory factoryId).isInterface = false := by
      rw [extended_factory proper]; exact proper
    -- each extension widens the visibility on its own account
    have visibility : ∀ a b : Bool,
        (if b then .everywhere else if a then .everywhere else t.visibility)
          = if a || b then .everywhere else t.visibility := by
      intro a b
      cases a <;> cases b <;> rfl
    rw [rewoven_of_class proper, extended_injector proper', extended_factory proper,
      ← visibility (t.gets .factory)]
    rfl

/-- A factory leaves all that decides about an injector as it was. -/
lemma extended_factory_eq (t : TypeDef) (id : Uuid) :
    ∃ v cs ms, t.extended .factory id
      = { t with visibility := v, constructors := cs, methods := ms } := by
  unfold extended
  cases t.synthesized? .factory id with
  | none => exact ⟨_, _, _, rfl⟩
  | some m => exact ⟨_, _, _, rfl⟩

lemma fieldTarget?_extended_factory (t : TypeDef) (id : Uuid) :
    (t.extended .factory id).fieldTarget? = t.fieldTarget? := by
  obtain ⟨v, cs, ms, h⟩ := t.extended_factory_eq id
  rw [h]; rfl

lemma gets_injector_extended_factory (t : TypeDef) (id : Uuid) :
    (t.extended .factory id).gets .injector = t.gets .injector := by
  rw [← isSome_fieldTarget?, ← isSome_fieldTarget?, fieldTarget?_extended_factory]

lemma fields_extended_factory (t : TypeDef) (id : Uuid) :
    (t.extended .factory id).fields = t.fields := by
  obtain ⟨v, cs, ms, h⟩ := t.extended_factory_eq id
  rw [h]

end TypeDef

lemma namesThatGet_injector_extended_factory (types : List TypeDef) (id : String → Uuid) :
    namesThatGet .injector (types.map fun t => t.extended .factory (id t.name))
      = namesThatGet .injector types := by
  simp only [namesThatGet, List.filter_map, List.map_map, Function.comp_def,
    TypeDef.gets_injector_extended_factory, TypeDef.extended_name]

/-- A registrar's name that no type has does not keep any type from being a target. -/
lemma targets_eq {m : Module} {registrar : String} (absent : m.typeNamed? registrar = none) :
    m.targets registrar = ⟨m.types.filterMap TypeDef.constructorTarget?,
      m.types.filterMap TypeDef.fieldTarget?⟩ := by
  have all : m.types.filter (·.name != registrar) = m.types :=
    List.filter_eq_self.2 fun t ht => by simpa using List.find?_eq_none.1 absent t ht
  rw [Module.targets, all]

namespace WeaveIds

/-- The identifiers drawn for a weave, part by part. -/
lemma parts_of_inOrder {ids : WeaveIds} {m : Module} {supply : IdSupply}
    (drawn : ids.inOrder m = supply.next m.idsNeeded) :
    (m.targetNames .factory).map (ids.entry .factory)
        = supply.next (m.targetNames .factory).length
      ∧ (m.targetNames .injector).map (ids.entry .injector)
        = (supply.skip (m.targetNames .factory).length).next (m.targetNames .injector).length
      ∧ [ids.registrar, ids.bake] = (supply.skip ((m.targetNames .factory).length
        + (m.targetNames .injector).length)).next 2 := by
  rw [inOrder, Module.idsNeeded, IdSupply.next_add, IdSupply.next_add] at drawn
  obtain ⟨methods, last⟩ := List.append_inj drawn (by simp [IdSupply.length_next])
  obtain ⟨factories, injectors⟩ := List.append_inj methods (by simp [IdSupply.length_next])
  exact ⟨factories, injectors, last⟩

end WeaveIds

/-- The edits for all factories, then for all injectors, rewrite every type on its own. -/
lemma foldlM_targets_eq {m : Module} {supply : IdSupply} {ids : WeaveIds} {d₁ d₂ : Draft}
    (names : m.Unambiguous) (drawn : ids.inOrder m = supply.next m.idsNeeded)
    (ok₁ : (m.types.filterMap TypeDef.constructorTarget?).foldlM Draft.addFactory
      { module := m, supply } = .ok d₁)
    (ok₂ : (m.types.filterMap TypeDef.fieldTarget?).foldlM Draft.addInjector d₁ = .ok d₂) :
    d₂ = {
      module := { m with
        types := m.types.map
          fun t => t.rewoven (ids.entry .factory t.name) (ids.entry .injector t.name) }
      supply := supply.skip
        ((m.targetNames .factory).length + (m.targetNames .injector).length)
      factories := ids.entries m .factory
      injectors := ids.entries m .injector } := by
  obtain ⟨factories, injectors, -⟩ := WeaveIds.parts_of_inOrder drawn
  have first := Draft.foldlM_edit []
    (fun t ht gets => Draft.extends_addFactory gets (names.constructors t ht))
    TypeDef.isSome_constructorTarget? names.types rfl factories ok₁
  have types₁ : d₁.module.types
      = m.types.map fun t => t.extended .factory (ids.entry .factory t.name) := by
    rw [first]; rfl
  -- the injectors are added to extended types, but their targets were found in the types before
  have targets₂ : m.types.filterMap TypeDef.fieldTarget?
      = d₁.module.types.filterMap TypeDef.fieldTarget? := by
    simp [types₁, List.filterMap_map, TypeDef.fieldTarget?_extended_factory]
  have names₂ : namesThatGet .injector d₁.module.types = m.targetNames .injector := by
    rw [types₁, namesThatGet_injector_extended_factory]; rfl
  have distinct₂ : (d₁.module.types.map (·.name)).Nodup := by
    simpa [types₁, Function.comp_def, TypeDef.extended_name] using names.types
  have step₂ : ∀ t ∈ d₁.module.types, t.gets .injector = true →
      Draft.Extends Draft.addInjector TypeDef.fieldTarget? .injector t := by
    intro t ht gets
    rw [types₁] at ht
    obtain ⟨s, hs, rfl⟩ := List.mem_map.1 ht
    exact Draft.extends_addInjector gets (by
      rw [TypeDef.fields_extended_factory]
      exact names.fields s hs)
  have supply₂ : (namesThatGet .injector d₁.module.types).map (ids.entry .injector)
      = d₁.supply.next (namesThatGet .injector d₁.module.types).length := by
    rw [names₂, injectors, first]
    simp [Draft.withAdded, Module.targetNames]
  rw [targets₂] at ok₂
  have second := Draft.foldlM_edit [] step₂ TypeDef.isSome_fieldTarget? distinct₂ rfl
    supply₂ ok₂
  rw [second, names₂, types₁, first]
  simp [Draft.withAdded, IdSupply.skip, Nat.add_assoc, TypeDef.extended_name,
    TypeDef.extended_extended, Function.comp_def, WeaveIds.entries, Module.targetNames]

/-- All edits of a weave together. -/
lemma addAll_eq {m : Module} {supply : IdSupply} {ids : WeaveIds} {registrar : String}
    {editorOnly : Bool} {d : Draft} (names : m.Unambiguous)
    (absent : m.typeNamed? registrar = none) (drawn : ids.inOrder m = supply.next m.idsNeeded)
    (ok : Draft.addAll { module := m, supply } (m.targets registrar) registrar editorOnly = .ok d) :
    d = {
      module := { m with
        types := m.types.map
            (fun t => t.rewoven (ids.entry .factory t.name) (ids.entry .injector t.name))
          ++ [registrarType ids.registrar registrar
            (bakeMethod ids.bake (ids.entries m .factory) (ids.entries m .injector) editorOnly)] }
      supply := supply.skip m.idsNeeded
      factories := ids.entries m .factory
      injectors := ids.entries m .injector } := by
  rw [targets_eq absent] at ok
  obtain ⟨d₁, ok₁, ok⟩ := exists_of_bind_eq_ok ok
  obtain ⟨d₂, ok₂, ok⟩ := exists_of_bind_eq_ok ok
  obtain ⟨m₃, ok₃, ok⟩ := exists_of_bind_eq_ok ok
  obtain ⟨-, -, last⟩ := WeaveIds.parts_of_inOrder drawn
  simp only [IdSupply.next, List.cons.injEq, and_true] at last
  rw [foldlM_targets_eq names drawn ok₁ ok₂] at ok₃ ok
  rw [Module.addRegistrar] at ok₃
  split at ok₃
  · cases ok₃
  injection ok₃ with ok₃
  injection ok with ok
  rw [← ok, ← ok₃, last.1, last.2]
  rfl

/-! ## The identifiers of a weave -/

/-- Values for distinct names, as a function of the name. -/
lemma exists_map_eq {names : List String} (distinct : names.Nodup) {ids : List Uuid}
    (length : ids.length = names.length) : ∃ id : String → Uuid, names.map id = ids := by
  refine ⟨fun n => ids.getD (names.idxOf n) default, List.ext_getElem (by simp [length]) ?_⟩
  intro i hi hi'
  rw [List.getElem_map, List.Nodup.idxOf_getElem distinct, List.getD_eq_getElem?_getD,
    List.getElem?_eq_getElem hi', Option.getD_some]

lemma nodup_targetNames {m : Module} (names : (m.types.map (·.name)).Nodup) (kind : EntryKind) :
    (m.targetNames kind).Nodup :=
  names.sublist (List.filter_sublist.map _)

/-- The identifiers that a weave of the module draws, part by part. -/
lemma exists_weaveIds_of_nodup {m : Module} (distinct : ∀ kind, (m.targetNames kind).Nodup)
    (supply : IdSupply) : ∃ ids : WeaveIds, ids.inOrder m = supply.next m.idsNeeded := by
  let a := (m.targetNames .factory).length
  let b := (m.targetNames .injector).length
  obtain ⟨factory, factories⟩ := exists_map_eq (distinct .factory) (supply.length_next a)
  obtain ⟨injector, injectors⟩ := exists_map_eq (distinct .injector)
    ((supply.skip a).length_next b)
  let rest := supply.skip (a + b)
  refine ⟨⟨fun | .factory => factory | .injector => injector, rest.draw.1, rest.draw.2.draw.1⟩, ?_⟩
  rw [WeaveIds.inOrder, Module.idsNeeded, IdSupply.next_add, IdSupply.next_add]
  simp only [factories, injectors]
  rfl

lemma exists_weaveIds {m : Module} (names : (m.types.map (·.name)).Nodup) (supply : IdSupply) :
    ∃ ids : WeaveIds, ids.inOrder m = supply.next m.idsNeeded :=
  exists_weaveIds_of_nodup (nodup_targetNames names) supply

/-! ## Main statement -/

/-- A module that gets woven did not have its registrar before. -/
lemma typeNamed?_registrar_of_weave {m m' : Module} {options : WeaveOptions}
    {supply supply' : IdSupply} {report : WeaveReport}
    (woven : m.weave options supply = .ok (.woven report, m', supply')) :
    m.typeNamed? (registrarName m.name options.registrarName) = none := by
  rw [Module.weave] at woven
  split at woven
  · cases woven
  next fresh =>
    rw [Module.isWoven, Bool.or_eq_true, not_or] at fresh
    simpa using fresh.2

/-- A weave under the identifiers that it draws. -/
lemma eq_rewoven_of_weave {m m' : Module} {options : WeaveOptions} {supply supply' : IdSupply}
    {report : WeaveReport} {ids : WeaveIds} (names : m.Unambiguous)
    (drawn : ids.inOrder m = supply.next m.idsNeeded)
    (woven : m.weave options supply = .ok (.woven report, m', supply')) :
    m' = m.rewoven options ids ∧ supply' = supply.skip m.idsNeeded ∧
      report =
        { module := m.name
          registrar := registrarName m.name options.registrarName
          factories := m.targetNames .factory
          injectors := m.targetNames .injector } := by
  have absent := typeNamed?_registrar_of_weave woven
  rw [Module.weave] at woven
  split at woven
  · cases woven
  dsimp only at woven
  split at woven
  · cases woven
  obtain ⟨d, ok, woven⟩ := exists_of_bind_eq_ok woven
  rw [addAll_eq names absent drawn ok] at woven
  injection woven with woven
  simp only [Prod.mk.injEq, WeaveOutcome.woven.injEq] at woven
  obtain ⟨rfl, rfl, rfl⟩ := woven
  simp [Module.rewoven, Module.registrar_eq, WeaveIds.entries, Function.comp_def]

/-- A weave changes exactly what it documents: with the identifiers drawn in order, the module after
it is the rewrite of the module before it, and the report names the types that got a method. -/
theorem exists_rewoven_of_weave {m m' : Module} {options : WeaveOptions}
    {supply supply' : IdSupply} {report : WeaveReport} (names : m.Unambiguous)
    (woven : m.weave options supply = .ok (.woven report, m', supply')) :
    ∃ ids : WeaveIds, ids.inOrder m = supply.next m.idsNeeded ∧ m' = m.rewoven options ids ∧
      supply' = supply.skip m.idsNeeded ∧
      report =
        { module := m.name
          registrar := registrarName m.name options.registrarName
          factories := m.targetNames .factory
          injectors := m.targetNames .injector } := by
  obtain ⟨ids, drawn⟩ := exists_weaveIds names.types supply
  exact ⟨ids, drawn, eq_rewoven_of_weave names drawn woven⟩

/-! ### An example -/

/-- A module with an interface, a class with a marked constructor and a class with a marked field as
well, all of whose members are private. -/
def lamp : Module :=
  { name := "Lamp"
    references := [supportModule]
    types :=
      [TypeDef.newInterface (Uuid.numbered 1) "Lamp.Light",
        { TypeDef.newClass (Uuid.numbered 2) "Lamp.Bulb" with
          interfaces := ["Lamp.Light"]
          constructors := [((Method.newConstructor (Uuid.numbered 3)).mark .inject).addInstr .ret] },
        { TypeDef.newClass (Uuid.numbered 4) "Lamp.Desk" with
          fields :=
            [Field.injected (Uuid.numbered 5) "bulb" "Lamp.Light",
              { id := Uuid.numbered 6, name := "spare", ty := "Lamp.Light" }]
          constructors :=
            [(Method.assigning (Uuid.numbered 7) "Lamp.Desk" [⟨"spare", "Lamp.Light"⟩]).mark .inject]
          methods :=
            [(Method.newStatic (Uuid.numbered 8) "Show").withBody
              [.loadConst .null, .newObject "Lamp.Desk" (Uuid.numbered 7), .print, .ret]] }] }

/-- Identifiers that the module does not use. -/
def lampIds : IdSupply := { ids := fun n => Uuid.numbered (n + 100), drawn := 0 }

lemma lamp_unambiguous : lamp.Unambiguous :=
  ⟨by decide, by decide, by decide⟩

theorem lamp_rewoven :
    lamp.Unambiguous ∧ ∃ report m' supply',
      lamp.weave {} lampIds = .ok (.woven report, m', supply') ∧
      ∃ ids : WeaveIds, ids.inOrder lamp = lampIds.next lamp.idsNeeded ∧
        m' = lamp.rewoven {} ids ∧ supply' = lampIds.skip lamp.idsNeeded ∧
        report =
          { module := lamp.name
            registrar := registrarName lamp.name ({} : WeaveOptions).registrarName
            factories := lamp.targetNames .factory
            injectors := lamp.targetNames .injector } :=
  ⟨lamp_unambiguous, _, _, _, rfl, exists_rewoven_of_weave lamp_unambiguous rfl⟩

end Weaver
