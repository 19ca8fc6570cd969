import Weaver.Proofs.Weave.Members

/-!
# What a weave adds

The loader and the registrar look at little of a woven module: at the names of its types, at the
methods that were added to them, and at the registrar type. That much can be told of every module
whose types have names of their own, even if fields share a name or constructors an identifier.

Three things live here:

* `Method.Fits`, what a synthesized method has to be like for the registry to take it;
* `TypeDef.Gains` and `Module.Gains`, what one edit does to a type and to a module;
* `exists_served_of_weave`, by which a weave serves every type on its own and appends the registrar.
-/

namespace Weaver

/-! ## Methods that fit -/

/-- The number of parameters that methods of a kind have. -/
def EntryKind.paramCount : EntryKind → ℕ
  | .factory => 1
  | .injector => 2

/-- A synthesized method that the registry takes as an entry of a kind. -/
structure Method.Fits (x : Method) (kind : EntryKind) : Prop where
  visibility : x.visibility = .everywhere
  isStatic : x.isStatic = true
  params : x.params.length = kind.paramCount
  markers : x.markers = [generatedMarker]

lemma fits_factoryMethod (id : Uuid) (ty : String) (ctor : Method) :
    (factoryMethod id ty ctor).Fits .factory :=
  ⟨rfl, rfl, rfl, rfl⟩

lemma fits_injectorMethod (id : Uuid) (ty : String) (fields : List Field) :
    (injectorMethod id ty fields).Fits .injector :=
  ⟨rfl, rfl, rfl, rfl⟩

/-! ## One edit -/

/-- The second type is the first one with a method of a kind behind its own, and public. -/
structure TypeDef.Gains (kind : EntryKind) (id : Uuid) (t t' : TypeDef) : Prop where
  name : t'.name = t.name
  visibility : t'.visibility = .everywhere
  methods : ∃ x : Method, x.id = id ∧ x.Fits kind ∧ t'.methods = t.methods ++ [x]

/-- The second module is the first one with the types of some names each changed on its own: they
gain a method of a kind, and the other types stay. -/
def Module.Gains (kind : EntryKind) (id : String → Uuid) (names : List String) (m m' : Module) :
    Prop :=
  ∃ grow : TypeDef → TypeDef, m' = { m with types := m.types.map grow } ∧
    ∀ t ∈ m.types, if t.name ∈ names then t.Gains kind (id t.name) (grow t) else grow t = t

/-- The first element with a key is the only one if keys are distinct. -/
lemma updateFirst_eq_map {α κ : Type} [DecidableEq κ] (key : α → κ) (k : κ) (f : α → α) {l : List α}
    (keys : (l.map key).Nodup) :
    updateFirst (key · == k) f l = l.map fun a => if key a = k then f a else a := by
  induction l with
  | nil => rfl
  | cons a rest ih =>
    rw [List.map_cons, List.nodup_cons] at keys
    by_cases own : key a = k
    · -- no later element has the key, so the rest stays
      have others : ∀ b ∈ rest, (if key b = k then f b else b) = b := fun b hb =>
        if_neg fun same => keys.1 (by rw [own, ← same]; exact List.mem_map_of_mem hb)
      rw [updateFirst, if_pos (by simp [own]), List.map_cons, if_pos own,
        List.map_congr_left others, List.map_id']
    · rw [updateFirst, if_neg (by simp [own]), List.map_cons, if_neg own, ih keys.2]

/-- A change of the type of a name is an edit if the type gains a method by it. -/
lemma Module.gains_updateType {m : Module} {kind : EntryKind} {ty : String} {id : Uuid}
    {f : TypeDef → TypeDef} (names : (m.types.map (·.name)).Nodup)
    (gains : ∀ t ∈ m.types, t.name = ty → t.Gains kind id (f t)) :
    m.Gains kind (fun _ => id) [ty] (m.updateType ty f) := by
  refine ⟨fun t => if t.name = ty then f t else t, ?_, fun t ht => ?_⟩
  · rw [updateType, updateFirst_eq_map TypeDef.name ty f names]
  · by_cases own : t.name = ty
    · rw [if_pos (by simp [own])]
      simpa only [own, if_true] using gains t ht own
    · rw [if_neg (by simp [own])]
      exact if_neg own

lemma Module.gains_addFactory {m m' : Module} {target : ConstructorTarget} {id : Uuid}
    (names : (m.types.map (·.name)).Nodup) (ok : m.addFactory target id = .ok m') :
    m.Gains .factory (fun _ => id) [target.ty] m' := by
  unfold addFactory at ok
  split at ok
  · cases ok
  split at ok
  · cases ok
  split at ok
  · cases ok
  next ctor _ =>
    cases ok
    exact gains_updateType names fun t _ _ =>
      ⟨rfl, rfl, _, rfl, fits_factoryMethod id target.ty ctor, rfl⟩

/-- Making fields public changes nothing but the fields. -/
lemma TypeDef.exists_exposeFields (t : TypeDef) (names : List String) :
    ∃ fields, (t.exposeFields names).1 = { t with fields } := by
  induction names generalizing t with
  | nil => exact ⟨t.fields, rfl⟩
  | cons name rest ih =>
    unfold exposeFields
    cases t.field? name with
    | none => exact ⟨t.fields, rfl⟩
    | some f =>
      obtain ⟨fields, exposed⟩ := ih (t.exposeField name)
      exact ⟨fields, exposed⟩

lemma Module.gains_addInjector {m m' : Module} {target : FieldTarget} {id : Uuid}
    (names : (m.types.map (·.name)).Nodup) (ok : m.addInjector target id = (m', .ok ())) :
    m.Gains .injector (fun _ => id) [target.ty] m' := by
  unfold addInjector at ok
  split at ok
  · cases ok
  next t found =>
  split at ok
  · cases ok
  split at ok
  · cases ok
  next exposed fields step =>
    cases ok
    refine gains_updateType names fun s hs named => ?_
    -- the type that was looked up is the only one of its name
    obtain rfl : s = t := by
      have own := find?_key_of_mem TypeDef.name names hs
      rw [named] at own
      exact Option.some.inj (own.symm.trans found)
    obtain ⟨changed, same⟩ := s.exists_exposeFields target.fields
    rw [step] at same
    dsimp only at same
    rw [same]
    exact ⟨rfl, rfl, _, rfl, fits_injectorMethod id target.ty fields, rfl⟩

/-! ## All edits of a kind -/

lemma Module.Gains.names {kind : EntryKind} {id : String → Uuid} {names : List String}
    {m m' : Module} (gains : m.Gains kind id names m') :
    m'.types.map (·.name) = m.types.map (·.name) := by
  obtain ⟨grow, rfl, each⟩ := gains
  rw [List.map_map]
  refine List.map_congr_left fun t ht => ?_
  have own := each t ht
  split at own
  · exact own.name
  · exact congrArg TypeDef.name own

lemma Module.gains_nil (kind : EntryKind) (id : String → Uuid) (m : Module) :
    m.Gains kind id [] m := by
  refine ⟨fun t => t, by rw [List.map_id'], fun t _ => ?_⟩
  rw [if_neg (List.not_mem_nil)]

/-- An edit and then the edits for other names. -/
lemma Module.Gains.cons {kind : EntryKind} {id : String → Uuid} {ty : String}
    {rest : List String} {m₁ m₂ m₃ : Module} (first : m₁.Gains kind (fun _ => id ty) [ty] m₂)
    (later : m₂.Gains kind id rest m₃) (other : ty ∉ rest) : m₁.Gains kind id (ty :: rest) m₃ := by
  obtain ⟨grow₁, rfl, each₁⟩ := first
  obtain ⟨grow₂, rfl, each₂⟩ := later
  refine ⟨fun t => grow₂ (grow₁ t), by simp [Function.comp_def], fun t ht => ?_⟩
  have own₁ := each₁ t ht
  have own₂ := each₂ (grow₁ t) (List.mem_map_of_mem ht)
  by_cases own : t.name = ty
  · -- the type of the first name is left alone by the later edits
    rw [if_pos (by simp [own])] at own₁
    rw [own₁.name, own, if_neg other] at own₂
    rw [if_pos (by simp [own])]
    simpa only [own₂, own] using own₁
  · rw [if_neg (by simp [own])] at own₁
    rw [own₁] at own₂
    simpa only [List.mem_cons, own, false_or, own₁] using own₂

namespace Draft

/-- What one edit for a target of a kind does to a draft. -/
def Edits {τ : Type} (edit : Draft → τ → Except WeaveError Draft) (ty : τ → String)
    (kind : EntryKind) : Prop :=
  ∀ (d d' : Draft) (target : τ), (d.module.types.map (·.name)).Nodup → edit d target = .ok d' →
    d.module.Gains kind (fun _ => d.supply.draw.1) [ty target] d'.module ∧
      d' = d.withAdded kind d'.module.types [⟨ty target, d.supply.draw.1⟩]

lemma edits_addFactory : Edits addFactory ConstructorTarget.ty .factory := by
  intro d d' target names ok
  obtain ⟨m, added, ok⟩ := exists_of_bind_eq_ok ok
  injection ok with ok
  have gains := Module.gains_addFactory names added
  obtain ⟨grow, rfl, -⟩ := id gains
  rw [← ok]
  exact ⟨gains, rfl⟩

lemma edits_addInjector : Edits addInjector FieldTarget.ty .injector := by
  intro d d' target names ok
  unfold addInjector at ok
  cases added : d.module.addInjector target d.supply.draw.1 with
  | mk m outcome =>
    simp only [added] at ok
    obtain ⟨⟨⟩, rfl, ok⟩ := exists_of_bind_eq_ok ok
    injection ok with ok
    have gains := Module.gains_addInjector names added
    obtain ⟨grow, rfl, -⟩ := id gains
    rw [← ok]
    exact ⟨gains, rfl⟩

/-- The edits for targets of a kind, the `n`-th of them with the `n`-th identifier drawn. -/
lemma gains_of_foldlM {τ : Type} {edit : Draft → τ → Except WeaveError Draft} {ty : τ → String}
    {kind : EntryKind} (edits : Edits edit ty kind) {id : String → Uuid} {targets : List τ}
    {d d' : Draft} (names : (d.module.types.map (·.name)).Nodup)
    (distinct : (targets.map ty).Nodup)
    (drawn : (targets.map ty).map id = d.supply.next targets.length)
    (ok : targets.foldlM edit d = .ok d') :
    d.module.Gains kind id (targets.map ty) d'.module ∧
      d' = d.withAdded kind d'.module.types ((targets.map ty).map fun n => ⟨n, id n⟩) := by
  induction targets generalizing d with
  | nil =>
    rw [List.foldlM_nil] at ok
    injection ok with ok
    subst ok
    exact ⟨Module.gains_nil kind id d.module, by cases kind <;> simp [withAdded, IdSupply.skip]⟩
  | cons target rest ih =>
    rw [List.foldlM_cons] at ok
    obtain ⟨d₁, first, ok⟩ := exists_of_bind_eq_ok ok
    obtain ⟨gains, added⟩ := edits d d₁ target names first
    rw [List.map_cons, List.map_cons, List.length_cons, IdSupply.next] at drawn
    injection drawn with head drawn
    rw [List.map_cons, List.nodup_cons] at distinct
    have supply : d₁.supply = d.supply.draw.2 := by
      rw [added]
      cases kind <;> rfl
    obtain ⟨more, later⟩ := ih (by rw [gains.names]; exact names) distinct.2
      (by rw [supply]; exact drawn) ok
    rw [← head] at gains added
    refine ⟨gains.cons more distinct.1, ?_⟩
    rw [later, added]
    cases kind <;> simp [withAdded, IdSupply.skip, Nat.add_assoc, Nat.add_comm 1]

end Draft

/-! ## The types after a weave -/

/-- The names of targets of a kind are those of the types that get a method of the kind. -/
lemma map_ty_filterMap {τ : Type} {target? : TypeDef → Option τ} {ty : τ → String}
    {kind : EntryKind} (hit : ∀ t, (target? t).isSome = t.gets kind)
    (named : ∀ t target, target? t = some target → ty target = t.name) (types : List TypeDef) :
    (types.filterMap target?).map ty = namesThatGet kind types := by
  induction types with
  | nil => rfl
  | cons t rest ih =>
    cases found : target? t with
    | none =>
      have misses : t.gets kind = false := by rw [← hit, found]; rfl
      rw [List.filterMap_cons_none found, ih, namesThatGet_cons_neg misses]
    | some target =>
      have gets : t.gets kind = true := by rw [← hit, found]; rfl
      rw [List.filterMap_cons_some found, List.map_cons, ih, namesThatGet_cons_pos gets,
        named t target found]

lemma map_ty_constructable (types : List TypeDef) :
    (types.filterMap TypeDef.constructorTarget?).map (·.ty) = namesThatGet .factory types :=
  map_ty_filterMap TypeDef.isSome_constructorTarget?
    (fun _ _ hit => TypeDef.ty_of_constructorTarget? hit) types

lemma map_ty_injectable (types : List TypeDef) :
    (types.filterMap TypeDef.fieldTarget?).map (·.ty) = namesThatGet .injector types :=
  map_ty_filterMap TypeDef.isSome_fieldTarget?
    (fun _ _ hit => congrArg FieldTarget.ty (TypeDef.eq_of_fieldTarget? hit)) types

/-- Names are distinct, so the name of a type tells whether the type gets a method. -/
lemma name_mem_targetNames_iff {m : Module} {t : TypeDef} {kind : EntryKind}
    (names : (m.types.map (·.name)).Nodup) (member : t ∈ m.types) :
    t.name ∈ m.targetNames kind ↔ t.gets kind = true := by
  refine ⟨fun named => ?_, fun gets => WeaveIds.name_mem_targetNames member gets⟩
  obtain ⟨s, hs, same⟩ := List.mem_map.1 named
  obtain ⟨hs, gets⟩ := List.mem_filter.1 hs
  obtain rfl := List.inj_on_of_nodup_map names hs member same
  exact gets

/-- The second type is the first one after a weave, as far as loading and registering look at it:
it has got a method of each kind that it gets, under the identifier drawn for it. -/
structure TypeDef.Served (ids : WeaveIds) (t t' : TypeDef) : Prop where
  name : t'.name = t.name
  methods : ∀ x ∈ t'.methods, x ∈ t.methods ∨ x.markers = [generatedMarker]
  entry : ∀ kind, t.gets kind = true → t'.visibility = .everywhere ∧
    ∃ x, t'.method? (ids.entry kind t.name) = some x ∧ x.Fits kind

/-- A method behind others that have other identifiers is found by its own. -/
lemma TypeDef.method?_of_eq {t : TypeDef} {before after : List Method} {x : Method} {id : Uuid}
    (methods : t.methods = before ++ x :: after) (own : x.id = id)
    (others : ∀ y ∈ before, y.id ≠ id) : t.method? id = some x := by
  rw [method?, methods]
  exact find?_append_cons (fun y hy => beq_false_of_ne (others y hy)) (by simp [own])

/-- What an edit of the types that get a method of a kind does to any type. -/
structure TypeDef.Grows (kind : EntryKind) (gets : Bool) (id : Uuid) (t t' : TypeDef) : Prop where
  name : t'.name = t.name
  exposed : gets = true → t'.visibility = .everywhere
  visibility : t.visibility = .everywhere → t'.visibility = .everywhere
  methods : ∃ added : List Method, t'.methods = t.methods ++ added ∧ (gets = true → added ≠ []) ∧
    ∀ x ∈ added, gets = true ∧ x.id = id ∧ x.Fits kind

lemma TypeDef.grows_of_gains {kind : EntryKind} {gets : Bool} {id : Uuid} {t t' : TypeDef}
    (gains : if gets = true then t.Gains kind id t' else t' = t) : t.Grows kind gets id t' := by
  cases gets with
  | true =>
    rw [if_pos rfl] at gains
    obtain ⟨x, own, fits, methods⟩ := gains.methods
    refine ⟨gains.name, fun _ => gains.visibility, fun _ => gains.visibility, [x], methods,
      fun _ => List.cons_ne_nil _ _, fun y hy => ?_⟩
    rw [List.mem_singleton.1 hy]
    exact ⟨rfl, own, fits⟩
  | false =>
    rw [if_neg Bool.false_ne_true] at gains
    subst gains
    exact ⟨rfl, by simp, fun same => same, [], by simp, by simp, by simp⟩

/-- Both edits together serve a type, if the identifiers drawn for them are fresh. -/
lemma TypeDef.served_of_grows {ids : WeaveIds} {t t₁ t₂ : TypeDef}
    (first : t.Grows .factory (t.gets .factory) (ids.entry .factory t.name) t₁)
    (second : t₁.Grows .injector (t.gets .injector) (ids.entry .injector t.name) t₂)
    (unused : ∀ kind, t.gets kind = true → ids.entry kind t.name ∉ t.ids)
    (distinct : t.gets .factory = true → t.gets .injector = true →
      ids.entry .factory t.name ≠ ids.entry .injector t.name) : t.Served ids t₂ := by
  obtain ⟨factory, methods₁, some₁, each₁⟩ := first.methods
  obtain ⟨injector, methods₂, some₂, each₂⟩ := second.methods
  rw [methods₁] at methods₂
  have others : ∀ kind, t.gets kind = true → ∀ y ∈ t.methods, y.id ≠ ids.entry kind t.name :=
    fun kind gets y hy same => unused kind gets
      (List.mem_cons_of_mem _ (List.mem_append_right _ (List.mem_map.2 ⟨y, hy, same⟩)))
  refine ⟨second.name.trans first.name, fun x hx => ?_, fun kind gets => ?_⟩
  · rw [methods₂, List.mem_append, List.mem_append] at hx
    rcases hx with (old | new) | new
    · exact .inl old
    · exact .inr (each₁ x new).2.2.markers
    · exact .inr (each₂ x new).2.2.markers
  · cases kind with
    | factory =>
      obtain ⟨x, rest, rfl⟩ := List.exists_cons_of_ne_nil (some₁ gets)
      obtain ⟨-, own, fits⟩ := each₁ x List.mem_cons_self
      rw [List.append_assoc, List.cons_append] at methods₂
      exact ⟨second.visibility (first.exposed gets), x,
        method?_of_eq methods₂ own (others .factory gets), fits⟩
    | injector =>
      obtain ⟨x, rest, rfl⟩ := List.exists_cons_of_ne_nil (some₂ gets)
      obtain ⟨-, own, fits⟩ := each₂ x List.mem_cons_self
      refine ⟨second.exposed gets, x, method?_of_eq methods₂ own fun y hy => ?_, fits⟩
      -- the factory stands before the injector, under another identifier
      rcases List.mem_append.1 hy with old | new
      · exact others .injector gets y old
      · rw [(each₁ y new).2.1]
        exact distinct (each₁ y new).1 gets

/-- The edits for all factories, then for all injectors, serve every type of a module. -/
lemma Module.exists_served_of_gains {m m₁ m₂ : Module} {ids : WeaveIds} {supply : IdSupply}
    (names : (m.types.map (·.name)).Nodup) (fresh : supply.FreshFor m)
    (drawn : ids.inOrder m = supply.next m.idsNeeded)
    (first : m.Gains .factory (ids.entry .factory) (m.targetNames .factory) m₁)
    (second : m₁.Gains .injector (ids.entry .injector) (m.targetNames .injector) m₂) :
    ∃ grow : TypeDef → TypeDef, m₂ = { m with types := m.types.map grow } ∧
      ∀ t ∈ m.types, t.Served ids (grow t) := by
  obtain ⟨grow₁, rfl, each₁⟩ := first
  obtain ⟨grow₂, rfl, each₂⟩ := second
  refine ⟨fun t => grow₂ (grow₁ t), by simp [Function.comp_def], fun t ht => ?_⟩
  have own₁ := each₁ t ht
  have own₂ := each₂ (grow₁ t) (List.mem_map_of_mem ht)
  have name : (grow₁ t).name = t.name := by
    split at own₁
    · exact own₁.name
    · rw [own₁]
  simp only [name, name_mem_targetNames_iff names ht] at own₁ own₂
  exact TypeDef.served_of_grows (TypeDef.grows_of_gains own₁) (TypeDef.grows_of_gains own₂)
    (fun kind gets => WeaveIds.entry_not_mem_ids fresh drawn ht gets)
    (WeaveIds.factory_ne_injector fresh drawn ht)

/-! ## The whole weave -/

/-- The edits for all targets of a module, under the identifiers that they draw. -/
lemma gains_of_targets {m : Module} {supply : IdSupply} {ids : WeaveIds} {d₁ d₂ : Draft}
    (names : (m.types.map (·.name)).Nodup) (drawn : ids.inOrder m = supply.next m.idsNeeded)
    (ok₁ : (m.types.filterMap TypeDef.constructorTarget?).foldlM Draft.addFactory
      { module := m, supply } = .ok d₁)
    (ok₂ : (m.types.filterMap TypeDef.fieldTarget?).foldlM Draft.addInjector d₁ = .ok d₂) :
    m.Gains .factory (ids.entry .factory) (m.targetNames .factory) d₁.module ∧
      d₁.module.Gains .injector (ids.entry .injector) (m.targetNames .injector) d₂.module ∧
      d₂ = {
        module := d₂.module
        supply := supply.skip
          ((m.targetNames .factory).length + (m.targetNames .injector).length)
        factories := ids.entries m .factory
        injectors := ids.entries m .injector } := by
  obtain ⟨factories, injectors, -⟩ := WeaveIds.parts_of_inOrder drawn
  have names₁ : _ = m.targetNames .factory := map_ty_constructable m.types
  have names₂ : _ = m.targetNames .injector := map_ty_injectable m.types
  have length₁ := congrArg List.length names₁
  have length₂ := congrArg List.length names₂
  rw [List.length_map] at length₁ length₂
  obtain ⟨gains₁, first⟩ := Draft.gains_of_foldlM Draft.edits_addFactory names
    (by rw [names₁]; exact nodup_targetNames names .factory)
    (by rw [names₁, length₁]; exact factories) ok₁
  rw [names₁] at gains₁ first
  have supply₁ : d₁.supply = supply.skip (m.targetNames .factory).length := by
    rw [first]
    simp [Draft.withAdded]
  obtain ⟨gains₂, second⟩ := Draft.gains_of_foldlM Draft.edits_addInjector
    (by rw [gains₁.names]; exact names)
    (by rw [names₂]; exact nodup_targetNames names .injector)
    (by rw [names₂, length₂, supply₁]; exact injectors) ok₂
  rw [names₂] at gains₂ second
  refine ⟨gains₁, gains₂, second.trans ?_⟩
  obtain ⟨grow, types, -⟩ := gains₂
  rw [types, first]
  simp [Draft.withAdded, IdSupply.skip, Nat.add_assoc, WeaveIds.entries]

/-- A weave serves every type on its own and appends the registrar, which registers the methods
that were added. -/
theorem exists_served_of_weave {m m' : Module} {options : WeaveOptions} {supply supply' : IdSupply}
    {report : WeaveReport} (names : (m.types.map (·.name)).Nodup) (fresh : supply.FreshFor m)
    (woven : m.weave options supply = .ok (.woven report, m', supply')) :
    ∃ (ids : WeaveIds) (grow : TypeDef → TypeDef), m'.name = m.name ∧
      m'.types = m.types.map grow
        ++ [registrarType ids.registrar (registrarName m.name options.registrarName)
          (bakeMethod ids.bake (ids.entries m .factory) (ids.entries m .injector)
            options.editorOnly)] ∧
      ∀ t ∈ m.types, t.Served ids (grow t) := by
  have absent := typeNamed?_registrar_of_weave woven
  obtain ⟨ids, drawn⟩ := exists_weaveIds names supply
  obtain ⟨-, -, last⟩ := WeaveIds.parts_of_inOrder drawn
  simp only [IdSupply.next, List.cons.injEq, and_true] at last
  rw [Module.weave] at woven
  split at woven
  · cases woven
  dsimp only at woven
  split at woven
  · cases woven
  obtain ⟨d, ok, woven⟩ := exists_of_bind_eq_ok woven
  injection woven with woven
  simp only [Prod.mk.injEq, WeaveOutcome.woven.injEq] at woven
  obtain ⟨-, rfl, -⟩ := woven
  -- the targets are those of the types before the weave, for the injectors as well
  rw [targets_eq absent] at ok
  obtain ⟨d₁, ok₁, ok⟩ := exists_of_bind_eq_ok ok
  obtain ⟨d₂, ok₂, ok⟩ := exists_of_bind_eq_ok ok
  obtain ⟨m₃, ok₃, ok⟩ := exists_of_bind_eq_ok ok
  obtain ⟨first, second, draft⟩ := gains_of_targets names drawn ok₁ ok₂
  obtain ⟨grow, types, served⟩ := Module.exists_served_of_gains names fresh drawn first second
  rw [types] at draft
  rw [draft] at ok₃ ok
  rw [Module.addRegistrar] at ok₃
  split at ok₃
  · cases ok₃
  injection ok₃ with ok₃
  injection ok with ok
  refine ⟨ids, grow, ?_, ?_, served⟩
  · rw [← ok, ← ok₃]
    rfl
  · rw [← ok, ← ok₃, last.1, last.2]
    rfl

end Weaver
