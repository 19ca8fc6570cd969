import Weaver.Proofs.Weave.Effect

/-!
# The members of a rewoven type

Running code looks members up by name or identifier. In a rewoven type such a lookup finds what it
found before, with a visibility that is at least as wide, and under the identifiers that the weave
has drawn it finds the synthesized methods.

Four things live here:

* the parts of a type that a weave leaves as they are;
* the members that were there before, `field?_rewoven`, `constructor?_rewoven`, `member?_rewoven`;
* the members that a synthesized method needs and the method itself, under fresh identifiers;
* the other direction, by which nothing else is found after a weave than what was found before.
-/

namespace Weaver

/-! ## Fresh identifiers -/

/-- The identifiers that a weave of the module draws are no two the same, and none of them is
declared in the module. -/
structure IdSupply.FreshFor (supply : IdSupply) (m : Module) : Prop where
  distinct : (supply.next m.idsNeeded).Nodup
  unused : ∀ id ∈ supply.next m.idsNeeded, id ∉ m.ids

namespace WeaveIds

variable {ids : WeaveIds} {m : Module} {supply : IdSupply} {t : TypeDef}

lemma name_mem_targetNames {kind : EntryKind} (member : t ∈ m.types) (gets : t.gets kind = true) :
    t.name ∈ m.targetNames kind :=
  List.mem_map_of_mem (List.mem_filter.2 ⟨member, gets⟩)

lemma entry_mem_inOrder {kind : EntryKind} (member : t ∈ m.types) (gets : t.gets kind = true) :
    ids.entry kind t.name ∈ ids.inOrder m := by
  have drawn := List.mem_map_of_mem (f := ids.entry kind) (name_mem_targetNames member gets)
  rw [inOrder, List.mem_append, List.mem_append]
  cases kind with
  | factory => exact .inl (.inl drawn)
  | injector => exact .inl (.inr drawn)

/-- A fresh identifier is not one of the type it is drawn for. -/
lemma entry_not_mem_ids (fresh : supply.FreshFor m) (drawn : ids.inOrder m = supply.next m.idsNeeded)
    {kind : EntryKind} (member : t ∈ m.types) (gets : t.gets kind = true) :
    ids.entry kind t.name ∉ t.ids := by
  intro own
  have next : ids.entry kind t.name ∈ supply.next m.idsNeeded := by
    rw [← drawn]
    exact entry_mem_inOrder member gets
  exact fresh.unused _ next (List.mem_flatMap.2 ⟨t, member, own⟩)

/-- The factory and the injector of a type have different identifiers. -/
lemma factory_ne_injector (fresh : supply.FreshFor m)
    (drawn : ids.inOrder m = supply.next m.idsNeeded) (member : t ∈ m.types)
    (factory : t.gets .factory = true) (injector : t.gets .injector = true) :
    ids.entry .factory t.name ≠ ids.entry .injector t.name := by
  have distinct := fresh.distinct
  rw [← drawn, inOrder, List.append_assoc, List.nodup_append] at distinct
  have first := List.mem_map_of_mem (f := ids.entry .factory) (name_mem_targetNames member factory)
  have second := List.mem_map_of_mem (f := ids.entry .injector)
    (name_mem_targetNames member injector)
  exact distinct.2.2 _ first _ (List.mem_append_left _ second)

end WeaveIds

/-! ## Lookups after a change of the first match -/

section FirstMatch

variable {α : Type} {p q : α → Bool} {f : α → α} {l : List α} {a : α}

/-- A lookup that a change does not affect finds the same element, changed or not. -/
lemma find?_updateFirst (same : ∀ a, q (f a) = q a) (found : l.find? q = some a) :
    (updateFirst p f l).find? q = some a ∨ (updateFirst p f l).find? q = some (f a) := by
  induction l with
  | nil => cases found
  | cons b rest ih =>
    rw [List.find?_cons] at found
    rw [updateFirst]
    cases hq : q b with
    | true =>
      rw [hq] at found
      cases found
      split
      · exact .inr (by rw [List.find?_cons, same, hq])
      · exact .inl (by rw [List.find?_cons, hq])
    | false =>
      rw [hq] at found
      split
      · exact .inl (by rw [List.find?_cons, same, hq]; exact found)
      · simpa only [List.find?_cons, hq] using ih found

lemma find?_updateFirst_eq_none (same : ∀ a, q (f a) = q a) (absent : l.find? q = none) :
    (updateFirst p f l).find? q = none := by
  induction l with
  | nil => rfl
  | cons b rest ih =>
    rw [List.find?_cons] at absent
    rw [updateFirst]
    cases hq : q b with
    | true =>
      rw [hq] at absent
      cases absent
    | false =>
      rw [hq] at absent
      split
      · rw [List.find?_cons, same, hq]
        exact absent
      · rw [List.find?_cons, hq]
        exact ih absent

end FirstMatch

namespace TypeDef

/-! ## What stays -/

section Same

variable (t : TypeDef) (factoryId injectorId : Uuid)

@[simp] lemma rewoven_name : (t.rewoven factoryId injectorId).name = t.name := by
  unfold rewoven
  split <;> rfl

@[simp] lemma rewoven_kind : (t.rewoven factoryId injectorId).kind = t.kind := by
  unfold rewoven
  split <;> rfl

@[simp] lemma rewoven_isInterface : (t.rewoven factoryId injectorId).isInterface = t.isInterface := by
  rw [isInterface, rewoven_kind, isInterface]

@[simp] lemma rewoven_isAbstract : (t.rewoven factoryId injectorId).isAbstract = t.isAbstract := by
  unfold rewoven
  split <;> rfl

@[simp] lemma rewoven_supertype : (t.rewoven factoryId injectorId).supertype = t.supertype := by
  unfold rewoven
  split <;> rfl

@[simp] lemma rewoven_interfaces : (t.rewoven factoryId injectorId).interfaces = t.interfaces := by
  unfold rewoven
  split <;> rfl

/-- The methods that were there before come first. -/
lemma methods_prefix_rewoven : t.methods <+: (t.rewoven factoryId injectorId).methods := by
  unfold rewoven
  split
  · exact List.prefix_rfl
  · rw [List.append_assoc]
    exact List.prefix_append _ _

lemma fields_rewoven : (t.rewoven factoryId injectorId).fields
    = t.fields.map fun f => if f.isMarked && !t.isInterface then f.withVisibility .everywhere else f := by
  unfold rewoven
  cases t.isInterface with
  | true => simp
  | false => simp [fieldsExposed]

end Same

/-! ## Members that were there before -/

section Before

variable {t : TypeDef} (factoryId injectorId : Uuid)

lemma le_everywhere (v : Visibility) : v ≤ .everywhere := by
  cases v <;> decide

lemma le_refl_visibility (v : Visibility) : v ≤ v := by
  cases v <;> decide

/-- The field of a name is the one that had the name before, changed or not. -/
lemma field?_rewoven_eq (t : TypeDef) (name : String) :
    (t.rewoven factoryId injectorId).field? name = (t.field? name).map fun f =>
      if f.isMarked && !t.isInterface then f.withVisibility .everywhere else f := by
  let expose (f : Field) : Field :=
    if f.isMarked && !t.isInterface then f.withVisibility .everywhere else f
  have named (f : Field) : (expose f).name = f.name := by
    simp only [expose]
    split <;> rfl
  rw [field?, fields_rewoven]
  show (t.fields.map expose).find? (·.name == name) = _
  simp only [List.find?_map, Function.comp_def, named]
  rfl

/-- A field is found as before, with a visibility that is at least as wide. -/
lemma field?_rewoven {name : String} {f : Field} (found : t.field? name = some f) :
    ∃ v, f.visibility ≤ v ∧
      (t.rewoven factoryId injectorId).field? name = some (f.withVisibility v) := by
  rw [field?_rewoven_eq, found, Option.map_some]
  split
  · exact ⟨.everywhere, le_everywhere _, rfl⟩
  · exact ⟨f.visibility, le_refl_visibility _, rfl⟩

/-- The constructors of a rewoven type are those of the type with at most one of them public. -/
lemma constructors_rewoven (t : TypeDef) :
    (t.rewoven factoryId injectorId).constructors
      = if t.isInterface || t.isAbstract then t.constructors else t.constructorsExposed := by
  unfold rewoven
  cases t.isInterface <;> cases t.isAbstract <;> rfl

/-- A constructor is found as before, with a visibility that is at least as wide. -/
lemma constructor?_rewoven {id : Uuid} {c : Method} (found : t.constructor? id = some c) :
    ∃ v, c.visibility ≤ v ∧
      (t.rewoven factoryId injectorId).constructor? id = some (c.withVisibility v) := by
  have unchanged : ∃ v, c.visibility ≤ v ∧ some c = some (c.withVisibility v) :=
    ⟨c.visibility, le_refl_visibility _, rfl⟩
  rw [constructor?, constructors_rewoven]
  split
  · rw [← constructor?, found]
    exact unchanged
  · have exposed := find?_updateFirst (p := Method.isMarked) (q := (·.id == id))
      (f := (·.withVisibility .everywhere)) (fun _ => rfl) found
    rcases exposed with same | wider
    · rw [constructorsExposed, same]
      exact unchanged
    · rw [constructorsExposed, wider]
      exact ⟨.everywhere, le_everywhere _, rfl⟩

lemma constructor?_rewoven_eq_none {id : Uuid} (absent : t.constructor? id = none) :
    (t.rewoven factoryId injectorId).constructor? id = none := by
  rw [constructor?, constructors_rewoven]
  split
  · exact absent
  · exact find?_updateFirst_eq_none (fun _ => rfl) absent

/-- A method is found as before. -/
lemma method?_rewoven {id : Uuid} {m : Method} (found : t.method? id = some m) :
    (t.rewoven factoryId injectorId).method? id = some m :=
  find?_of_prefix (methods_prefix_rewoven t factoryId injectorId) found

lemma methodNamed?_rewoven {name : String} {m : Method} (found : t.methodNamed? name = some m) :
    (t.rewoven factoryId injectorId).methodNamed? name = some m :=
  find?_of_prefix (methods_prefix_rewoven t factoryId injectorId) found

/-- A member is found as before, with a visibility that is at least as wide. -/
lemma member?_rewoven {id : Uuid} {c : Method} (found : t.member? id = some c) :
    ∃ v, c.visibility ≤ v ∧
      (t.rewoven factoryId injectorId).member? id = some (c.withVisibility v) := by
  rw [member?] at found ⊢
  cases first : t.constructor? id with
  | some ctor =>
    rw [first, Option.some_or] at found
    cases found
    obtain ⟨v, wider, found⟩ := constructor?_rewoven factoryId injectorId first
    exact ⟨v, wider, by rw [found, Option.some_or]⟩
  | none =>
    rw [first, Option.none_or] at found
    refine ⟨c.visibility, le_refl_visibility _, ?_⟩
    rw [constructor?_rewoven_eq_none factoryId injectorId first, Option.none_or]
    exact method?_rewoven factoryId injectorId found

end Before

/-! ## Members of a target -/

section Target

variable {t : TypeDef} (factoryId injectorId : Uuid)

lemma isInterface_of_gets {kind : EntryKind} (gets : t.gets kind = true) :
    t.isInterface = false := by
  cases kind <;> simp only [TypeDef.gets, Bool.and_eq_true, Bool.not_eq_true'] at gets
  · exact gets.1.1
  · exact gets.1

/-- A class gets an injector exactly if it has marked fields. -/
lemma gets_injector_iff :
    t.gets .injector = true ↔ t.isInterface = false ∧ t.markedFields ≠ [] := by
  simp [TypeDef.gets, markedFields, List.filter_eq_nil_iff]

lemma isAbstract_of_gets (gets : t.gets .factory = true) : t.isAbstract = false := by
  simp only [TypeDef.gets, Bool.and_eq_true, Bool.not_eq_true'] at gets
  exact gets.1.2

/-- The constructor that a factory runs can be used from everywhere. -/
lemma constructor?_rewoven_of_marked {c : Method} (ctors : (t.constructors.map (·.id)).Nodup)
    (gets : t.gets .factory = true) (marked : t.markedConstructor? = some c) :
    (t.rewoven factoryId injectorId).constructor? c.id = some (c.withVisibility .everywhere) := by
  obtain ⟨hc, before, after, split, hbefore⟩ := List.find?_eq_some_iff_append.1 marked
  have unmarked : ∀ b ∈ before, b.isMarked = false := fun b hb => by simpa using hbefore b hb
  rw [constructor?, constructors_rewoven, if_neg (by
    simp [isInterface_of_gets gets, isAbstract_of_gets gets]), constructorsExposed, split,
    updateFirst_append_cons _ unmarked hc]
  refine find?_append_cons (fun b hb => ?_) (beq_self_eq_true _)
  rw [split, List.map_append, List.map_cons, List.nodup_append] at ctors
  exact beq_false_of_ne (ctors.2.2 _ (List.mem_map_of_mem hb) _ List.mem_cons_self)

/-- The fields that an injector fills can be used from everywhere. -/
lemma field?_rewoven_of_marked {f : Field} (fields : (t.fields.map (·.name)).Nodup)
    (gets : t.gets .injector = true) (marked : f ∈ t.markedFields) :
    (t.rewoven factoryId injectorId).field? f.name = some (f.withVisibility .everywhere) := by
  obtain ⟨member, hf⟩ := List.mem_filter.1 marked
  have exposed : f.withVisibility .everywhere ∈ (t.rewoven factoryId injectorId).fields := by
    rw [fields_rewoven]
    refine List.mem_map.2 ⟨f, member, ?_⟩
    rw [hf, isInterface_of_gets gets]
    rfl
  have names : ((t.rewoven factoryId injectorId).fields.map (·.name)).Nodup := by
    rw [fields_rewoven, List.map_map]
    convert fields using 2
    funext f
    show (if _ then _ else _ : Field).name = f.name
    split <;> rfl
  exact find?_key_of_mem Field.name names exposed

lemma constructor?_eq_none_of_fresh {id : Uuid} (fresh : id ∉ t.ids) : t.constructor? id = none := by
  refine List.find?_eq_none.2 fun c hc same => fresh ?_
  have found : id ∈ t.constructors.map (·.id) := by
    rw [← eq_of_beq same]
    exact List.mem_map_of_mem hc
  simp only [ids, List.mem_cons, List.mem_append]
  exact .inr (.inl (.inr found))

lemma method_ne_of_fresh {id : Uuid} (fresh : id ∉ t.ids) :
    ∀ m ∈ t.methods, (m.id == id) = false := by
  intro m hm
  refine beq_false_of_ne fun same => fresh ?_
  have found : id ∈ t.methods.map (·.id) := by
    rw [← same]
    exact List.mem_map_of_mem hm
  simp only [ids, List.mem_cons, List.mem_append]
  exact .inr (.inr found)

/-- A fresh identifier belongs to no constructor of a rewoven type. -/
lemma member?_rewoven_of_fresh {id : Uuid} (fresh : id ∉ t.ids) :
    (t.rewoven factoryId injectorId).member? id = (t.rewoven factoryId injectorId).method? id := by
  rw [member?, constructor?_rewoven_eq_none _ _ (constructor?_eq_none_of_fresh fresh), Option.none_or]

/-- The synthesized factory is found under its identifier. -/
lemma member?_rewoven_factory {c : Method} (gets : t.gets .factory = true)
    (marked : t.markedConstructor? = some c) (fresh : factoryId ∉ t.ids) :
    (t.rewoven factoryId injectorId).member? factoryId
      = some (factoryMethod factoryId t.name c) := by
  have added : t.synthesized? .factory factoryId = some (factoryMethod factoryId t.name c) := by
    simp only [synthesized?, gets, marked, if_true, Option.map_some, documentedFactory_eq]
  rw [member?_rewoven_of_fresh _ _ fresh, rewoven_of_class (isInterface_of_gets gets), method?]
  simp only [added, Option.toList_some, List.append_assoc, List.singleton_append]
  exact find?_append_cons (method_ne_of_fresh fresh) (beq_self_eq_true _)

/-- The synthesized injector is found under its identifier. -/
lemma member?_rewoven_injector (gets : t.gets .injector = true) (fresh : injectorId ∉ t.ids)
    (apart : t.gets .factory = true → factoryId ≠ injectorId) :
    (t.rewoven factoryId injectorId).member? injectorId
      = some (injectorMethod injectorId t.name t.markedFields) := by
  have added : t.synthesized? .injector injectorId
      = some (injectorMethod injectorId t.name t.markedFields) := by
    simp only [synthesized?, gets, if_true, documentedInjector_eq]
  -- the injector comes last, behind the methods from before and the factory
  have others : ∀ m ∈ t.methods ++ (t.synthesized? .factory factoryId).toList,
      (m.id == injectorId) = false := by
    intro m hm
    rcases List.mem_append.1 hm with hm | hm
    · exact method_ne_of_fresh fresh m hm
    · cases factory : t.gets .factory with
      | false =>
        rw [synthesized?_eq_none factory] at hm
        cases hm
      | true =>
        obtain ⟨c, marked, -⟩ := markedConstructor?_of_gets factory
        simp only [synthesized?, factory, marked, if_true, Option.map_some, Option.toList_some,
          List.mem_singleton] at hm
        rw [hm]
        exact beq_false_of_ne (apart factory)
  rw [member?_rewoven_of_fresh _ _ fresh, rewoven_of_class (isInterface_of_gets gets), method?]
  simp only [added, Option.toList_some]
  exact find?_append_cons others (beq_self_eq_true _)

/-- A synthesized method is for a type that gets one, under the given identifier, and has no marker
but the tag. -/
lemma of_synthesized? {kind : EntryKind} {id : Uuid} {m : Method}
    (added : t.synthesized? kind id = some m) :
    t.gets kind = true ∧ m.id = id ∧ m.markers = [generatedMarker] := by
  unfold synthesized? at added
  split at added
  on_goal 2 => cases added
  next gets =>
    cases kind with
    | factory =>
      obtain ⟨c, -, rfl⟩ := Option.map_eq_some_iff.1 added
      exact ⟨gets, rfl, rfl⟩
    | injector =>
      cases added
      exact ⟨gets, rfl, rfl⟩

/-- The methods of a rewoven type are those that were there before and the synthesized ones. -/
lemma mem_methods_rewoven {m : Method} (member : m ∈ (t.rewoven factoryId injectorId).methods) :
    m ∈ t.methods ∨ t.synthesized? .factory factoryId = some m ∨
      t.synthesized? .injector injectorId = some m := by
  unfold rewoven at member
  split at member
  · exact .inl member
  · rcases List.mem_append.1 member with member | member
    · rcases List.mem_append.1 member with member | member
      · exact .inl member
      · exact .inr (.inl (Option.mem_toList.1 member))
    · exact .inr (.inr (Option.mem_toList.1 member))

end Target

/-! ## No other members -/

section After

variable {t : TypeDef} {factoryId injectorId id : Uuid}

lemma exists_field?_of_rewoven {name : String} {f : Field}
    (found : (t.rewoven factoryId injectorId).field? name = some f) :
    ∃ f', t.field? name = some f' := by
  rw [field?_rewoven_eq, Option.map_eq_some_iff] at found
  obtain ⟨f', found, -⟩ := found
  exact ⟨f', found⟩

lemma exists_constructor?_of_rewoven {c : Method}
    (found : (t.rewoven factoryId injectorId).constructor? id = some c) :
    ∃ c', t.constructor? id = some c' := by
  cases before : t.constructor? id with
  | some c' => exact ⟨c', rfl⟩
  | none =>
    rw [constructor?_rewoven_eq_none _ _ before] at found
    cases found

/-- Under an identifier that a weave does not give away, only methods from before are found. -/
lemma exists_method?_of_rewoven (factory : t.gets .factory = true → factoryId ≠ id)
    (injector : t.gets .injector = true → injectorId ≠ id) {c : Method}
    (found : (t.rewoven factoryId injectorId).method? id = some c) :
    ∃ c', t.method? id = some c' := by
  have named : c.id = id := by simpa using List.find?_some found
  rcases mem_methods_rewoven _ _ (List.mem_of_find?_eq_some found) with old | added | added
  · refine Option.isSome_iff_exists.1 (List.find?_isSome.2 ⟨c, old, ?_⟩)
    rw [named]
    exact beq_self_eq_true id
  · obtain ⟨gets, own, -⟩ := of_synthesized? added
    exact absurd (own.symm.trans named) (factory gets)
  · obtain ⟨gets, own, -⟩ := of_synthesized? added
    exact absurd (own.symm.trans named) (injector gets)

lemma exists_member?_of_rewoven (factory : t.gets .factory = true → factoryId ≠ id)
    (injector : t.gets .injector = true → injectorId ≠ id) {c : Method}
    (found : (t.rewoven factoryId injectorId).member? id = some c) :
    ∃ c', t.member? id = some c' := by
  rw [member?] at found ⊢
  rcases Option.or_eq_some_iff.1 found with ctor | ⟨-, method⟩
  · obtain ⟨c', before⟩ := exists_constructor?_of_rewoven ctor
    exact ⟨c', by rw [before, Option.some_or]⟩
  · obtain ⟨c', before⟩ := exists_method?_of_rewoven factory injector method
    rw [before]
    cases t.constructor? id with
    | none => exact ⟨c', rfl⟩
    | some ctor => exact ⟨ctor, rfl⟩

end After

end TypeDef

end Weaver
