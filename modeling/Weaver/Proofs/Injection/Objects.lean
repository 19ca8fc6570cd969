import Weaver.Proofs.Injection.Dependencies
import Weaver.Proofs.Weave.SynthesizedCode

/-!
# Objects and assigning constructors

A value that is stored is found again, and nothing else changes. So a constructor that stores each
of its parameters into the field of the same name leaves an object with its arguments there.

Two things live here:

* `Host.getDeclared?_putDeclared`, `Host.putAll` and `Host.addObject`, what assignments do to the
  fields of objects, new ones included;
* `Engine.run_construct_assigning`, the outcome of a construction by an assigning constructor.
-/

namespace Weaver
namespace Host

variable {h : Host} {ref ref' : ObjectRef} {owner owner' name name' : String} {value : Value}

/-! ## One assignment -/

lemma find?_storeSlot (owner owner' name name' : String) (value : Value) (slots : List Slot) :
    ((storeSlot owner name value slots).find? fun s => s.owner == owner' && s.name == name').map
        (·.value)
      = if owner = owner' ∧ name = name' then
          (slots.find? fun s => s.owner == owner' && s.name == name').map fun _ => value
        else (slots.find? fun s => s.owner == owner' && s.name == name').map (·.value) := by
  induction slots with
  | nil => simp [storeSlot]
  | cons s rest ih =>
    rw [storeSlot]
    by_cases here : (s.owner == owner && s.name == name) = true
    · rw [if_pos here]
      simp only [Bool.and_eq_true, beq_iff_eq] at here
      obtain ⟨rfl, rfl⟩ := here
      by_cases same : s.owner = owner' ∧ s.name = name'
      · simp [same]
      · have other : (s.owner == owner' && s.name == name') = false := by simpa using same
        rw [if_neg same]
        simp only [List.find?_cons, other]
    · rw [if_neg here]
      by_cases wanted : (s.owner == owner' && s.name == name') = true
      · -- the slot that is looked for comes first, so it is not the one that is stored into
        have apart : ¬(owner = owner' ∧ name = name') := by
          rintro ⟨rfl, rfl⟩
          exact here wanted
        simp only [List.find?_cons, wanted, if_neg apart]
      · rw [Bool.not_eq_true] at wanted
        simp only [List.find?_cons, wanted]
        exact ih

lemma object_putDeclared (h : Host) (ref ref' : ObjectRef) (owner name : String) (value : Value) :
    (h.putDeclared ref owner name value).object ref'
      = if ref = ref' then
          { h.object ref' with slots := storeSlot owner name value (h.object ref').slots }
        else h.object ref' := by
  rcases ref with ⟨i⟩
  rcases ref' with ⟨j⟩
  simp only [object, putDeclared, Array.getD_eq_getD_getElem?, Array.getElem?_modify,
    ObjectRef.mk.injEq]
  by_cases same : i = j
  · subst same
    rw [if_pos rfl, if_pos rfl]
    cases h.objects[i]? with
    | none => rfl
    | some o => rfl
  · rw [if_neg same, if_neg same]

lemma object_putDeclared_of_ne (other : ref ≠ ref') (h : Host) :
    (h.putDeclared ref owner name value).object ref' = h.object ref' := by
  rw [object_putDeclared, if_neg other]

/-- A field that is stored into holds the value, the others hold what they held. -/
lemma getDeclared?_putDeclared (h : Host) (ref ref' : ObjectRef) (owner owner' name name' : String)
    (value : Value) :
    (h.putDeclared ref owner name value).getDeclared? ref' owner' name'
      = if ref = ref' ∧ owner = owner' ∧ name = name' then
          (h.getDeclared? ref' owner' name').map fun _ => value
        else h.getDeclared? ref' owner' name' := by
  simp only [getDeclared?, slotValue?, object_putDeclared]
  by_cases same : ref = ref'
  · simp only [if_pos same, find?_storeSlot]
    by_cases here : owner = owner' ∧ name = name'
    · rw [if_pos here, if_pos ⟨same, here⟩, Option.map_map]
      rfl
    · rw [if_neg here, if_neg fun all => here all.2]
  · rw [if_neg same, if_neg fun all => same all.1]

/-! ## Many assignments -/

/-- The host after values are put into fields that a type declares, one after the other. -/
def putAll (h : Host) (ref : ObjectRef) (owner : String) (values : List (String × Value)) : Host :=
  values.foldl (fun h v => h.putDeclared ref owner v.1 v.2) h

lemma putAll_cons (h : Host) (ref : ObjectRef) (owner : String) (v : String × Value)
    (rest : List (String × Value)) :
    h.putAll ref owner (v :: rest) = (h.putDeclared ref owner v.1 v.2).putAll ref owner rest := rfl

/-- Assignments change nothing but objects, and no object but the one. -/
lemma exists_putAll (h : Host) (ref : ObjectRef) (owner : String) (values : List (String × Value)) :
    ∃ objects, h.putAll ref owner values = { h with objects } ∧ objects.size = h.objects.size := by
  induction values generalizing h with
  | nil => exact ⟨h.objects, rfl, rfl⟩
  | cons v rest ih =>
    obtain ⟨objects, same, size⟩ := ih (h.putDeclared ref owner v.1 v.2)
    exact ⟨objects, same, size.trans (by simp [putDeclared])⟩

lemma object_putAll_of_ne (other : ref ≠ ref') (h : Host) (owner : String)
    (values : List (String × Value)) : (h.putAll ref owner values).object ref' = h.object ref' := by
  induction values generalizing h with
  | nil => rfl
  | cons v rest ih => rw [putAll_cons, ih, object_putDeclared_of_ne other]

lemma shape_putAll (h : Host) (ref ref' : ObjectRef) (owner : String)
    (values : List (String × Value)) : (h.putAll ref owner values).shape ref' = h.shape ref' := by
  induction values generalizing h with
  | nil => rfl
  | cons v rest ih => rw [putAll_cons, ih, shape_putDeclared]

/-- A field that none of the values is for holds what it held. -/
lemma getDeclared?_putAll_of_notMem {values : List (String × Value)}
    (none : name ∉ values.map (·.1)) (h : Host) (ref : ObjectRef) (owner : String) :
    (h.putAll ref owner values).getDeclared? ref owner name = h.getDeclared? ref owner name := by
  induction values generalizing h with
  | nil => rfl
  | cons v rest ih =>
    rw [List.map_cons, List.mem_cons, not_or] at none
    rw [putAll_cons, ih none.2, getDeclared?_putDeclared, if_neg fun all => none.1 all.2.2.symm]

/-- Fields of distinct names hold the values that were put into them. -/
lemma getDeclared?_putAll_of_mem {values : List (String × Value)}
    (names : (values.map (·.1)).Nodup) (member : (name, value) ∈ values)
    (slot : (h.getDeclared? ref owner name).isSome) :
    (h.putAll ref owner values).getDeclared? ref owner name = some value := by
  induction values generalizing h with
  | nil => cases member
  | cons v rest ih =>
    rw [List.map_cons, List.nodup_cons] at names
    rw [putAll_cons]
    rcases List.mem_cons.1 member with rfl | member
    · obtain ⟨old, found⟩ := Option.isSome_iff_exists.1 slot
      rw [getDeclared?_putAll_of_notMem names.1, getDeclared?_putDeclared, if_pos ⟨rfl, rfl, rfl⟩,
        found]
      rfl
    · apply ih names.2 member
      rw [isSome_getDeclared?, shape_putDeclared, ← isSome_getDeclared?]
      exact slot

/-- Assignments inside of a call are assignments outside of it. -/
lemma leaveCall_putAll_enterCall (h : Host) (ref : ObjectRef) (owner : String)
    (values : List (String × Value)) :
    (h.enterCall.putAll ref owner values).leaveCall = h.putAll ref owner values := by
  induction values generalizing h with
  | nil => rfl
  | cons v rest ih => exact ih (h.putDeclared ref owner v.1 v.2)

/-! ## New objects -/

lemma object_allocate_self (h : Host) (object : HeapObject) :
    (h.allocate object).2.object ⟨h.objects.size⟩ = object := by
  simp [Host.object, allocate, Array.getD_eq_getD_getElem?]

lemma object_allocate_of_lt (old : ref.index < h.objects.size) (object : HeapObject) :
    (h.allocate object).2.object ref = h.object ref := by
  simp [Host.object, allocate, Array.getD_eq_getD_getElem?, Array.getElem?_push, Nat.ne_of_lt old]

/-- A new object that is made with the slots of a type has the fields that the type declares. -/
lemma isSome_getDeclared?_allocate {t : TypeDef} {f : Field} {slots : List Slot}
    (own : Universe.ownSlots t ⊆ slots) (member : f ∈ t.fields) (h : Host) (ty : String) :
    ((h.allocate { ty, slots }).2.getDeclared? ⟨h.objects.size⟩ t.name f.name).isSome := by
  rw [isSome_getDeclared?, shape, object_allocate_self]
  simp only [List.contains_eq_mem, decide_eq_true_eq]
  have slot : (⟨t.name, f.name, .defaultOf f.ty⟩ : Slot) ∈ slots :=
    own (List.mem_map.2 ⟨f, member, rfl⟩)
  exact List.mem_map.2 ⟨_, slot, rfl⟩

/-- The host with a new object, after values are put into the fields that a type declares. -/
def addObject (h : Host) (object : HeapObject) (owner : String) (values : List (String × Value)) :
    Host :=
  (h.allocate object).2.putAll ⟨h.objects.size⟩ owner values

section AddObject

variable (h : Host) (object : HeapObject) (owner : String) (values : List (String × Value))

lemma exists_addObject : ∃ objects, h.addObject object owner values = { h with objects } ∧
    objects.size = h.objects.size + 1 := by
  obtain ⟨objects, same, size⟩ := exists_putAll (h.allocate object).2 ⟨h.objects.size⟩ owner values
  exact ⟨objects, same, size.trans (by simp [allocate])⟩

lemma shape_addObject_self : (h.addObject object owner values).shape ⟨h.objects.size⟩
    = (object.ty, object.slots.map fun s => (s.owner, s.name)) := by
  rw [addObject, shape_putAll, shape, object_allocate_self]

lemma object_addObject_of_lt {ref : ObjectRef} (old : ref.index < h.objects.size) :
    (h.addObject object owner values).object ref = h.object ref := by
  have other : (⟨h.objects.size⟩ : ObjectRef) ≠ ref := by
    rintro rfl
    exact Nat.lt_irrefl _ old
  rw [addObject, object_putAll_of_ne other, object_allocate_of_lt old]

end AddObject

/-- A new object of a type that has no supertype has these slots only. -/
lemma layout_eq_ok {u : Universe} {ty : String} {t : LoadedType} (found : u.find? ty = some t)
    (base : t.definition.supertype = none) :
    u.layout ty = .ok (Universe.ownSlots t.definition) := by
  have slots : u.slots? maxHierarchyDepth ty = some (Universe.ownSlots t.definition) := by
    rw [maxHierarchyDepth, Universe.slots?]
    simp only [found, base]
  rw [Universe.layout, found, slots]
  rfl

/-- A new object of a type has the slots of the type, and those of its supertypes behind them. -/
lemma exists_append_of_layout {u : Universe} {ty : String} {t : LoadedType} {slots : List Slot}
    (found : u.find? ty = some t) (layout : u.layout ty = .ok slots) :
    ∃ above, slots = Universe.ownSlots t.definition ++ above := by
  rw [Universe.layout, found] at layout
  generalize maxHierarchyDepth = bound at layout
  rw [Universe.slots?, found] at layout
  cases bound with
  | zero => cases layout
  | succ bound =>
  cases base : t.definition.supertype with
  | none =>
    simp only [base] at layout
    cases layout
    exact ⟨[], (List.append_nil _).symm⟩
  | some parent =>
    cases rest : u.slots? bound parent with
    | none =>
      simp only [base, rest] at layout
      cases layout
    | some above =>
      simp only [base, rest] at layout
      cases layout
      exact ⟨above, rfl⟩

end Host

namespace Engine

open Host

variable {e : Engine} {f : Frame} {h : Host} {ref : ObjectRef} {ty : String}

/-! ## Assigning constructors -/

/-- The body of an assigning constructor stores one argument after the other. The arguments before
`index` have been stored already. -/
lemma run_assignments {params : List Parameter} {before values : List Value} {index : UInt16}
    (args : f.args = before ++ values) (object : f.args[0]? = some (.object ref))
    (stored : before.length = index.toNat + 1) (count : before.length + params.length ≤ 65536)
    (length : values.length = params.length) (found : h.types.find? ty = some f.owner)
    (fields : ∀ p ∈ params, ∃ field, f.owner.definition.field? p.name = some field)
    (slots : ∀ p ∈ params, (h.getDeclared? ref ty p.name).isSome) :
    (e.runBody f [] (Method.assignments ty index params ++ [.ret])).run h
      = some (.ok [], h.putAll ref ty ((params.map (·.name)).zip values)) := by
  induction params generalizing before values index h with
  | nil =>
    rw [Method.assignments, List.nil_append, runBody_ret]
    rfl
  | cons p rest ih =>
    obtain ⟨value, values, rfl⟩ := List.exists_cons_of_length_eq_add_one length
    simp only [List.length_cons, Nat.add_right_cancel_iff] at count length
    -- there are few enough parameters for the index not to wrap
    have next : (index + 1).toNat = before.length := by
      have one : (1 : UInt16).toNat = 1 := rfl
      rw [UInt16.toNat_add, one, stored]
      exact Nat.mod_eq_of_lt (by omega)
    have argument : f.args[(index + 1).toNat]? = some value := by
      rw [args, next, List.getElem?_append_right (Nat.le_refl _), Nat.sub_self]
      rfl
    obtain ⟨field, declared⟩ := fields p List.mem_cons_self
    have usable : f.owner.CanUseMember f.owner field.visibility := by
      cases field.visibility <;> simp [LoadedType.CanUseMember]
    have slot := slots p List.mem_cons_self
    have body : Method.assignments ty index (p :: rest) ++ [.ret]
        = .loadArg 0 :: .loadArg (index + 1) :: .storeField ty p.name
          :: (Method.assignments ty (index + 1) rest ++ [.ret]) := rfl
    rw [body, runBody_cons_of_pure (by simp) (step_loadArg object),
      runBody_cons_of_pure (by simp) (step_loadArg argument), runBody_cons (by simp),
      Run.run_bind_of_ok (run_storeField found rfl declared usable slot)]
    have later : ∀ q ∈ rest,
        ((h.putDeclared ref ty p.name value).getDeclared? ref ty q.name).isSome := by
      intro q hq
      rw [isSome_getDeclared?, shape_putDeclared, ← isSome_getDeclared?]
      exact slots q (List.mem_cons_of_mem _ hq)
    have args' : f.args = (before ++ [value]) ++ values := by simpa using args
    have stored' : (before ++ [value]).length = (index + 1).toNat + 1 := by simp [next]
    have count' : (before ++ [value]).length + rest.length ≤ 65536 := by
      rw [List.length_append, List.length_singleton]
      omega
    exact ih args' stored' count' length found (fun q hq => fields q (List.mem_cons_of_mem _ hq))
      later

/-- A construction by an assigning constructor leaves a new object that has the arguments in the
fields of the parameters' names. -/
lemma run_construct_assigning {target : LoadedType} {ctor callee : Method} {values : List Value}
    {slots : List Slot} (found : h.types.find? ty = some target)
    (layout : h.types.layout ty = .ok slots)
    (concrete : (target.definition.isAbstract || target.definition.isInterface) = false)
    (declared : target.definition.constructor? ctor.id = some callee)
    (assigns : callee = { Method.assigning ctor.id ty ctor.params with
      visibility := callee.visibility
      markers := callee.markers })
    (named : target.definition.name = ty) (count : ctor.params.length ≤ 65535)
    (fields : ∀ p ∈ ctor.params, ∃ field, target.definition.field? p.name = some field)
    (length : values.length = ctor.params.length) (room : h.callDepth < maxCallDepth) :
    (unlimited.construct ty ctor.id values).run h
      = some (.ok (.object ⟨h.objects.size⟩),
        h.addObject { ty, slots } ty ((ctor.params.map (·.name)).zip values)) := by
  let object : HeapObject := { ty, slots }
  let ref : ObjectRef := ⟨h.objects.size⟩
  let h₁ := (h.allocate object).2
  have arity : (.object ref :: values).length = callee.arity := by
    rw [assigns]
    simp [Method.arity, Method.assigning, Method.newConstructor, length]
  have there : ∀ p ∈ ctor.params, (h₁.getDeclared? ref ty p.name).isSome := by
    intro p hp
    obtain ⟨field, declared⟩ := fields p hp
    have name : field.name = p.name := by simpa using List.find?_some declared
    obtain ⟨above, rfl⟩ := exists_append_of_layout found layout
    rw [← named, ← name]
    exact isSome_getDeclared?_allocate (List.subset_append_left _ above)
      (List.mem_of_find?_eq_some declared) h ty
  have body : (unlimited.runBody ⟨target, callee, .object ref :: values⟩ [] callee.body).run
      h₁.enterCall
        = some (.ok [], h₁.enterCall.putAll ref ty ((ctor.params.map (·.name)).zip values)) := by
    rw [assigns]
    have indices : [Value.object ref].length + ctor.params.length ≤ 65536 := by
      rw [List.length_singleton]
      omega
    exact run_assignments rfl rfl rfl indices length found fields there
  have executed : (unlimited.execute ⟨target, callee, .object ref :: values⟩).run h₁.enterCall
      = some (.ok none, h₁.enterCall.putAll ref ty ((ctor.params.map (·.name)).zip values)) := by
    refine run_execute_eq_ok_iff.2 ⟨[], body, ?_⟩
    rw [assigns]
    rfl
  have called : (unlimited.call target callee (.object ref :: values)).run h₁
      = some (.ok none, h₁.putAll ref ty ((ctor.params.map (·.name)).zip values)) := by
    rw [run_call_unlimited (h := h₁) arity room, Run.run_between, executed]
    exact congrArg (fun h => some (Except.ok none, h)) (leaveCall_putAll_enterCall h₁ ref ty _)
  rw [run_construct found concrete declared layout]
  exact Run.run_bind_of_ok called

end Engine
end Weaver
