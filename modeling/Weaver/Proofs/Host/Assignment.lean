import Weaver.Proofs.Host.Fields

/-!
# Constructions that assign

A constructor that assigns its parameters stores one argument after the other, as many as argument
indices reach. It may have parameters of one name: then the field holds the argument that was stored
last. A supertype may declare fields of the same names, which are other fields and are left alone.

Three things live here:

* `Host.slotsWith`, the slots of the fields of a type, and what stores make of them;
* `lastArgument`, the argument that is stored last for a name;
* `TypeDef.AssignsBy` and `Host.construct_assigning`, the outcome of a construction.
-/

namespace Weaver

/-! ## Arguments -/

section Arguments

variable {params : List Parameter} {args : List Value} {name : String}

/-- From the end of a list, its first entry is reached last. -/
lemma lookup_reverse_cons (v : String × Value) (values : List (String × Value)) (name : String) :
    (v :: values).reverse.lookup name
      = (values.reverse.lookup name).or (if name = v.1 then some v.2 else none) := by
  rw [List.reverse_cons, List.lookup_append, List.lookup_cons, List.lookup_nil]
  by_cases here : name = v.1
  · rw [if_pos here, beq_iff_eq.2 here]
  · rw [if_neg here, beq_eq_false_iff_ne.2 here]

/-- The argument for the last parameter of a name. -/
def lastArgument (params : List Parameter) (args : List Value) (name : String) : Option Value :=
  ((params.map (·.name)).zip args).reverse.lookup name

lemma lastArgument_cons (p : Parameter) (v : Value) (params : List Parameter) (args : List Value)
    (name : String) : lastArgument (p :: params) (v :: args) name
      = (lastArgument params args name).or (if name = p.name then some v else none) :=
  lookup_reverse_cons (p.name, v) _ name

/-- There is no argument for a name that no parameter has. -/
lemma lastArgument_eq_none (absent : ∀ p ∈ params, p.name ≠ name) :
    lastArgument params args name = none := by
  induction params generalizing args with
  | nil => rfl
  | cons p rest ih =>
    cases args with
    | nil => rfl
    | cons v args =>
      have later : lastArgument rest args name = none := by
        apply ih
        intro q member
        exact absent q (List.mem_cons_of_mem _ member)
      rw [lastArgument_cons, later, if_neg (absent p List.mem_cons_self).symm]
      rfl

/-- The argument is that of a parameter behind which no other has the name. -/
lemma lastArgument_eq_some {i : ℕ} {p : Parameter} {v : Value} (param : params[i]? = some p)
    (arg : args[i]? = some v) (last : ∀ j q, i < j → params[j]? = some q → q.name ≠ p.name) :
    lastArgument params args p.name = some v := by
  induction params generalizing args i with
  | nil => cases param
  | cons first rest ih =>
    cases args with
    | nil => cases arg
    | cons v' args =>
      rw [lastArgument_cons]
      cases i with
      | zero =>
        cases param
        cases arg
        have absent : ∀ q ∈ rest, q.name ≠ p.name := by
          intro q member
          obtain ⟨j, there⟩ := List.mem_iff_getElem?.1 member
          exact last (j + 1) q (Nat.succ_pos j) there
        rw [lastArgument_eq_none absent, if_pos rfl]
        rfl
      | succ i =>
        have later : lastArgument rest args p.name = some v := by
          apply ih param arg
          intro j q after there
          exact last (j + 1) q (Nat.succ_lt_succ after) there
        rw [later]
        rfl

end Arguments

namespace Host

variable {h : Host} {ty owner name : String} {value : Value} {fields : List Field}

/-! ## Slots -/

/-- The slots of the fields that a type declares, with values. -/
def slotsWith (owner : String) (fields : List Field) (held : Field → Value) : List Slot :=
  fields.map fun f => { owner, name := f.name, value := held f }

/-- A store reaches the slot of the field, whatever slots are behind those of the type. -/
lemma storeSlot_slotsWith (distinct : (fields.map (·.name)).Nodup)
    (declared : ∃ f ∈ fields, f.name = name) (held : Field → Value) (above : List Slot) :
    storeSlot owner name value (slotsWith owner fields held ++ above)
      = slotsWith owner fields (fun f => if f.name = name then value else held f) ++ above := by
  induction fields with
  | nil =>
    obtain ⟨_, member, _⟩ := declared
    cases member
  | cons f rest ih =>
    rw [List.map_cons, List.nodup_cons] at distinct
    unfold slotsWith at ih ⊢
    rw [List.map_cons, List.map_cons, List.cons_append, List.cons_append, storeSlot]
    by_cases here : f.name = name
    · -- the names are distinct, so the slots that follow are as they were
      have others : ∀ f' ∈ rest, f'.name ≠ name := by
        intro f' member same
        apply distinct.1
        rw [here, ← same]
        exact List.mem_map_of_mem member
      simp only [here, beq_self_eq_true, Bool.and_self, if_true, List.cons.injEq, true_and]
      congr 1
      apply List.map_congr_left
      intro f' member
      rw [if_neg (others f' member)]
    · have later : ∃ f' ∈ rest, f'.name = name := by
        obtain ⟨f', member, named⟩ := declared
        rcases List.mem_cons.1 member with rfl | member
        · exact absurd named here
        · exact ⟨f', member, named⟩
      have apart : ((owner == owner) && (f.name == name)) = false := by simpa using here
      simp only [apart, here, if_false, Bool.false_eq_true]
      rw [ih distinct.2 later]

/-- After many stores, each field holds what was stored into it last. -/
lemma foldl_storeSlot_slotsWith {values : List (String × Value)}
    (distinct : (fields.map (·.name)).Nodup) (declared : ∀ v ∈ values, ∃ f ∈ fields, f.name = v.1)
    (owner : String) (held : Field → Value) (above : List Slot) :
    values.foldl (fun slots v => storeSlot owner v.1 v.2 slots)
        (slotsWith owner fields held ++ above)
      = slotsWith owner fields (fun f => (values.reverse.lookup f.name).getD (held f))
        ++ above := by
  induction values generalizing held with
  | nil => rfl
  | cons v rest ih =>
    have first := declared v List.mem_cons_self
    have later : ∀ v' ∈ rest, ∃ f ∈ fields, f.name = v'.1 := by
      intro v' member
      exact declared v' (List.mem_cons_of_mem _ member)
    rw [List.foldl_cons, storeSlot_slotsWith distinct first, ih later]
    congr 2
    funext f
    rw [lookup_reverse_cons]
    cases rest.reverse.lookup f.name with
    | some stored => rfl
    | none =>
      rw [Option.none_or]
      split <;> rfl

lemma modify_push {α : Type} (as : Array α) (a : α) (f : α → α) :
    (as.push a).modify as.size f = as.push (f a) := by
  apply Array.ext
  · simp
  · intro i inside _
    rw [Array.size_modify, Array.size_push] at inside
    rcases Nat.lt_succ_iff_lt_or_eq.1 inside with old | rfl
    · simp [Array.getElem_modify, Array.getElem_push_lt old, Nat.ne_of_gt old]
    · simp [Array.getElem_modify]

/-- A store into a new object is a store into the slots that it is made with. -/
lemma putDeclared_allocate (h : Host) (object : HeapObject) (owner name : String) (value : Value) :
    (h.allocate object).2.putDeclared ⟨h.objects.size⟩ owner name value
      = (h.allocate { object with slots := storeSlot owner name value object.slots }).2 := by
  unfold allocate putDeclared
  rw [modify_push]

lemma addObject_eq (h : Host) (object : HeapObject) (owner : String)
    (values : List (String × Value)) :
    h.addObject object owner values = (h.allocate { object with
      slots := values.foldl (fun slots v => storeSlot owner v.1 v.2 slots) object.slots }).2 := by
  unfold addObject
  induction values generalizing object with
  | nil => rfl
  | cons v rest ih => rw [putAll_cons, putDeclared_allocate, ih, List.foldl_cons]

end Host

/-! ## Constructions -/

/-- The lineage of a type leads back to the type from nowhere. -/
lemma Universe.Lineage.name_ne {u : Universe} {ty : String} {t : LoadedType}
    {above : List LoadedType} (lineage : u.Lineage ty (t :: above)) :
    ∀ t' ∈ above, t'.definition.name ≠ ty := by
  rintro t' member rfl
  obtain ⟨n, there⟩ := List.mem_iff_getElem?.1 member
  have place : (t :: above)[n + 1]? = some t' := there
  rw [lineage.getElem?, Option.bind_eq_some_iff] at place
  obtain ⟨name, again, found⟩ := place
  have named := key_of_find? (fun t : LoadedType => t.definition.name) found
  apply lineage.acyclic ancestor?_zero (n := n)
  rw [again, named]

/-- A class that can be made with a constructor which assigns its parameters to fields of the
class. -/
structure TypeDef.AssignsBy (t : TypeDef) (ctor : Uuid) (params : List Parameter) : Prop where
  concrete : (t.isAbstract || t.isInterface) = false
  distinct : (t.fields.map (·.name)).Nodup
  constructor : ∃ callee, t.constructor? ctor = some callee ∧
    callee = { Method.assigning ctor t.name params with
      visibility := callee.visibility
      markers := callee.markers }
  count : params.length ≤ 65535
  stored : ∀ p ∈ params, ∃ f ∈ t.fields, f.name = p.name

namespace Host

/-- A construction by an assigning constructor makes one new object and does nothing else. In the
object, the fields of the class hold the last arguments for their names. Fields that no parameter
names, and all those of supertypes, hold their defaults. -/
theorem construct_assigning {h h₁ : Host} {ty : String} {target : LoadedType} {ctor : Uuid}
    {params : List Parameter} {args : List Value} {made : Value}
    (found : h.types.find? ty = some target) (assigns : target.definition.AssignsBy ctor params)
    (accepted : (Run.instantiate ty).run h = some (.ok made, h₁))
    (length : args.length = params.length) (room : h.callDepth < maxCallDepth) :
    ∃ above, h.types.Lineage ty (target :: above) ∧ (∀ t ∈ above, t.definition.name ≠ ty) ∧
      (construct ty ctor args).run h = some (.ok (.object ⟨h.objects.size⟩), { h with
        objects := h.objects.push {
          ty
          slots := slotsWith ty target.definition.fields
              (fun f => (lastArgument params args f.name).getD (.defaultOf f.ty))
            ++ above.flatMap (Universe.ownSlots ·.definition) } }) ∧
      (∀ (i : ℕ) (p : Parameter) (v : Value), params[i]? = some p → args[i]? = some v →
        (∀ (j : ℕ) (q : Parameter), i < j → params[j]? = some q → q.name ≠ p.name) →
          lastArgument params args p.name = some v) ∧
      ∀ name, (∀ p ∈ params, p.name ≠ name) → lastArgument params args name = none := by
  obtain ⟨slots, layout, -⟩ := run_instantiate_eq_ok_iff.1 accepted
  obtain ⟨t, above, lineage, -, rfl⟩ := Universe.layout_eq_ok_iff.1 layout
  have first := lineage.getElem? 0
  rw [Universe.ancestor?_zero, Option.bind_some, found] at first
  cases first
  have named : target.definition.name = ty :=
    key_of_find? (fun t : LoadedType => t.definition.name) found
  refine ⟨above, lineage, lineage.name_ne, ?_, fun i p v => lastArgument_eq_some,
    fun name => lastArgument_eq_none⟩
  obtain ⟨callee, declared, same⟩ := assigns.constructor
  have id : callee.id = ctor := congrArg Method.id same
  have parameters : callee.params = params := congrArg Method.params same
  subst id parameters named
  have fields : ∀ p ∈ callee.params, ∃ f, target.definition.field? p.name = some f := by
    intro p member
    obtain ⟨f, there, named⟩ := assigns.stored p member
    exact ⟨f, named ▸ find?_key_of_mem Field.name assigns.distinct there⟩
  have stored : ∀ v ∈ (callee.params.map (·.name)).zip args,
      ∃ f ∈ target.definition.fields, f.name = v.1 := by
    intro v member
    obtain ⟨p, there, named⟩ := List.mem_map.1 (List.of_mem_zip member).1
    obtain ⟨f, declared, same⟩ := assigns.stored p there
    exact ⟨f, declared, same.trans named⟩
  rw [Engine.construct_unlimited, Engine.run_construct_assigning found layout assigns.concrete
    declared same rfl assigns.count fields length room, addObject_eq]
  have held := foldl_storeSlot_slotsWith assigns.distinct stored target.definition.name
    (.defaultOf ·.ty) (above.flatMap (Universe.ownSlots ·.definition))
  exact congrArg (fun slots => some (Except.ok (Value.object ⟨h.objects.size⟩), (h.allocate
    { ty := target.definition.name, slots }).2)) held

/-- A class with a field that its supertype has as well, and a constructor that assigns it twice. -/
def pony : TypeDef :=
  { id := .numbered 1
    name := "Paddock.Pony"
    supertype := some "Paddock.Horse"
    fields :=
      [{ id := .numbered 2, name := "name", ty := stringType },
        { id := .numbered 3, name := "age", ty := intType },
        { id := .numbered 4, name := "owner", ty := stringType }]
    constructors :=
      [.assigning (.numbered 5) "Paddock.Pony"
        [⟨"name", stringType⟩, ⟨"age", intType⟩, ⟨"name", stringType⟩]] }

/-- A module of the class and its supertype. -/
def paddock : Module :=
  { name := "Paddock"
    types :=
      [(TypeDef.newClass (.numbered 6) "Paddock.Horse").addField
          { id := .numbered 7, name := "name", ty := stringType },
        pony] }

/-- One call below the limit, a pony gets the second of two names and its age. Its owner, and the
name that it has as a horse, are not assigned. -/
theorem construct_assigning_pony :
    ∃ h h₁ h₂ h₃ : Host, ∃ report made,
      (load paddock).run (Host.new {}) = some (.ok report, h) ∧
      h₁ = { h with callDepth := maxCallDepth - 1 } ∧
      (Run.instantiate "Paddock.Pony").run h₁ = some (.ok made, h₂) ∧
      (construct "Paddock.Pony" (.numbered 5) [.text "Rex", .int 3, .text "Max"]).run h₁
        = some (.ok (.object ⟨0⟩), h₃) ∧
      h₃.object ⟨0⟩ = {
        ty := "Paddock.Pony"
        slots :=
          [⟨"Paddock.Pony", "name", .text "Max"⟩, ⟨"Paddock.Pony", "age", .int 3⟩,
            ⟨"Paddock.Pony", "owner", .null⟩, ⟨"Paddock.Horse", "name", .null⟩] } := by
  let h₁ : Host := { (Host.new {}).addModule paddock with callDepth := maxCallDepth - 1 }
  have assigns : pony.AssignsBy (.numbered 5)
      [⟨"name", stringType⟩, ⟨"age", intType⟩, ⟨"name", stringType⟩] :=
    { concrete := rfl
      distinct := by decide
      constructor := ⟨_, rfl, rfl⟩
      count := by decide
      stored := by decide }
  have found : h₁.types.find? "Paddock.Pony" = some ⟨"Paddock", pony⟩ := rfl
  have accepted : (Run.instantiate "Paddock.Pony").run h₁
      = some (.ok (.object ⟨0⟩), (h₁.allocate _).2) := rfl
  have length : [Value.text "Rex", .int 3, .text "Max"].length = 3 := rfl
  have room : h₁.callDepth < maxCallDepth := by decide
  have ⟨above, lineage, _, run, _⟩ := construct_assigning found assigns accepted length room
  -- the class has one supertype
  cases lineage.unique (.under rfl rfl (.top rfl rfl))
  exact ⟨_, h₁, _, _, _, _, rfl, rfl, accepted, run, by decide⟩

end Host
end Weaver
