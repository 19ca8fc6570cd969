import Weaver.Proofs.Engine.Bodies
import Weaver.Proofs.Host.Ancestry
import Weaver.Proofs.Host.Evolution
import Weaver.Proofs.Injection.Objects
import Weaver.Proofs.Weave.Registration

/-!
# Fields of objects

A new object has the fields of its type and of the types above it, each under the type that declares
it. Which fields those are is settled then, and later types change nothing about it. From then on a
field holds what was stored into it last, by whomever: instructions, injectors, embedding code. Fields
of one name that different types declare are different fields.

Four things live here:

* `Universe.Lineage`, the loaded types from a type upwards, which come to an end unless supertypes lead
  around in circles, and the layout of objects by them;
* `Host.Chronicle`, an evolution in which the stores are told apart, and what was stored last;
* `Host.KeepsFields`, what is true of fields on any host, and `Host.keepsFields`;
* `exists_filled_unstored`, a field that is filled although no code of the loaded types stores.
-/

namespace Weaver

/-- Whether an instruction neither stores nor runs other code. -/
def Instr.isPlain : Instr → Bool
  | storeField .. | newObject .. | call .. | resolve .. => false
  | _ => true

/-! ## Lineages -/

namespace Universe

variable {u : Universe} {ty name : String} {ts : List LoadedType} {n : ℕ}

/-- A type with the loaded types above it, up to the last. -/
inductive Lineage (u : Universe) : String → List LoadedType → Prop where
  | missing {ty : String} (missing : u.find? ty = none) : Lineage u ty []
  | top {ty : String} {t : LoadedType} (found : u.find? ty = some t)
      (top : t.definition.supertype = none) : Lineage u ty [t]
  | under {ty parent : String} {t : LoadedType} {ts : List LoadedType}
      (found : u.find? ty = some t) (declared : t.definition.supertype = some parent)
      (above : Lineage u parent ts) : Lineage u ty (t :: ts)

lemma lineage_iff_of_missing (missing : u.find? ty = none) : u.Lineage ty ts ↔ ts = [] := by
  constructor
  · intro lineage
    cases lineage with
    | missing => rfl
    | top found => exact nomatch missing.symm.trans found
    | under found => exact nomatch missing.symm.trans found
  · rintro rfl
    exact .missing missing

lemma lineage_iff_of_top {t : LoadedType} (found : u.find? ty = some t)
    (top : t.definition.supertype = none) : u.Lineage ty ts ↔ ts = [t] := by
  constructor
  · intro lineage
    cases lineage with
    | missing missing => exact nomatch missing.symm.trans found
    | top found' =>
      cases found.symm.trans found'
      rfl
    | under found' declared =>
      cases found.symm.trans found'
      exact nomatch top.symm.trans declared
  · rintro rfl
    exact .top found top

lemma lineage_iff_of_under {parent : String} {t : LoadedType} (found : u.find? ty = some t)
    (declared : t.definition.supertype = some parent) :
    u.Lineage ty ts ↔ ∃ upper, u.Lineage parent upper ∧ ts = t :: upper := by
  constructor
  · intro lineage
    cases lineage with
    | missing missing => exact nomatch missing.symm.trans found
    | top found' top =>
      cases found.symm.trans found'
      exact nomatch top.symm.trans declared
    | under found' declared' above =>
      cases found.symm.trans found'
      cases declared.symm.trans declared'
      exact ⟨_, above, rfl⟩
  · rintro ⟨upper, above, rfl⟩
    exact .under found declared above

/-- A type has one lineage at most. -/
lemma Lineage.unique {ts' : List LoadedType} (first : u.Lineage ty ts)
    (second : u.Lineage ty ts') : ts = ts' := by
  induction first generalizing ts' with
  | missing missing => exact ((lineage_iff_of_missing missing).1 second).symm
  | top found top => exact ((lineage_iff_of_top found top).1 second).symm
  | under found declared _ ih =>
    obtain ⟨upper, above, rfl⟩ := (lineage_iff_of_under found declared).1 second
    rw [ih above]

/-- The types of a lineage are the loaded ancestors, one after the other. -/
lemma Lineage.getElem? (lineage : u.Lineage ty ts) (n : ℕ) :
    ts[n]? = (u.ancestor? ty n).bind u.find? := by
  induction lineage generalizing n with
  | @missing ty missing =>
    have none : u.supertype? ty = none := by rw [supertype?, missing]; rfl
    cases n with
    | zero => simp [missing]
    | succ n => simp [ancestor?_succ, none]
  | @top ty t found top =>
    have none : u.supertype? ty = none := by rw [supertype?, found]; exact top
    cases n with
    | zero => simp [found]
    | succ n => simp [ancestor?_succ, none]
  | @under ty parent t ts found declared above ih =>
    have step : u.supertype? ty = some parent := by rw [supertype?, found]; exact declared
    cases n with
    | zero => simp [found]
    | succ n => simpa [ancestor?_succ, step] using ih n

/-- The types from an ancestor upwards are the lineage of the ancestor. -/
lemma Lineage.drop (lineage : u.Lineage ty ts) (above : u.ancestor? ty n = some name) :
    u.Lineage name (ts.drop n) := by
  induction lineage generalizing n with
  | @missing ty missing =>
    cases n with
    | zero =>
      cases above
      exact .missing missing
    | succ n =>
      rw [ancestor?_succ, supertype?, missing] at above
      cases above
  | @top ty t found top =>
    cases n with
    | zero =>
      cases above
      exact .top found top
    | succ n =>
      rw [ancestor?_succ, supertype?, found, Option.bind_some, top] at above
      cases above
  | @under ty parent t ts found declared rest ih =>
    cases n with
    | zero =>
      cases above
      exact .under found declared rest
    | succ n =>
      rw [ancestor?_succ, supertype?, found, Option.bind_some, declared] at above
      exact ih above

/-- A type with a lineage is above none of the types that lead up to it. -/
lemma Lineage.acyclic {m : ℕ} (lineage : u.Lineage ty ts) (here : u.ancestor? ty m = some name) :
    u.ancestor? name (n + 1) ≠ some name := by
  intro again
  have below := lineage.drop here
  have same := below.unique (below.drop again)
  -- the lineage would be longer than itself
  have loaded := isSome_find?_of_ancestor?_succ (n := 0) ancestor?_zero
    (exists_ancestor?_of_le (Nat.succ_le_succ (Nat.zero_le n)) again).choose_spec
  have first := below.getElem? 0
  rw [ancestor?_zero, Option.bind_some] at first
  have nonempty : 0 < (ts.drop m).length := by
    by_contra empty
    rw [List.getElem?_eq_none (by omega)] at first
    rw [← first] at loaded
    cases loaded
  have shorter := congrArg List.length same
  rw [List.length_drop (i := n + 1)] at shorter
  omega

/-- The fields of a type and those above it are laid out if the lineage is within the bound. -/
lemma slots?_eq_some_iff {bound : ℕ} {slots : List Slot} :
    u.slots? bound ty = some slots ↔
      ∃ ts, u.Lineage ty ts ∧ ts.length ≤ bound ∧ slots = ts.flatMap (ownSlots ·.definition) := by
  induction bound generalizing ty slots with
  | zero =>
    rw [slots?]
    cases found : u.find? ty with
    | none => simp [lineage_iff_of_missing found, eq_comm]
    | some t =>
      -- the lineage of a loaded type is not empty
      cases declared : t.definition.supertype with
      | none => simp [lineage_iff_of_top found declared]
      | some parent => simp [lineage_iff_of_under found declared]
  | succ bound ih =>
    rw [slots?]
    cases found : u.find? ty with
    | none => simp [lineage_iff_of_missing found, eq_comm]
    | some t =>
    dsimp only
    cases declared : t.definition.supertype with
    | none => simp [lineage_iff_of_top found declared, eq_comm]
    | some parent =>
      simp only [Option.map_eq_some_iff, ih, lineage_iff_of_under found declared]
      constructor
      · rintro ⟨_, ⟨upper, above, short, rfl⟩, rfl⟩
        exact ⟨t :: upper, ⟨upper, above, rfl⟩, Nat.succ_le_succ short, rfl⟩
      · rintro ⟨_, ⟨upper, above, rfl⟩, short, rfl⟩
        exact ⟨_, ⟨upper, above, Nat.le_of_succ_le_succ short, rfl⟩, rfl⟩

lemma layout_eq_ok {slots : List Slot} :
    u.layout ty = .ok slots ↔ (u.find? ty).isSome ∧ u.slots? maxHierarchyDepth ty = some slots := by
  rw [layout]
  cases u.find? ty with
  | none => simp
  | some t => cases u.slots? maxHierarchyDepth ty <;> simp

/-- A loaded type is laid out if its lineage is within the bound on hierarchies. -/
lemma layout_eq_ok_iff {slots : List Slot} : u.layout ty = .ok slots ↔
    ∃ t ts, u.Lineage ty (t :: ts) ∧ (t :: ts).length ≤ maxHierarchyDepth ∧
      slots = (t :: ts).flatMap (ownSlots ·.definition) := by
  rw [layout_eq_ok, slots?_eq_some_iff]
  constructor
  · rintro ⟨loaded, ts, lineage, short, rfl⟩
    have first := lineage.getElem? 0
    rw [ancestor?_zero, Option.bind_some] at first
    cases ts with
    | nil =>
      rw [← first] at loaded
      cases loaded
    | cons t ts => exact ⟨t, ts, lineage, short, rfl⟩
  · rintro ⟨t, ts, lineage, short, rfl⟩
    have first := lineage.getElem? 0
    rw [ancestor?_zero, Option.bind_some] at first
    exact ⟨by rw [← first]; rfl, t :: ts, lineage, short, rfl⟩

/-- A type that is not laid out is not loaded, or its lineage is too long or never ends. -/
lemma layout_eq_error {e : HostError} (refused : u.layout ty = .error e) :
    e = .execution (.unknownType ty) ∧ u.find? ty = none ∨
      e = .execution (.hierarchyTooDeep ty) ∧
        ∀ ts, u.Lineage ty ts → maxHierarchyDepth < ts.length := by
  rw [layout] at refused
  cases found : u.find? ty with
  | none =>
    rw [found] at refused
    cases refused
    exact .inl ⟨rfl, rfl⟩
  | some t =>
    rw [found, if_neg (by simp)] at refused
    cases laid : u.slots? maxHierarchyDepth ty with
    | some slots =>
      rw [laid] at refused
      cases refused
    | none =>
      rw [laid] at refused
      cases refused
      refine .inr ⟨rfl, fun ts lineage => Nat.lt_of_not_le fun short => ?_⟩
      cases laid.symm.trans (slots?_eq_some_iff.2 ⟨ts, lineage, short, rfl⟩)

/-! ### Slots -/

/-- Every type of a lineage is found by its name. -/
lemma Lineage.found (lineage : u.Lineage ty ts) {t : LoadedType} (member : t ∈ ts) :
    u.find? t.definition.name = some t := by
  obtain ⟨n, here⟩ := List.mem_iff_getElem?.1 member
  rw [lineage.getElem?, Option.bind_eq_some_iff] at here
  obtain ⟨name, -, found⟩ := here
  rw [key_of_find? (fun t : LoadedType => t.definition.name) found]
  exact found

/-- Among the slots that a type declares, the first of a name is that of its first field. -/
lemma find?_ownSlots (t : TypeDef) (owner name : String) :
    ((ownSlots t).find? fun s => s.owner == owner && s.name == name).map (·.value)
      = if t.name = owner then (t.field? name).map (.defaultOf ·.ty) else none := by
  rw [ownSlots, List.find?_map, Option.map_map, TypeDef.field?]
  by_cases own : t.name = owner
  · rw [if_pos own]
    simp only [Function.comp_def, own, beq_self_eq_true, Bool.true_and]
  · rw [if_neg own]
    simp [Function.comp_def, own]

/-- In a layout, the slot of a field that a type of the lineage declares has the default value. -/
lemma Lineage.find?_slots (lineage : u.Lineage ty ts) {t : LoadedType} (member : t ∈ ts)
    {declared : Field} (field : t.definition.field? name = some declared) :
    ((ts.flatMap (ownSlots ·.definition)).find? fun s =>
        s.owner == t.definition.name && s.name == name).map (·.value)
      = some (.defaultOf declared.ty) := by
  have same (t' : LoadedType) (other : t' ∈ ts) (named : t'.definition.name = t.definition.name) :
      t' = t := by
    have found := lineage.found other
    rw [named, lineage.found member] at found
    exact (Option.some.inj found).symm
  clear lineage
  induction ts with
  | nil => cases member
  | cons t' rest ih =>
    rw [List.flatMap_cons, List.find?_append, Option.map_or, find?_ownSlots]
    by_cases named : t'.definition.name = t.definition.name
    · rw [if_pos named, same t' List.mem_cons_self named, field]
      rfl
    · rw [if_neg named, Option.none_or]
      refine ih ?_ fun t' other => same t' (List.mem_cons_of_mem _ other)
      exact (List.mem_cons.1 member).resolve_left fun here => named (by rw [here])

end Universe

namespace Host

variable {h h' : Host} {ref : ObjectRef} {owner name : String}

/-! ## Chronicles -/

/-- A value that was put into a field of an object. -/
structure Store where
  ref : ObjectRef
  owner : String
  name : String
  value : Value

/-- The value that was stored last into a field of an object. -/
def lastStored (stores : List Store) (ref : ObjectRef) (owner name : String) : Option Value :=
  (stores.reverse.find? fun s => s.ref = ref ∧ s.owner = owner ∧ s.name = name).map (·.value)

/-- Acts one after the other, in which the stores are told apart, whoever stores. -/
inductive Chronicle (h : Host) : List Store → Host → Prop where
  | nil : Chronicle h [] h
  | quiet {stores : List Store} {h' h'' : Host} (before : Chronicle h stores h') (act : Act h' h'')
      (objects : h''.objects = h'.objects ∨ ∃ o, h''.objects = h'.objects.push o) :
      Chronicle h stores h''
  | store {stores : List Store} {h' h'' : Host} (before : Chronicle h stores h') (s : Store)
      (stored : h'.setDeclared? s.ref s.owner s.name s.value = some h'') :
      Chronicle h (stores ++ [s]) h''

lemma lastStored_append (stores : List Store) (s : Store) :
    lastStored (stores ++ [s]) ref owner name
      = if s.ref = ref ∧ s.owner = owner ∧ s.name = name then some s.value
        else lastStored stores ref owner name := by
  rw [lastStored, List.reverse_append, List.reverse_singleton, List.singleton_append,
    List.find?_cons]
  by_cases here : s.ref = ref ∧ s.owner = owner ∧ s.name = name
  · simp only [here, if_true, and_self, decide_true]
    rfl
  · simp only [here, if_false, decide_false]
    rfl

/-- An act stores, or leaves the objects as they are, or adds one. -/
lemma Act.stores_or (act : Act h h') :
    (∃ s : Store, h.setDeclared? s.ref s.owner s.name s.value = some h') ∨
      h'.objects = h.objects ∨ ∃ o, h'.objects = h.objects.push o := by
  cases act with
  | deed deed =>
    cases deed with
    | allocate object => exact .inr (.inr ⟨object, rfl⟩)
    | @store ref owner name value _ stored => exact .inl ⟨⟨ref, owner, name, value⟩, stored⟩
    | _ => exact .inr (.inl rfl)
  | configure ref step =>
    cases step with
    | fromInstance source =>
      cases source with
      | fresh ty => exact .inr (.inr ⟨{ ty }, rfl⟩)
      | _ => exact .inr (.inl rfl)
    | _ => exact .inr (.inl rfl)
  | _ => exact .inr (.inl rfl)

/-- Every evolution has a chronicle. -/
lemma Evolves.exists_chronicle (evolves : h.Evolves h') : ∃ stores, h.Chronicle stores h' := by
  induction evolves with
  | refl => exact ⟨[], .nil⟩
  | tail _ act ih =>
    obtain ⟨stores, before⟩ := ih
    rcases act.stores_or with ⟨s, stored⟩ | objects
    · exact ⟨_, before.store s stored⟩
    · exact ⟨_, before.quiet act objects⟩

namespace Chronicle

variable {stores : List Store}

lemma evolves (chronicle : h.Chronicle stores h') : h.Evolves h' := by
  induction chronicle with
  | nil => exact .refl h
  | quiet _ act _ ih => exact ih.trans (.act act)
  | store _ s stored ih => exact ih.trans (.act (.deed (.store stored)))

lemma one (s : Store) (stored : h.setDeclared? s.ref s.owner s.name s.value = some h') :
    h.Chronicle [s] h' :=
  (Chronicle.nil (h := h)).store s stored

/-- No object goes away, and none changes its type or its fields. -/
lemma shape (chronicle : h.Chronicle stores h') : h.objects.size ≤ h'.objects.size ∧
    ∀ ref, ref.index < h.objects.size → h'.shape ref = h.shape ref := by
  induction chronicle with
  | nil => exact ⟨Nat.le_refl _, fun _ _ => rfl⟩
  | quiet _ _ objects ih =>
    rcases objects with same | ⟨o, more⟩
    · refine ⟨same ▸ ih.1, fun ref old => ?_⟩
      rw [← ih.2 ref old]
      simp only [Host.shape, Host.object, same]
    · refine ⟨?_, fun ref old => ?_⟩
      · rw [more, Array.size_push]
        omega
      · rw [← ih.2 ref old]
        have other := Nat.ne_of_lt (old.trans_le ih.1)
        simp [Host.shape, Host.object, more, Array.getD_eq_getD_getElem?, Array.getElem?_push, other]
  | store _ s stored ih =>
    obtain ⟨-, rfl⟩ := setDeclared?_eq_some_iff.1 stored
    refine ⟨?_, fun ref old => ?_⟩
    · rw [putDeclared, Array.size_modify]
      exact ih.1
    · rw [shape_putDeclared, ih.2 ref old]

/-- A field holds what was stored into it last, and what it held before if nothing was. -/
lemma getDeclared? (chronicle : h.Chronicle stores h') (old : ref.index < h.objects.size) :
    h'.getDeclared? ref owner name
      = (h.getDeclared? ref owner name).map ((lastStored stores ref owner name).getD ·) := by
  induction chronicle with
  | nil => simp [lastStored]
  | quiet before _ objects ih =>
    rw [← ih]
    rcases objects with same | ⟨o, more⟩
    · simp only [Host.getDeclared?, slotValue?, Host.object, same]
    · have other := Nat.ne_of_lt (old.trans_le before.shape.1)
      simp [Host.getDeclared?, slotValue?, Host.object, more, Array.getD_eq_getD_getElem?,
        Array.getElem?_push, other]
  | store _ s stored ih =>
    obtain ⟨-, rfl⟩ := setDeclared?_eq_some_iff.1 stored
    rw [getDeclared?_putDeclared, ih, lastStored_append]
    split
    · rw [Option.map_map]
      rfl
    · rfl

end Chronicle

/-! ## Instructions -/

section Instructions

open Engine

variable {e : Engine} {f : Frame} {stack stack' : List Value}

/-- The checks that an instruction makes before it looks at a field pass: the type is loaded, it
declares the field, and the running method may use both. -/
def MayAccess (h : Host) (f : Frame) (owner name : String) : Prop :=
  (f.lookup owner >>= fun target => f.checkField target name).run h = some (.ok ⟨⟩, h)

lemma MayAccess.exists_field (may : h.MayAccess f owner name) :
    ∃ target declared, h.types.find? owner = some target ∧
      target.definition.field? name = some declared ∧
      (f.lookup owner).run h = some (.ok target, h) ∧
      (f.checkField target name).run h = some (.ok ⟨⟩, h) := by
  rw [MayAccess, Run.run_bind_eq_ok_iff] at may
  obtain ⟨target, h₁, looked, checked⟩ := may
  obtain ⟨rfl, found, -⟩ := of_lookup looked
  obtain ⟨-, declared, field, -⟩ := of_checkField checked
  exact ⟨target, declared, found, field, looked, checked⟩

/-- A load that passes the checks gives what the field holds. -/
lemma run_loadField {value : Value} (may : h.MayAccess f owner name)
    (held : h.getDeclared? ref owner name = some value) :
    (e.step f (.object ref :: stack) (.loadField owner name)).run h
      = some (.ok (value :: stack), h) := by
  obtain ⟨target, declared, -, -, looked, checked⟩ := may.exists_field
  rw [step]
  refine (Run.run_bind_of_ok looked).trans ((Run.run_bind_of_ok checked).trans ?_)
  simp only [Frame.popObject, Frame.pop, pure_bind]
  rw [Run.run_get_bind, held]
  rfl

/-- A store that ends well is one store, of the value on top into the object below it. -/
lemma exists_stored_of_storeField
    (ok : (e.step f stack (.storeField owner name)).run h = some (.ok stack', h')) :
    ∃ s : Store, s.owner = owner ∧ s.name = name ∧ stack = s.value :: .object s.ref :: stack' ∧
      h.setDeclared? s.ref s.owner s.name s.value = some h' := by
  obtain ⟨value, ref, rfl, stored⟩ := of_storeField ok
  exact ⟨⟨ref, owner, name, value⟩, rfl, rfl, rfl, stored⟩

/-- An instruction that neither stores nor runs other code leaves the objects as they are. -/
lemma objects_of_step {i : Instr} (plain : i.isPlain = true)
    (ok : (e.step f stack i).run h = some (.ok stack', h')) : h'.objects = h.objects := by
  cases i with
  | storeField | newObject | call | resolve => cases plain
  | loadArg index =>
    simp only [step] at ok
    split at ok <;> cases ok
    rfl
  | loadConst | ret =>
    cases ok
    rfl
  | loadField owner field =>
    rw [step, Run.run_bind_eq_ok_iff] at ok
    obtain ⟨target, h₁, looked, ok⟩ := ok
    obtain ⟨rfl, -⟩ := of_lookup looked
    rw [Run.run_bind_eq_ok_iff] at ok
    obtain ⟨_, h₂, checked, ok⟩ := ok
    obtain ⟨rfl, -⟩ := of_checkField checked
    rw [Run.run_bind_eq_ok_iff] at ok
    obtain ⟨⟨ref, rest⟩, h₃, popped, ok⟩ := ok
    obtain ⟨rfl, -⟩ := of_popObject popped
    rw [Run.run_get_bind] at ok
    split at ok <;> cases ok
    rfl
  | loadMethod owner method =>
    rw [step, Run.run_bind_eq_ok_iff] at ok
    obtain ⟨target, h₁, looked, ok⟩ := ok
    obtain ⟨rfl, -⟩ := of_lookup looked
    split at ok
    on_goal 2 => cases ok
    split at ok
    · cases ok
    rw [Run.run_bind_eq_ok_iff] at ok
    obtain ⟨_, h₂, checked, ok⟩ := ok
    obtain ⟨rfl, -⟩ := of_checkMember checked
    cases ok
    rfl
  | register kind ty =>
    rw [step, Run.run_bind_eq_ok_iff] at ok
    obtain ⟨⟨value, rest⟩, h₁, popped, ok⟩ := ok
    obtain ⟨rfl, -⟩ := of_pop popped
    cases value with
    | method handle =>
      rw [Run.run_bind_eq_ok_iff] at ok
      obtain ⟨_, h₂, registered, ok⟩ := ok
      obtain ⟨rfl, -⟩ := of_registerWoven registered
      cases ok
      rfl
    | _ => cases ok
  | upcast ty =>
    rw [step, Run.run_bind_eq_ok_iff] at ok
    obtain ⟨_, h₁, popped, ok⟩ := ok
    obtain ⟨rfl, -⟩ := of_pop popped
    rw [Run.run_get_bind] at ok
    split at ok <;> cases ok
    rfl
  | print | dup | pop =>
    rw [step, Run.run_bind_eq_ok_iff] at ok
    obtain ⟨_, h₁, popped, ok⟩ := ok
    obtain ⟨rfl, -⟩ := of_pop popped
    cases ok
    rfl

end Instructions

/-! ## New objects -/

lemma Evolves.of_instantiate {ty : String} {r : Except HostError Value}
    (run : (Run.instantiate ty).run h = some (r, h')) : h.Evolves h' :=
  law_evolves.toRule.instantiate ty run

/-- A field of a new object holds the default of the type that it is declared with. -/
lemma getDeclared?_of_instantiate {ty : String} {t : LoadedType} {ts : List LoadedType}
    {declared : Field} (made : (Run.instantiate ty).run h = some (.ok (.object ref), h'))
    (lineage : h.types.Lineage ty ts) (member : t ∈ ts)
    (field : t.definition.field? name = some declared) :
    ref.index < h'.objects.size ∧
      h'.getDeclared? ref t.definition.name name = some (.defaultOf declared.ty) := by
  obtain ⟨slots, laid, same, rfl⟩ := run_instantiate_eq_ok_iff.1 made
  cases same
  obtain ⟨t', ts', lineage', -, rfl⟩ := Universe.layout_eq_ok_iff.1 laid
  cases lineage.unique lineage'
  refine ⟨by simp [allocate], ?_⟩
  show ((((h.allocate _).2.object ⟨h.objects.size⟩).slots.find? _).map (·.value)) = _
  rw [object_allocate_self]
  exact lineage.find?_slots member field

/-! ## What is true of fields -/

/-- The fields of new objects on a host with any types, and what they hold later. -/
structure KeepsFields (h : Host) : Prop where
  /-- An object of a type can be made exactly if the type is loaded and its lineage ends within the
  bound. Its fields are those of the types of the lineage, in order, each with the type that declares
  it and with the default value of its own type. -/
  made {ty : String} {value : Value} {h' : Host} :
    (Run.instantiate ty).run h = some (.ok value, h') ↔
      ∃ t ts, h.types.Lineage ty (t :: ts) ∧ (t :: ts).length ≤ maxHierarchyDepth ∧
        value = .object ⟨h.objects.size⟩ ∧
        h' = (h.allocate { ty, slots := (t :: ts).flatMap (Universe.ownSlots ·.definition) }).2
  /-- Otherwise the type is not loaded, or its lineage is longer or has no end, and nothing is
  changed. -/
  refused {ty : String} {e : HostError} {h' : Host} :
    (Run.instantiate ty).run h = some (.error e, h') → h' = h ∧
      (e = .execution (.unknownType ty) ∧ h.types.find? ty = none ∨
        e = .execution (.hierarchyTooDeep ty) ∧
          ∀ ts, h.types.Lineage ty ts → maxHierarchyDepth < ts.length)
  /-- A lineage is made of the loaded ancestors, one after the other, -/
  lineage {ty : String} {ts : List LoadedType} : h.types.Lineage ty ts →
    ∀ n, ts[n]? = (h.types.ancestor? ty n).bind h.types.find?
  /-- and none of them is its own ancestor. -/
  acyclic {ty name : String} {ts : List LoadedType} {m n : ℕ} : h.types.Lineage ty ts →
    h.types.ancestor? ty m = some name → h.types.ancestor? name (n + 1) ≠ some name
  /-- Whatever happens later is a chronicle, from this state or from one that it leads to, -/
  chronicle {h' : Host} : h.Evolves h' ↔ ∃ stores, h.Chronicle stores h'
  /-- and so is what embedding code does, whatever it ends in, -/
  operation {op : Operation} {r : Except HostError Unit} {h' : Host} :
    op.perform.run h = some (r, h') → ∃ stores, h.Chronicle stores h'
  /-- with one store for each instruction that stores, -/
  storeField {e : Engine} {f : Engine.Frame} {stack stack' : List Value} {owner name : String}
    {h' : Host} : (e.step f stack (.storeField owner name)).run h = some (.ok stack', h') →
      ∃ s : Store, s.owner = owner ∧ s.name = name ∧ stack = s.value :: .object s.ref :: stack' ∧
        h.Chronicle [s] h'
  /-- and with none for those that run no other code. -/
  plain {e : Engine} {f : Engine.Frame} {i : Instr} {stack stack' : List Value} {h' : Host} :
    i.isPlain = true → (e.step f stack i).run h = some (.ok stack', h') → h'.objects = h.objects
  /-- Types of objects, and which fields they have, never change. -/
  shape {stores : List Store} {h' : Host} {ref : ObjectRef} : h.Chronicle stores h' →
    ref.index < h.objects.size → h'.shape ref = h.shape ref
  /-- A field holds what was stored into it last, whatever was stored into others. -/
  holds {stores : List Store} {h' : Host} {ref : ObjectRef} {owner name : String} :
    h.Chronicle stores h' → ref.index < h.objects.size → h'.getDeclared? ref owner name
      = (h.getDeclared? ref owner name).map ((lastStored stores ref owner name).getD ·)
  /-- A load that the checks permit, from a field of a type that the object was made with, gives what
  was stored last or else the default value. -/
  loads {ty owner name : String} {ref : ObjectRef} {h₁ h' : Host} {t : LoadedType}
    {ts : List LoadedType} {stores : List Store} {e : Engine} {f : Engine.Frame}
    {stack : List Value} : (Run.instantiate ty).run h = some (.ok (.object ref), h₁) →
      h.types.Lineage ty ts → t ∈ ts → t.definition.name = owner → h₁.Chronicle stores h' →
      h'.MayAccess f owner name → ∃ declared, t.definition.field? name = some declared ∧
        (e.step f (.object ref :: stack) (.loadField owner name)).run h' = some
          (.ok ((lastStored stores ref owner name).getD (.defaultOf declared.ty) :: stack), h')

/-- Every host keeps fields so. -/
theorem keepsFields (h : Host) : h.KeepsFields where
  made {ty value h'} := by
    rw [run_instantiate_eq_ok_iff]
    constructor
    · rintro ⟨slots, laid, rfl, rfl⟩
      obtain ⟨t, ts, lineage, short, rfl⟩ := Universe.layout_eq_ok_iff.1 laid
      exact ⟨t, ts, lineage, short, rfl, rfl⟩
    · rintro ⟨t, ts, lineage, short, rfl, rfl⟩
      exact ⟨_, Universe.layout_eq_ok_iff.2 ⟨t, ts, lineage, short, rfl⟩, rfl, rfl⟩
  refused {ty e h'} run := by
    rw [Run.instantiate, Run.run_get_bind] at run
    cases laid : h.types.layout ty with
    | ok slots =>
      rw [laid] at run
      cases run
    | error e =>
      rw [laid] at run
      cases run
      exact ⟨rfl, Universe.layout_eq_error laid⟩
  lineage lineage := lineage.getElem?
  acyclic lineage here := lineage.acyclic here
  chronicle := ⟨Evolves.exists_chronicle, fun ⟨_, chronicle⟩ => chronicle.evolves⟩
  operation run := (Operation.evolves run).exists_chronicle
  storeField ok := by
    obtain ⟨s, owner, name, split, stored⟩ := exists_stored_of_storeField ok
    exact ⟨s, owner, name, split, .one s stored⟩
  plain := objects_of_step
  shape chronicle old := chronicle.shape.2 _ old
  holds chronicle old := chronicle.getDeclared? old
  loads {ty owner name ref h₁ h' t ts stores e f stack} made lineage member named chronicle may := by
    subst named
    -- the type is still the one that the object was made with
    obtain ⟨target, declared, found, field, -⟩ := may.exists_field
    have reached : h.Evolves h' := (Evolves.of_instantiate made).trans chronicle.evolves
    cases (reached.find?_types (lineage.found member)).symm.trans found
    obtain ⟨new, first⟩ := getDeclared?_of_instantiate made lineage member field
    refine ⟨declared, field, run_loadField may ?_⟩
    rw [chronicle.getDeclared? new, first]
    rfl

/-! ## A field that no instruction fills -/

/-- A class with a field to inject and a method that loads it. -/
def basket : Module :=
  { name := "Basket"
    types :=
      [TypeDef.newClass (Uuid.numbered 1) "Basket.Bowl",
        ((TypeDef.newClass (Uuid.numbered 2) "Basket.Dog").addField
            (Field.injected (Uuid.numbered 3) "bowl" objectType)).addMethod
          { Method.newStatic (Uuid.numbered 4) "Look" with
            visibility := .everywhere
            params := [⟨"dog", "Basket.Dog"⟩]
            returnType := some objectType
            body := [.loadArg 0, .loadField "Basket.Dog" "bowl", .ret] }] }

/-- No code of the loaded types stores into any field, and yet a field does not hold its default: the
injector that the fallback supplies has filled it. -/
theorem exists_filled_unstored :
    ∃ h₁ h₂ h₃ h₄ : Host, ∃ report dog value,
      (load basket).run (Host.new { fallback := true }) = some (.ok report, h₁) ∧
      (Run.instantiate "Basket.Dog").run (h₁.addContainer.2.declareWith ⟨0⟩ objectType
        [.madeAs "Basket.Bowl", .asSingleton]) = some (.ok (.object dog), h₂) ∧
      (inject ⟨0⟩ (.object dog)).run h₂ = some (.ok ⟨⟩, h₃) ∧
      (invoke "Basket.Dog" "Look" [.object dog]).run h₃ = some (.ok (some value), h₄) ∧
      value ≠ .defaultOf objectType ∧
      ∀ t ∈ h₄.types, ∀ x ∈ t.definition.constructors ++ t.definition.methods,
        ∀ owner name, .storeField owner name ∉ x.body := by
  refine ⟨_, _, _, _, _, ⟨0⟩, .object ⟨1⟩, rfl, rfl, rfl, rfl, ?_, ?_⟩
  · exact nofun
  · intro t loaded x member owner name
    have types : t ∈ basket.types.map fun t => (⟨"Basket", t⟩ : LoadedType) := loaded
    simp only [basket, List.map_cons, List.map_nil, List.mem_cons, List.not_mem_nil,
      or_false] at types
    rcases types with rfl | rfl
    · cases member
    · rw [List.mem_singleton.1 member]
      simp

end Host
end Weaver
