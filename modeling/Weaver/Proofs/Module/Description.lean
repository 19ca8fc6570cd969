import Mathlib.Data.List.Nodup
import Mathlib.Data.List.Perm.Basic
import Mathlib.Tactic.Common
import Weaver.Module.Description
import Weaver.Proofs.Json.Values
import Weaver.Proofs.Uuid

/-!
# Descriptions there and back

A module is read from the description that is written for it, and from every description that comes
from it by harmless changes: members in another order, members left out that have their default, and
members added that no record knows.

Four things live here:

* `Change` and `Harmless`, the changes that are harmless, record by record;
* `record?_of_change`, by which the fields of a record are found in any order and among others;
* one lemma for each part of a module, by which the part is read from what its description has been
  changed to, and `module_of_harmless` for the whole;
* `legible_toJson`, by which descriptions are written so that they can be read.
-/

namespace Weaver.Description

/-! ## Harmless changes -/

/-- What a value may be changed to. -/
abbrev Change := Json → Json → Prop

/-- A field of a record: its name, the value for which it may be left out if there is one, and what
may be changed inside its value. -/
structure Slot where
  name : String
  default : Option Json := none
  inside : Change := Eq

/-- What is left of a field: its value, changed inside, or nothing if it has its default. -/
inductive Slot.Leaves (slot : Slot) (value : Json) : Option Json → Prop where
  | kept {value' : Json} (inside : slot.inside value value') : slot.Leaves value (some value')
  | dropped (default : slot.default = some value) : slot.Leaves value none

/-- What is left of the fields of a record. -/
inductive Leaves : List Slot → List (Option String × Json) → List (Option Json) → Prop where
  | nil : Leaves [] [] []
  | cons {slot : Slot} {slots : List Slot} {value : Json} {members : List (Option String × Json)}
      {value' : Option Json} {left : List (Option Json)} (first : slot.Leaves value value')
      (rest : Leaves slots members left) :
      Leaves (slot :: slots) ((some slot.name, value) :: members) (value' :: left)

/-- The members for the fields that are left. -/
def present (slots : List Slot) (left : List (Option Json)) : List (Option String × Json) :=
  (slots.zip left).filterMap fun (slot, value) => value.map (some slot.name, ·)

namespace Change

/-- The items of an array are changed one by one. -/
inductive Items (change : Change) : Change where
  | intro {js js' : List Json} (each : List.Forall₂ change js js') :
      Items change (.array js) (.array js')

/-- Null stays, any other value is changed. -/
inductive OrNull (change : Change) : Change where
  | null : OrNull change .null .null
  | other {j j' : Json} (changed : change j j') : OrNull change j j'

/-- Fields of a record are left out or changed inside, members with other names are added, and all
of them are put in any order. -/
inductive Record (slots : List Slot) : Change where
  | intro {members members' : List (Option String × Json)} {left : List (Option Json)}
      {unknown : List (String × Json)} (leaves : Leaves slots members left)
      (others : ∀ member ∈ unknown, member.1 ∉ slots.map Slot.name)
      (order : members'.Perm (present slots left ++ unknown.map fun (k, v) => (some k, v))) :
      Record slots (.object members) (.object members')

end Change

/-! ### Records of a module -/

/-- The names of the operands of an instruction that has such. -/
def operandNames : String → List String
  | "LoadField" | "StoreField" => ["owner", "field"]
  | "NewObj" => ["owner", "ctor"]
  | "Call" | "LoadMethod" => ["owner", "method"]
  | "Resolve" | "Upcast" => ["ty"]
  | "Register" => ["kind", "ty"]
  | _ => []

/-- Operands with names are a record; nothing else is changed in an instruction. -/
def Change.Instruction (j j' : Json) : Prop :=
  match variant? j with
  | some (name, some content) =>
    if operandNames name = [] then j' = j
    else ∃ content', j' = tagged name content' ∧
      Change.Record ((operandNames name).map ({ name := · })) content content'
  | _ => j' = j

/-- The fields of a parameter. -/
def parameterSlots : List Slot :=
  [{ name := "name" }, { name := "ty" }]

/-- The fields of a field. -/
def fieldSlots : List Slot :=
  [{ name := "id" }, { name := "name" }, { name := "ty" },
   { name := "visibility", default := some (.str "Private") },
   { name := "annotations", default := some (.array []) }]

/-- The fields of a method or constructor. -/
def methodSlots : List Slot :=
  [{ name := "id" }, { name := "name" },
   { name := "visibility", default := some (.str "Private") },
   { name := "is_static", default := some (.bool false) },
   { name := "params", default := some (.array []), inside := .Items (.Record parameterSlots) },
   { name := "return_type", default := some .null },
   { name := "annotations", default := some (.array []) },
   { name := "body", default := some (.array []), inside := .Items .Instruction }]

/-- The fields of a type. -/
def typeSlots : List Slot :=
  [{ name := "id" }, { name := "name" },
   { name := "visibility", default := some (.str "Private") },
   { name := "kind", default := some (.str "Class") },
   { name := "is_abstract", default := some (.bool false) },
   { name := "supertype", default := some .null },
   { name := "interfaces", default := some (.array []) },
   { name := "fields", default := some (.array []), inside := .Items (.Record fieldSlots) },
   { name := "constructors", default := some (.array []), inside := .Items (.Record methodSlots) },
   { name := "methods", default := some (.array []), inside := .Items (.Record methodSlots) }]

/-- The fields of a stamp. -/
def stampSlots : List Slot :=
  [{ name := "tool_version" }, { name := "source_hash" }, { name := "factories" },
   { name := "injectors" }]

/-- The fields of a module. -/
def moduleSlots : List Slot :=
  [{ name := "name" }, { name := "references", default := some (.array []) },
   { name := "types", default := some (.array []), inside := .Items (.Record typeSlots) },
   { name := "stamp", default := some .null, inside := .OrNull (.Record stampSlots) }]

/-- The harmless changes of the description of a module. -/
def Harmless : Change := .Record moduleSlots

/-! ### No change -/

namespace Change

lemma items_refl {α : Type} {change : Change} {write : α → Json}
    (refl : ∀ a, change (write a) (write a)) (as : List α) :
    Change.Items change (.array (as.map write)) (.array (as.map write)) := by
  refine ⟨List.forall₂_same.2 fun j member => ?_⟩
  obtain ⟨a, _, rfl⟩ := List.mem_map.1 member
  exact refl a

/-- A record in which all fields are kept. -/
lemma record_refl {slots : List Slot} {members : List (String × Json)}
    (each : List.Forall₂ (fun slot member => member.1 = slot.name ∧ slot.inside member.2 member.2)
      slots members) : Change.Record slots (.ofMembers members) (.ofMembers members) := by
  have leaves : Leaves slots (members.map fun (k, v) => (some k, v)) (members.map (some ·.2)) := by
    induction each with
    | nil => exact .nil
    | @cons slot member slots members first _ ih =>
      obtain ⟨name, value⟩ := member
      obtain ⟨rfl, inside⟩ := first
      exact .cons (.kept inside) ih
  have all : present slots (members.map (some ·.2)) = members.map fun (k, v) => (some k, v) := by
    clear leaves
    induction each with
    | nil => rfl
    | @cons slot member slots members first _ ih =>
      obtain ⟨name, value⟩ := member
      obtain ⟨rfl, _⟩ := first
      exact congrArg ((some slot.name, value) :: ·) ih
  have none : ∀ member ∈ ([] : List (String × Json)), member.1 ∉ slots.map Slot.name := nofun
  refine .intro leaves none ?_
  rw [all, List.map_nil, List.append_nil]

lemma instr_refl (i : Instr) : Change.Instruction i.toJson i.toJson := by
  cases i with
  | loadArg | loadConst | print | dup | pop | ret => rfl
  | _ => exact ⟨_, rfl, record_refl (by simp [operandNames])⟩

lemma parameter_refl (p : Parameter) : Change.Record parameterSlots p.toJson p.toJson :=
  record_refl (by simp [parameterSlots])

lemma field_refl (f : Field) : Change.Record fieldSlots f.toJson f.toJson :=
  record_refl (by simp [fieldSlots])

lemma method_refl (m : Method) : Change.Record methodSlots m.toJson m.toJson :=
  record_refl (by simp [methodSlots, items_refl, parameter_refl, instr_refl])

lemma type_refl (t : TypeDef) : Change.Record typeSlots t.toJson t.toJson :=
  record_refl (by simp [typeSlots, items_refl, field_refl, method_refl])

lemma stamp_refl (s : Stamp) : Change.Record stampSlots s.toJson s.toJson :=
  record_refl (by simp [stampSlots])

end Change

/-- To change nothing is harmless. -/
theorem harmless_refl (m : Module) : Harmless m.toJson m.toJson := by
  obtain ⟨name, references, types, mark⟩ := m
  have changed : Change.Items (.Record typeSlots) (.array (types.map TypeDef.toJson))
      (.array (types.map TypeDef.toJson)) := Change.items_refl Change.type_refl types
  refine Change.record_refl (.cons ⟨rfl, rfl⟩ <| .cons ⟨rfl, rfl⟩ <| .cons ⟨rfl, changed⟩ <|
    .cons ⟨rfl, ?_⟩ .nil)
  cases mark with
  | none => exact .null
  | some s => exact .other (Change.stamp_refl s)

/-! ## Finding fields -/

lemma valuesOf_append (members members' : List (Option String × Json)) (name : String) :
    valuesOf (members ++ members') name = valuesOf members name ++ valuesOf members' name := by
  rw [valuesOf, List.filter_append, List.map_append]
  rfl

lemma valuesOf_eq_nil {members : List (Option String × Json)} {name : String}
    (absent : ∀ member ∈ members, member.1 ≠ some name) : valuesOf members name = [] := by
  rw [valuesOf, List.map_eq_nil_iff, List.filter_eq_nil_iff]
  intro member here
  simpa using absent member here

lemma exists_of_mem_present {slots : List Slot} {left : List (Option Json)}
    {member : Option String × Json} (here : member ∈ present slots left) :
    ∃ slot ∈ slots, member.1 = some slot.name := by
  obtain ⟨⟨slot, value⟩, both, some⟩ := List.mem_filterMap.1 here
  obtain ⟨value, rfl, rfl⟩ := Option.map_eq_some_iff.1 some
  exact ⟨slot, (List.of_mem_zip both).1, rfl⟩

/-- Among the members that are left, each name has what is left of its field. -/
lemma map_valuesOf_present {slots : List Slot} {left : List (Option Json)}
    (length : slots.length = left.length) (distinct : (slots.map Slot.name).Nodup) :
    (slots.map Slot.name).map (valuesOf (present slots left)) = left.map Option.toList := by
  induction slots generalizing left with
  | nil =>
    cases left with
    | nil => rfl
    | cons => cases length
  | cons slot slots ih =>
    cases left with
    | nil => cases length
    | cons value left =>
      rw [List.map_cons, List.nodup_cons] at distinct
      obtain ⟨fresh, distinct⟩ := distinct
      -- the first member is the only one of its name, and of no name further on
      have split (name : String) : valuesOf (present (slot :: slots) (value :: left)) name
          = valuesOf (value.map (some slot.name, ·)).toList name
            ++ valuesOf (present slots left) name := by
        rw [← valuesOf_append]
        cases value <;> rfl
      have here : valuesOf (value.map (some slot.name, ·)).toList slot.name = value.toList := by
        cases value <;> simp [valuesOf]
      have gone : valuesOf (present slots left) slot.name = [] := by
        refine valuesOf_eq_nil fun member mem same => fresh ?_
        obtain ⟨slot', mem', named⟩ := exists_of_mem_present mem
        rw [same] at named
        exact List.mem_map.2 ⟨slot', mem', (Option.some.inj named).symm⟩
      have rest : (slots.map Slot.name).map (valuesOf (present (slot :: slots) (value :: left)))
          = (slots.map Slot.name).map (valuesOf (present slots left)) := by
        refine List.map_congr_left fun name mem => ?_
        have ne : slot.name ≠ name := fun same => fresh (same ▸ mem)
        rw [split, valuesOf_eq_nil, List.nil_append]
        intro member mem'
        obtain ⟨value, rfl, rfl⟩ := by simpa using mem'
        simpa using ne
      rw [List.map_cons, List.map_cons, rest, ih (by simpa using length) distinct, split, here, gone,
        List.append_nil, List.map_cons]

lemma Leaves.length_eq {slots : List Slot} {members : List (Option String × Json)}
    {left : List (Option Json)} (leaves : Leaves slots members left) :
    slots.length = left.length := by
  induction leaves with
  | nil => rfl
  | cons _ _ ih => rw [List.length_cons, List.length_cons, ih]

/-- Of a changed record the reader finds what is left of its fields. -/
theorem record?_of_change {slots : List Slot} {members : List (String × Json)} {j' : Json}
    (changed : Change.Record slots (.ofMembers members) j')
    (distinct : (slots.map Slot.name).Nodup) : ∃ left,
      record? (slots.map Slot.name) j' = some left ∧
        Leaves slots (members.map fun (k, v) => (some k, v)) left := by
  generalize same : Json.ofMembers members = j at changed
  obtain @⟨_, members', left, unknown, leaves, others, order⟩ := changed
  obtain rfl := Json.object.inj same
  refine ⟨left, ?_, leaves⟩
  have readable : members'.all (·.1.isSome) = true := by
    rw [List.all_eq_true]
    intro member here
    rcases List.mem_append.1 (order.subset here) with known | added
    · obtain ⟨slot, _, named⟩ := exists_of_mem_present known
      rw [named]
      rfl
    · obtain ⟨_, _, rfl⟩ := List.mem_map.1 added
      rfl
  have none_added {name : String} (known : name ∈ slots.map Slot.name) :
      valuesOf (unknown.map fun (k, v) => (some k, v)) name = [] := by
    refine valuesOf_eq_nil fun member added same => ?_
    obtain ⟨other, here, rfl⟩ := List.mem_map.1 added
    exact others other here (Option.some.inj same ▸ known)
  have found := map_valuesOf_present leaves.length_eq distinct
  -- no name has two members, so their order among each other does not matter
  have same : (slots.map Slot.name).map (valuesOf members') = left.map Option.toList := by
    rw [← found]
    refine List.map_congr_left fun name known => ?_
    have perm : (valuesOf members' name).Perm (valuesOf (present slots left) name) := by
      have perm := (order.filter (·.1 == some name)).map (·.2)
      refine perm.trans (List.Perm.of_eq ?_)
      show valuesOf (present slots left ++ _) name = _
      rw [valuesOf_append, none_added known, List.append_nil]
    obtain ⟨value, _, one⟩ := List.mem_map.1 (found ▸ List.mem_map_of_mem known)
    rw [← one] at perm ⊢
    cases value with
    | none => exact List.perm_nil.1 perm
    | some value => exact List.perm_singleton.1 perm
  have single : ((slots.map Slot.name).all fun name => (valuesOf members' name).length ≤ 1)
      = true := by
    rw [List.all_eq_true]
    intro name known
    obtain ⟨value, _, one⟩ := List.mem_map.1 (same ▸ List.mem_map_of_mem known)
    rw [← one]
    cases value <;> rfl
  have undone : List.head? ∘ Option.toList = (id : Option Json → Option Json) := by
    funext value
    cases value <;> rfl
  have heads : (slots.map Slot.name).map (fun name => (valuesOf members' name).head?) = left :=
    calc (slots.map Slot.name).map (fun name => (valuesOf members' name).head?)
      _ = ((slots.map Slot.name).map (valuesOf members')).map List.head? := by
        simp only [List.map_map]
        rfl
      _ = (left.map Option.toList).map List.head? := by rw [same]
      _ = left := by rw [List.map_map, undone, List.map_id]
  rw [record?, readable, single, heads]
  rfl

/-! ## Reading what is left -/

namespace Slot.Leaves

variable {α : Type} {slot : Slot} {value : Json} {left : Option Json} {read : Json → Reader α}
  {a : α}

/-- A field that has no default is read from what is left of it. -/
lemma required (leaves : slot.Leaves value left) (always : slot.default = none)
    (reads : ∀ j', slot.inside value j' → read j' = pure a) :
    Description.required read left = pure a := by
  cases leaves with
  | kept inside => exact reads _ inside
  | dropped default => cases always.symm.trans default

/-- A field with a default is read from what is left of it, if the same default was meant. -/
lemma defaulted {default : α} (leaves : slot.Leaves value left)
    (reads : ∀ j', slot.inside value j' → read j' = pure a)
    (meant : slot.default = some value → default = a) :
    Description.defaulted default read left = pure a := by
  cases leaves with
  | kept inside => exact reads _ inside
  | dropped default => rw [← meant default]; rfl

/-- An identifier is read from what is left of it, and so none is drawn. -/
lemma uuidOrFresh {id : Uuid} (leaves : slot.Leaves value left) (always : slot.default = none)
    (reads : ∀ j', slot.inside value j' → uuid j' = pure id) :
    Description.uuidOrFresh left = pure id := by
  cases leaves with
  | kept inside => exact reads _ inside
  | dropped default => cases always.symm.trans default

end Slot.Leaves

/-- A value in which nothing is changed. -/
lemma reads_same {α : Type} {read : Json → Reader α} {j : Json} {a : α}
    (reads : read j = pure a) : ∀ j', j = j' → read j' = pure a := by
  rintro _ rfl
  exact reads

/-! ### Values -/

lemma text_str (s : String) : text (.str s) = pure s :=
  rfl

lemma uuid_str (id : Uuid) : uuid (.str id.toText) = pure id := by
  rw [uuid, text_str, pure_bind, Uuid.ofText?_toText]

lemma intWithin_int {low high n : ℤ} (least : low ≤ n) (most : n < high) :
    intWithin low high (.int n) = pure n := by
  rw [Json.int, intWithin, if_pos ⟨least, most⟩]

lemma int64_int (n : Int64) : int64 (.int n.toInt) = pure n := by
  have most : n.toInt < Int64.maxValue.toInt + 1 := Int.lt_add_one_of_le n.toInt_le
  rw [int64, intWithin_int n.minValue_le_toInt most, map_pure, Int64.ofInt_toInt]

lemma uint16_int (n : UInt16) : uint16 (.int n.toNat) = pure n := by
  have most : (n.toNat : ℤ) < UInt16.size := by exact_mod_cast n.toNat_lt
  rw [uint16, intWithin_int (Int.natCast_nonneg _) most, map_pure]
  simp

lemma uint32_int (n : UInt32) : uint32 (.int n.toNat) = pure n := by
  have most : (n.toNat : ℤ) < UInt32.size := by exact_mod_cast n.toNat_lt
  rw [uint32, intWithin_int (Int.natCast_nonneg _) most, map_pure]
  simp

lemma nullable_optionalText (s : Option String) : nullable text (optionalText s) = pure s := by
  cases s <;> rfl

lemma visibility_word (v : Visibility) : visibility (.str v.word) = pure v := by
  cases v <;> rfl

lemma typeKind_word (k : TypeKind) : typeKind (.str k.word) = pure k := by
  cases k <;> rfl

lemma entryKind_capitalized (k : EntryKind) : entryKind (.str k.capitalized) = pure k := by
  cases k <;> rfl

lemma marker_toJson (m : Marker) : marker m.toJson = pure m := by
  cases m <;> rfl

lemma constant_toJson (c : Constant) : constant c.toJson = pure c := by
  cases c with
  | int n =>
    show Constant.int <$> int64 (.int n.toInt) = _
    rw [int64_int, map_pure]
  | _ => rfl

section Lists

variable {α : Type} {read : Json → Reader α} {write : α → Json}

/-- Items are read one by one from what they have been changed to. -/
lemma list_of_items {change : Change} (reads : ∀ a j', change (write a) j' → read j' = pure a)
    {as : List α} {j' : Json} (changed : Change.Items change (.array (as.map write)) j') :
    list read j' = pure as := by
  obtain @⟨_, js', each⟩ := changed
  rw [list]
  induction as generalizing js' with
  | nil => cases each; rfl
  | cons a as ih =>
    rw [List.map_cons, List.forall₂_cons_left_iff] at each
    obtain ⟨j', js', first, rest, rfl⟩ := each
    rw [List.mapM_cons, reads a j' first, ih rest, pure_bind, pure_bind]

lemma list_map (reads : ∀ a, read (write a) = pure a) (as : List α) :
    list read (.array (as.map write)) = pure as := by
  have same : Change.Items Eq (.array (as.map write)) (.array (as.map write)) :=
    ⟨List.forall₂_same.2 fun _ _ => rfl⟩
  exact list_of_items (fun a j' same => same ▸ reads a) same

end Lists

/-! ### Defaults -/

lemma ownType_eq {v : Visibility} (same : some (Json.str "Private") = some (.str v.word)) :
    .ownType = v := by
  cases v with
  | ownType => rfl
  | ownModule | everywhere => simp [Json.str, Visibility.word] at same

lemma classType_eq {k : TypeKind} (same : some (Json.str "Class") = some (.str k.word)) :
    .classType = k := by
  cases k with
  | classType => rfl
  | interfaceType => simp [Json.str, TypeKind.word] at same

lemma false_eq {b : Bool} (same : some (Json.bool false) = some (.bool b)) : false = b :=
  Json.bool.inj (Option.some.inj same)

lemma none_eq {s : Option String} (same : some Json.null = some (optionalText s)) : none = s := by
  cases s with
  | none => rfl
  | some s => cases same

lemma nil_eq {α : Type} {write : α → Json} {as : List α}
    (same : some (Json.array []) = some (.array (as.map write))) : [] = as :=
  (List.map_eq_nil_iff.1 (Json.array.inj (Option.some.inj same)).symm).symm

/-! ### Instructions -/

/-- A record of two operands is read from what it has been changed to. -/
lemma operands_of_change {α β γ : Type} {x y : String} {j k content' : Json}
    {first : Json → Reader α} {second : Json → Reader β} {make : α → β → γ} {a : α} {b : β}
    (changed : Change.Record [{ name := x }, { name := y }] (.ofMembers [(x, j), (y, k)]) content')
    (distinct : x ≠ y) (reads_first : first j = pure a) (reads_second : second k = pure b) :
    operands [x, y] first second make content' = pure (make a b) := by
  obtain ⟨_, given, leaves⟩ := record?_of_change changed (by simpa using distinct)
  obtain _ | ⟨hx, _ | ⟨hy, ⟨⟩⟩⟩ := leaves
  replace given : record? [x, y] content' = some [_, _] := given
  rw [operands, given]
  dsimp only
  rw [hx.required rfl (reads_same reads_first), hy.required rfl (reads_same reads_second),
    pure_bind, pure_bind]

/-- A record of a type is read from what it has been changed to. -/
lemma typeOperand_of_change {make : String → Instr} {ty : String} {content' : Json}
    (changed : Change.Record [{ name := "ty" }] (.ofMembers [("ty", .str ty)]) content') :
    typeOperand make content' = pure (make ty) := by
  obtain ⟨_, given, leaves⟩ := record?_of_change changed (by decide)
  obtain _ | ⟨hty, ⟨⟩⟩ := leaves
  replace given : record? ["ty"] content' = some [_] := given
  rw [typeOperand, given]
  dsimp only
  rw [hty.required rfl (reads_same (text_str ty)), map_pure]

/-- An instruction is read from what its description has been changed to. -/
theorem instr_of_change {i : Instr} {j' : Json} (changed : Change.Instruction i.toJson j') :
    instr j' = pure i := by
  cases i with
  | loadArg n =>
    obtain rfl : j' = _ := changed
    show Instr.loadArg <$> uint16 (.int n.toNat) = _
    rw [uint16_int, map_pure]
  | loadConst c =>
    obtain rfl : j' = _ := changed
    show Instr.loadConst <$> constant c.toJson = _
    rw [constant_toJson, map_pure]
  | loadField owner field =>
    obtain ⟨content', rfl, record⟩ := changed
    exact operands_of_change record (by decide) (text_str owner) (text_str field)
  | storeField owner field =>
    obtain ⟨content', rfl, record⟩ := changed
    exact operands_of_change record (by decide) (text_str owner) (text_str field)
  | newObject owner ctor =>
    obtain ⟨content', rfl, record⟩ := changed
    exact operands_of_change record (by decide) (text_str owner) (uuid_str ctor)
  | call owner method =>
    obtain ⟨content', rfl, record⟩ := changed
    exact operands_of_change record (by decide) (text_str owner) (uuid_str method)
  | loadMethod owner method =>
    obtain ⟨content', rfl, record⟩ := changed
    exact operands_of_change record (by decide) (text_str owner) (uuid_str method)
  | resolve ty =>
    obtain ⟨content', rfl, record⟩ := changed
    exact typeOperand_of_change record
  | register kind ty =>
    obtain ⟨content', rfl, record⟩ := changed
    exact operands_of_change record (by decide) (entryKind_capitalized kind) (text_str ty)
  | upcast ty =>
    obtain ⟨content', rfl, record⟩ := changed
    exact typeOperand_of_change record
  | print | dup | pop | ret =>
    obtain rfl : j' = _ := changed
    rfl

/-! ### Members, types and modules -/

-- Each proof names what is left of the fields, in the order of the slots, and goes through the
-- reader field by field.

theorem parameter_of_change {p : Parameter} {j' : Json}
    (changed : Change.Record parameterSlots p.toJson j') : parameter j' = pure p := by
  obtain ⟨_, given, leaves⟩ := record?_of_change changed (by decide)
  obtain _ | ⟨name, _ | ⟨ty, ⟨⟩⟩⟩ := leaves
  replace given : record? ["name", "ty"] j' = some [_, _] := given
  rw [parameter, given]
  dsimp only
  rw [name.required rfl (reads_same (text_str p.name)),
    ty.required rfl (reads_same (text_str p.ty)), pure_bind, pure_bind]

theorem field_of_change {f : Field} {j' : Json}
    (changed : Change.Record fieldSlots f.toJson j') : field j' = pure f := by
  obtain ⟨_, given, leaves⟩ := record?_of_change changed (by decide)
  obtain _ | ⟨id, _ | ⟨name, _ | ⟨ty, _ | ⟨visible, _ | ⟨markers, ⟨⟩⟩⟩⟩⟩⟩ := leaves
  replace given : record? ["id", "name", "ty", "visibility", "annotations"] j'
    = some [_, _, _, _, _] := given
  rw [field, given]
  dsimp only
  rw [id.uuidOrFresh rfl (reads_same (uuid_str f.id)),
    name.required rfl (reads_same (text_str f.name)),
    ty.required rfl (reads_same (text_str f.ty)),
    visible.defaulted (reads_same (visibility_word f.visibility)) ownType_eq,
    markers.defaulted (reads_same (list_map marker_toJson f.markers)) nil_eq]
  simp only [pure_bind]

theorem method_of_change {m : Method} {j' : Json}
    (changed : Change.Record methodSlots m.toJson j') : method j' = pure m := by
  obtain ⟨_, given, leaves⟩ := record?_of_change changed (by decide)
  obtain _ | ⟨id, _ | ⟨name, _ | ⟨visible, _ | ⟨isStatic, _ | ⟨params, _ | ⟨returned, _ | ⟨markers,
    _ | ⟨body, ⟨⟩⟩⟩⟩⟩⟩⟩⟩⟩ := leaves
  replace given : record? ["id", "name", "visibility", "is_static", "params", "return_type",
    "annotations", "body"] j' = some [_, _, _, _, _, _, _, _] := given
  rw [method, given]
  dsimp only
  rw [id.uuidOrFresh rfl (reads_same (uuid_str m.id)),
    name.required rfl (reads_same (text_str m.name)),
    visible.defaulted (reads_same (visibility_word m.visibility)) ownType_eq,
    isStatic.defaulted (reads_same (a := m.isStatic) rfl) false_eq,
    params.defaulted (fun _ => list_of_items fun _ _ => parameter_of_change) nil_eq,
    returned.defaulted (reads_same (nullable_optionalText m.returnType)) none_eq,
    markers.defaulted (reads_same (list_map marker_toJson m.markers)) nil_eq,
    body.defaulted (fun _ => list_of_items fun _ _ => instr_of_change) nil_eq]
  simp only [pure_bind]

theorem typeDef_of_change {t : TypeDef} {j' : Json}
    (changed : Change.Record typeSlots t.toJson j') : typeDef j' = pure t := by
  obtain ⟨_, given, leaves⟩ := record?_of_change changed (by decide)
  obtain _ | ⟨id, _ | ⟨name, _ | ⟨visible, _ | ⟨kind, _ | ⟨isAbstract, _ | ⟨supertype,
    _ | ⟨interfaces, _ | ⟨fields, _ | ⟨constructors, _ | ⟨methods, ⟨⟩⟩⟩⟩⟩⟩⟩⟩⟩⟩⟩ := leaves
  replace given : record? ["id", "name", "visibility", "kind", "is_abstract", "supertype",
    "interfaces", "fields", "constructors", "methods"] j'
    = some [_, _, _, _, _, _, _, _, _, _] := given
  rw [typeDef, given]
  dsimp only
  rw [id.uuidOrFresh rfl (reads_same (uuid_str t.id)),
    name.required rfl (reads_same (text_str t.name)),
    visible.defaulted (reads_same (visibility_word t.visibility)) ownType_eq,
    kind.defaulted (reads_same (typeKind_word t.kind)) classType_eq,
    isAbstract.defaulted (reads_same (a := t.isAbstract) rfl) false_eq,
    supertype.defaulted (reads_same (nullable_optionalText t.supertype)) none_eq,
    interfaces.defaulted (reads_same (list_map text_str t.interfaces)) nil_eq,
    fields.defaulted (fun _ => list_of_items fun _ _ => field_of_change) nil_eq,
    constructors.defaulted (fun _ => list_of_items fun _ _ => method_of_change) nil_eq,
    methods.defaulted (fun _ => list_of_items fun _ _ => method_of_change) nil_eq]
  simp only [pure_bind]

theorem stamp_of_change {s : Stamp} {j' : Json}
    (changed : Change.Record stampSlots s.toJson j') : stamp j' = pure s := by
  obtain ⟨_, given, leaves⟩ := record?_of_change changed (by decide)
  obtain _ | ⟨version, _ | ⟨hash, _ | ⟨factories, _ | ⟨injectors, ⟨⟩⟩⟩⟩⟩ := leaves
  replace given : record? ["tool_version", "source_hash", "factories", "injectors"] j'
    = some [_, _, _, _] := given
  rw [stamp, given]
  dsimp only
  rw [version.required rfl (reads_same (text_str s.toolVersion)),
    hash.required rfl (reads_same (text_str s.sourceHash)),
    factories.required rfl (reads_same (uint32_int s.factories)),
    injectors.required rfl (reads_same (uint32_int s.injectors))]
  simp only [pure_bind]

/-- A stamp or null is read from what it has been changed to. -/
lemma stamp_of_orNull {s : Option Stamp} {j' : Json}
    (changed : Change.OrNull (.Record stampSlots)
      (match s with | some s => s.toJson | none => .null) j') : nullable stamp j' = pure s := by
  cases s with
  | none =>
    cases changed with
    | null => rfl
    | other changed => cases changed
  | some s =>
    cases changed with
    | other changed =>
      have some : j' ≠ .null := by
        rintro rfl
        cases changed
      rw [nullable.eq_2 stamp j' some, stamp_of_change changed, map_pure]

/-- A module is read from what its description has been changed to, and no identifier is drawn. -/
theorem module_of_harmless {m : Module} {j' : Json} (changed : Harmless m.toJson j') :
    module j' = pure m := by
  obtain ⟨_, given, leaves⟩ := record?_of_change changed (by decide)
  obtain _ | ⟨name, _ | ⟨references, _ | ⟨types, _ | ⟨mark, ⟨⟩⟩⟩⟩⟩ := leaves
  replace given : record? ["name", "references", "types", "stamp"] j' = some [_, _, _, _] := given
  have unstamped (same : some Json.null = some (match m.stamp with
      | some s => s.toJson | none => .null)) : none = m.stamp := by
    revert same
    cases m.stamp with
    | none => exact fun _ => rfl
    | some s => exact nofun
  rw [module, given]
  dsimp only
  rw [name.required rfl (reads_same (text_str m.name)),
    references.defaulted (reads_same (list_map text_str m.references)) nil_eq,
    types.defaulted (fun _ => list_of_items fun _ _ => typeDef_of_change) nil_eq,
    mark.defaulted (fun _ => stamp_of_orNull) unstamped]
  simp only [pure_bind]

/-! ## Writing -/

section Legible

open Json

lemma legible_optionalText (s : Option String) : (optionalText s).Legible := by
  cases s with
  | none => exact legible_null
  | some s => exact legible_str s

lemma legible_tagged {name : String} {content : Json} (legible : content.Legible) :
    (tagged name content).Legible :=
  legible_ofMembers.2 (by simpa using legible)

lemma legible_marker (m : Marker) : m.toJson.Legible := by
  cases m with
  | custom tag => exact legible_tagged (legible_str tag)
  | _ => exact legible_str _

lemma legible_constant (c : Constant) : c.toJson.Legible := by
  cases c with
  | null => exact legible_str _
  | bool b => exact legible_tagged (legible_bool b)
  | int n => exact legible_tagged (legible_int _)
  | text s => exact legible_tagged (legible_str s)

lemma legible_instr (i : Instr) : i.toJson.Legible := by
  cases i with
  | loadArg n => exact legible_tagged (legible_int _)
  | loadConst c => exact legible_tagged (legible_constant c)
  | print | dup | pop | ret => exact legible_str _
  | _ => exact legible_tagged (legible_ofMembers.2 (by simp [legible_str]))

lemma legible_parameter (p : Parameter) : p.toJson.Legible :=
  legible_ofMembers.2 (by simp [legible_str])

lemma legible_field (f : Field) : f.toJson.Legible :=
  legible_ofMembers.2 (by simp [legible_str, legible_array, legible_marker])

lemma legible_method (m : Method) : m.toJson.Legible :=
  legible_ofMembers.2 (by simp [legible_str, legible_bool, legible_array, legible_optionalText,
    legible_marker, legible_parameter, legible_instr])

lemma legible_typeDef (t : TypeDef) : t.toJson.Legible :=
  legible_ofMembers.2 (by simp [legible_str, legible_bool, legible_array, legible_optionalText,
    legible_field, legible_method])

lemma legible_stamp (s : Stamp) : s.toJson.Legible :=
  legible_ofMembers.2 (by simp [legible_str, legible_int])

/-- The numbers in a description are integers, and legible as such. -/
theorem legible_toJson (m : Module) : m.toJson.Legible := by
  obtain ⟨name, references, types, _ | s⟩ := m
  · exact legible_ofMembers.2 (by simp [legible_str, legible_array, legible_typeDef, legible_null])
  · exact legible_ofMembers.2 (by simp [legible_str, legible_array, legible_typeDef, legible_stamp])

end Legible

end Weaver.Description
