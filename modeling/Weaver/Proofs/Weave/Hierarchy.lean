import Weaver.Proofs.Host.Loading
import Weaver.Proofs.Weave.Members

/-!
# Loaded types before and after a weave

A weave keeps names, supertypes, interfaces and fields, and adds a type that nothing lies above. So
on a host that has loaded the module before or after its weave, the same types conform to each
other, the same supertypes are searched for bindings, and new objects have the same slots.

Three things live here:

* `Module.loadedTypes`, the types of a module on a host, and what is found there after a weave;
* `conforms_rewoven` and `chain_rewoven`, for every name;
* `layout_rewoven` and `layout_of_rewoven`, of which the first needs that no type is declared to be
  derived from the registrar.
-/

namespace Weaver

/-! ## Searches that see the same parents -/

namespace Universe

/-- The names one step up from a loaded type, and none for other names. -/
def parentsOf (u : Universe) (ty : String) : List String :=
  match u.find? ty with
  | some t => parents t.definition
  | none => []

lemma search_nil (u : Universe) (target : String) (seen : List String) :
    u.search target seen [] = false := by
  rw [search]

lemma search_cons (u : Universe) (target : String) (seen : List String) (ty : String)
    (pending : List String) :
    u.search target seen (ty :: pending)
      = if ty = target then true
        else if seen.contains ty then u.search target seen pending
        else u.search target (ty :: seen) (u.parentsOf ty ++ pending) := by
  rw [search, parentsOf]
  split
  · rfl
  · split
    · rfl
    · split
      next missing => rw [missing]; rfl
      next t found => rw [found]

/-- A search does not depend on what types offer besides their parents. -/
lemma search_congr {u v : Universe} (same : ∀ ty, v.parentsOf ty = u.parentsOf ty)
    (target : String) (seen pending : List String) :
    v.search target seen pending = u.search target seen pending := by
  induction seen, pending using Universe.search.induct u target with
  | case1 seen => rw [search_nil, search_nil]
  | case2 seen pending => rw [search_cons, search_cons, if_pos rfl, if_pos rfl]
  | case3 seen ty pending other known ih =>
    rw [search_cons, search_cons, if_neg other, if_neg other, if_pos known, if_pos known, ih]
  | case4 seen ty pending other fresh missing ih =>
    have none : u.parentsOf ty = [] := by rw [parentsOf, missing]
    rw [search_cons, search_cons, if_neg other, if_neg other, if_neg fresh, if_neg fresh, same,
      none, List.nil_append, ih]
  | case5 seen ty pending other fresh t found ih =>
    have above : u.parentsOf ty = parents t.definition := by rw [parentsOf, found]
    rw [search_cons, search_cons, if_neg other, if_neg other, if_neg fresh, if_neg fresh, same,
      above, ih]

/-- The names above a type do not depend on what types offer besides their supertypes. -/
lemma chain_congr {u v : Universe} (same : ∀ ty, v.supertype? ty = u.supertype? ty) (bound : ℕ)
    (ty : String) : v.chain bound ty = u.chain bound ty := by
  induction bound generalizing ty with
  | zero => rfl
  | succ bound ih =>
    rw [chain, chain, same]
    cases u.supertype? ty with
    | none => rfl
    | some parent => exact congrArg (ty :: ·) (ih parent)

end Universe

namespace Module

/-! ## Loaded types -/

/-- The types of the module on a host that has loaded it and nothing before. -/
def loadedTypes (m : Module) : Universe :=
  m.types.map fun t => ⟨m.name, t⟩

lemma find?_loadedTypes (m : Module) (ty : String) :
    m.loadedTypes.find? ty = (m.typeNamed? ty).map fun t => ⟨m.name, t⟩ := by
  rw [Universe.find?, loadedTypes, List.find?_map]
  rfl

section Rewoven

variable {m : Module} {options : WeaveOptions} {ids : WeaveIds} {ty : String}

/-- The rewrite of a type of the module. -/
def rewovenType (ids : WeaveIds) (t : TypeDef) : TypeDef :=
  t.rewoven (ids.entry .factory t.name) (ids.entry .injector t.name)

lemma types_rewoven (m : Module) (options : WeaveOptions) (ids : WeaveIds) :
    (m.rewoven options ids).types = m.types.map (rewovenType ids) ++ [m.registrar options ids] :=
  rfl

/-- A type of the module is found as its rewrite. -/
lemma find?_rewoven_of_some {t : TypeDef} (found : m.typeNamed? ty = some t) :
    (m.rewoven options ids).loadedTypes.find? ty = some ⟨m.name, rewovenType ids t⟩ := by
  rw [find?_loadedTypes, typeNamed?, types_rewoven, List.find?_append, List.find?_map]
  have same : ((fun t : TypeDef => t.name == ty) ∘ rewovenType ids) = fun t => t.name == ty := by
    funext t
    rw [Function.comp, rewovenType, TypeDef.rewoven_name]
  rw [same, ← typeNamed?, found]
  rfl

/-- Of other names, only the registrar is found. -/
lemma find?_rewoven_of_none (missing : m.typeNamed? ty = none) :
    (m.rewoven options ids).loadedTypes.find? ty
      = if ty = registrarName m.name options.registrarName then
          some ⟨m.name, m.registrar options ids⟩
        else none := by
  rw [find?_loadedTypes, typeNamed?, types_rewoven, List.find?_append, List.find?_map]
  have same : ((fun t : TypeDef => t.name == ty) ∘ rewovenType ids) = fun t => t.name == ty := by
    funext t
    rw [Function.comp, rewovenType, TypeDef.rewoven_name]
  rw [same, ← typeNamed?, missing]
  by_cases named : ty = registrarName m.name options.registrarName
  · rw [if_pos named, named]
    simp [registrar_eq, registrarType]
    rfl
  · rw [if_neg named]
    simp [registrar_eq, registrarType, Ne.symm named]

/-! ## Hierarchies -/

lemma parentsOf_rewoven (ty : String) :
    (m.rewoven options ids).loadedTypes.parentsOf ty = m.loadedTypes.parentsOf ty := by
  rw [Universe.parentsOf, Universe.parentsOf, find?_loadedTypes m]
  cases found : m.typeNamed? ty with
  | some t =>
    rw [find?_rewoven_of_some found]
    simp [Universe.parents, rewovenType]
  | none =>
    rw [find?_rewoven_of_none found]
    by_cases named : ty = registrarName m.name options.registrarName
    · rw [if_pos named]
      rfl
    · rw [if_neg named]
      rfl

/-- The same types conform to each other. -/
theorem conforms_rewoven (ty target : String) :
    (m.rewoven options ids).loadedTypes.conforms ty target = m.loadedTypes.conforms ty target :=
  Universe.search_congr parentsOf_rewoven target [] [ty]

lemma supertype?_rewoven (ty : String) :
    (m.rewoven options ids).loadedTypes.supertype? ty = m.loadedTypes.supertype? ty := by
  rw [Universe.supertype?, Universe.supertype?, find?_loadedTypes m]
  cases found : m.typeNamed? ty with
  | some t =>
    rw [find?_rewoven_of_some found]
    simp [rewovenType]
  | none =>
    rw [find?_rewoven_of_none found]
    by_cases named : ty = registrarName m.name options.registrarName
    · rw [if_pos named]
      rfl
    · rw [if_neg named]
      rfl

/-- The same names lie above a type. -/
theorem chain_rewoven (bound : ℕ) (ty : String) :
    (m.rewoven options ids).loadedTypes.chain bound ty = m.loadedTypes.chain bound ty :=
  Universe.chain_congr supertype?_rewoven bound ty

/-! ## Layouts -/

lemma ownSlots_rewoven (t : TypeDef) :
    Universe.ownSlots (rewovenType ids t) = Universe.ownSlots t := by
  rw [Universe.ownSlots, Universe.ownSlots, rewovenType, TypeDef.fields_rewoven, List.map_map,
    TypeDef.rewoven_name]
  congr 1
  funext f
  rw [Function.comp]
  split <;> rfl

/-- The slots before the weave are those after it, for a type that is not derived from the
registrar. -/
lemma slots?_rewoven (underived : ∀ t ∈ m.types,
      t.supertype ≠ some (registrarName m.name options.registrarName)) (bound : ℕ)
    (other : ty ≠ registrarName m.name options.registrarName) :
    (m.rewoven options ids).loadedTypes.slots? bound ty = m.loadedTypes.slots? bound ty := by
  induction bound generalizing ty with
  | zero =>
    rw [Universe.slots?, Universe.slots?, find?_loadedTypes m]
    cases found : m.typeNamed? ty with
    | some t => rw [find?_rewoven_of_some found]; rfl
    | none => rw [find?_rewoven_of_none found, if_neg other]; rfl
  | succ bound ih =>
    rw [Universe.slots?, Universe.slots?, find?_loadedTypes m]
    cases found : m.typeNamed? ty with
    | none => rw [find?_rewoven_of_none found, if_neg other]; rfl
    | some t =>
      have above : (rewovenType ids t).supertype = t.supertype := t.rewoven_supertype _ _
      rw [find?_rewoven_of_some found, Option.map_some]
      simp only [above, ownSlots_rewoven]
      cases derived : t.supertype with
      | none => rfl
      | some parent =>
        -- the supertype is not the registrar either, so the walk goes on in the module
        have known : parent ≠ registrarName m.name options.registrarName := by
          rintro rfl
          exact underived t (List.mem_of_find?_eq_some found) derived
        exact congrArg (Option.map _) (ih known)

/-- New objects of a type have the same slots after the weave. -/
theorem layout_rewoven (absent : m.typeNamed? (registrarName m.name options.registrarName) = none)
    (underived : ∀ t ∈ m.types, t.supertype ≠ some (registrarName m.name options.registrarName))
    {slots : List Slot} (layout : m.loadedTypes.layout ty = .ok slots) :
    (m.rewoven options ids).loadedTypes.layout ty = .ok slots := by
  rw [Universe.layout, find?_loadedTypes] at layout
  rw [Universe.layout]
  cases found : m.typeNamed? ty with
  | none =>
    rw [found] at layout
    cases layout
  | some t =>
    have other : ty ≠ registrarName m.name options.registrarName := by
      rintro rfl
      rw [absent] at found
      cases found
    rw [found] at layout
    rw [find?_rewoven_of_some found, slots?_rewoven underived _ other]
    exact layout

/-- Slots that are found after the weave were found before it: the registrar has no fields. -/
lemma slots?_of_rewoven (bound : ℕ) {slots : List Slot}
    (found : (m.rewoven options ids).loadedTypes.slots? bound ty = some slots) :
    m.loadedTypes.slots? bound ty = some slots := by
  induction bound generalizing ty slots with
  | zero =>
    rw [Universe.slots?] at found ⊢
    rw [find?_loadedTypes]
    cases known : m.typeNamed? ty with
    | some t =>
      rw [find?_rewoven_of_some known] at found
      cases found
    | none =>
      rw [find?_rewoven_of_none known] at found
      by_cases named : ty = registrarName m.name options.registrarName
      · rw [if_pos named] at found
        cases found
      · rw [if_neg named] at found
        exact found
  | succ bound ih =>
    rw [Universe.slots?] at found ⊢
    rw [find?_loadedTypes]
    cases known : m.typeNamed? ty with
    | none =>
      rw [find?_rewoven_of_none known] at found
      by_cases named : ty = registrarName m.name options.registrarName
      · rw [if_pos named] at found
        exact found
      · rw [if_neg named] at found
        exact found
    | some t =>
      have above : (rewovenType ids t).supertype = t.supertype := t.rewoven_supertype _ _
      rw [find?_rewoven_of_some known] at found
      rw [Option.map_some]
      simp only [above, ownSlots_rewoven] at found ⊢
      cases derived : t.supertype with
      | none =>
        rw [derived] at found
        exact found
      | some parent =>
        rw [derived] at found
        obtain ⟨more, hmore, rfl⟩ := Option.map_eq_some_iff.1 found
        exact congrArg (Option.map _) (ih hmore)

/-- New objects of a type had the same slots before the weave. -/
theorem layout_of_rewoven {t : TypeDef} (known : m.typeNamed? ty = some t) {slots : List Slot}
    (layout : (m.rewoven options ids).loadedTypes.layout ty = .ok slots) :
    m.loadedTypes.layout ty = .ok slots := by
  rw [Universe.layout, find?_rewoven_of_some known] at layout
  rw [Universe.layout, find?_loadedTypes, known]
  cases found : (m.rewoven options ids).loadedTypes.slots? maxHierarchyDepth ty with
  | none =>
    rw [found] at layout
    cases layout
  | some slots' =>
    rw [found] at layout
    rw [slots?_of_rewoven _ found]
    exact layout

end Rewoven

end Module

end Weaver
