import Weaver.Proofs.Engine.Follow
import Weaver.Proofs.Weave.SynthesizedCode

/-!
# Woven modules and introspection

A host with the introspection fallback builds instances of an unwoven module from its loaded types.
For a module whose code uses nothing that the weave first has to make public, such a host permits
all that a host with the woven module does.

Three things live here:

* `Module.Introspectable` and `IdSupply.NewTo`, what is asked of a module and of the identifiers;
* `Module.introspecting`, the pairing of the weave of a module with the module itself;
* `sound_introspecting`, by which every access of the module's code is permitted without the weave.
-/

namespace Weaver

open Host

/-! ## Members that code may use without a weave -/

/-- The member that an instruction refers to by its identifier. -/
def Instr.memberId? : Instr → Option Uuid
  | .newObject _ ctor => some ctor
  | .call _ method | .loadMethod _ method => some method
  | _ => none

namespace Module

/-- A type's code may use a member of a type, whose visibility is found by a lookup: the type is the
code's own, or type and member are public. -/
def Offers (m : Module) (user : TypeDef) (owner : String)
    (visibility? : TypeDef → Option Visibility) : Prop :=
  owner = user.name ∨ ∃ t ∈ m.types, t.name = owner ∧ t.visibility = .everywhere ∧
    visibility? t = some .everywhere

instance (m : Module) (user : TypeDef) (owner : String)
    (visibility? : TypeDef → Option Visibility) : Decidable (m.Offers user owner visibility?) :=
  inferInstanceAs (Decidable (_ ∨ _))

/-- An instruction registers nothing, and uses only members that are offered. -/
def Admits (m : Module) (user : TypeDef) : Instr → Prop
  | .loadField owner name | .storeField owner name =>
    m.Offers user owner fun t => (t.field? name).map (·.visibility)
  | .newObject owner ctor => m.Offers user owner fun t => (t.constructor? ctor).map (·.visibility)
  | .call owner method => m.Offers user owner fun t => (t.member? method).map (·.visibility)
  | .loadMethod owner method => m.Offers user owner fun t => (t.method? method).map (·.visibility)
  | .register _ _ => False
  | _ => True

instance (m : Module) (user : TypeDef) : (i : Instr) → Decidable (m.Admits user i)
  | .loadField owner _ | .storeField owner _ | .newObject owner _ | .call owner _
  | .loadMethod owner _ => inferInstanceAs (Decidable (m.Offers user owner _))
  | .register _ _ => inferInstanceAs (Decidable False)
  | .loadArg _ | .loadConst _ | .resolve _ | .upcast _ | .print | .dup | .pop | .ret =>
    inferInstanceAs (Decidable True)

/-- Every class has one constructor and it is marked, interfaces have no marked fields, and all code
is admitted. -/
structure Introspectable (m : Module) : Prop where
  constructors : ∀ t ∈ m.types, t.isInterface = false →
    ∃ c, t.constructors = [c] ∧ c.isMarked = true
  fields : ∀ t ∈ m.types, t.isInterface = true → t.markedFields = []
  bodies : ∀ t ∈ m.types, ∀ x ∈ t.constructors ++ t.methods, ∀ i ∈ x.body, m.Admits t i

end Module

/-- The identifiers that a weave of the module draws occur nowhere in it, not in its code either. -/
structure IdSupply.NewTo (supply : IdSupply) (m : Module) : Prop extends supply.FreshFor m where
  unreferenced : ∀ t ∈ m.types, ∀ x ∈ t.constructors ++ t.methods, ∀ i ∈ x.body,
    ∀ id ∈ i.memberId?, id ∉ supply.next m.idsNeeded

namespace Module

/-! ## The pairing -/

/-- What the hosts have in common: the same containers and bindings, none of which has a factory of
its own. One has the entries of the weave, the other asks its fallback and keeps the answers. -/
structure Wired (m : Module) (ids : WeaveIds) (w w' : Wiring) : Prop where
  registry : w.registry = m.bakedRegistry ids
  containers : w'.containers = w.containers
  bindings : w'.bindings = w.bindings
  unsupplied : ∀ b ∈ w.bindings, b.factory = none
  factories : w'.registry.factories = []
  injectors : w'.registry.injectors = []
  fallback : w'.registry.fallback = some .introspection
  cachedFactories {ty : String} {factory : Factory} :
    w'.registry.cachedFactories.find? ty = some factory → factory = .introspected ty
  cachedInjectors {ty : String} {injector : Injector} :
    w'.registry.cachedInjectors.find? ty = some injector →
      ∀ g : Host, g.types = m.loadedTypes → Run.introspectedInjector? g ty = some injector

/-- The weave of the module on one host, and the module itself on another with the introspection
fallback. -/
def introspecting (m : Module) (options : WeaveOptions) (ids : WeaveIds) : Pairing where
  leading := (m.rewoven options ids).loadedTypes
  following := m.loadedTypes
  Twin t c t' c' := ∃ d v, d ∈ m.types ∧ c' ∈ d.constructors ++ d.methods ∧
    t = ⟨m.name, rewovenType ids d⟩ ∧ t' = ⟨m.name, d⟩ ∧ c = c'.withVisibility v
  Wired := m.Wired ids
  Quiet _ _ := True

variable {m : Module} {options : WeaveOptions} {ids : WeaveIds} {supply : IdSupply}

/-! ## Accesses -/

/-- What is offered to a type of the module is found in the module and may be used there, if the
weave adds nothing that the lookup finds. -/
lemma Offers.exists_member {α : Type} {visibility : α → Visibility}
    {lookup : TypeDef → Option α} {user : TypeDef} {owner : String} {t : LoadedType} {x : α}
    (names : m.Unambiguous) (member : user ∈ m.types)
    (offers : m.Offers user owner fun t => (lookup t).map visibility)
    (found : (m.rewoven options ids).loadedTypes.find? owner = some t)
    (declared : lookup t.definition = some x)
    (before : ∀ d ∈ m.types, ∀ x, lookup (rewovenType ids d) = some x → ∃ y, lookup d = some y) :
    ∃ d y, d ∈ m.types ∧ m.loadedTypes.find? owner = some ⟨m.name, d⟩ ∧
      t = ⟨m.name, rewovenType ids d⟩ ∧ lookup d = some y ∧
      LoadedType.CanUseMember ⟨m.name, user⟩ ⟨m.name, d⟩ (visibility y) := by
  -- the owner is a type of the module in either case
  have known {d : TypeDef} (hd : d ∈ m.types) (named : d.name = owner) :
      m.loadedTypes.find? owner = some ⟨m.name, d⟩ ∧ t = ⟨m.name, rewovenType ids d⟩ := by
    subst named
    have own : m.typeNamed? d.name = some d := find?_key_of_mem TypeDef.name names.types hd
    rw [find?_rewoven_of_some own] at found
    cases found
    exact ⟨by rw [find?_loadedTypes, own]; rfl, rfl⟩
  rcases offers with rfl | ⟨d, hd, named, -, isPublic⟩
  · obtain ⟨found', rfl⟩ := known member rfl
    obtain ⟨y, hy⟩ := before user member x declared
    refine ⟨user, y, member, found', rfl, hy, ?_⟩
    cases visibility y with
    | everywhere => trivial
    | ownModule => rfl
    | ownType => rfl
  · obtain ⟨found', rfl⟩ := known hd named
    obtain ⟨y, hy, hpublic⟩ := Option.map_eq_some_iff.1 isPublic
    refine ⟨d, y, hd, found', rfl, hy, ?_⟩
    rw [hpublic]
    trivial

lemma mem_of_constructor? {t : TypeDef} {id : Uuid} {c : Method}
    (found : t.constructor? id = some c) : c ∈ t.constructors ++ t.methods :=
  List.mem_append_left _ (List.mem_of_find?_eq_some found)

lemma mem_of_member? {t : TypeDef} {id : Uuid} {c : Method} (found : t.member? id = some c) :
    c ∈ t.constructors ++ t.methods := by
  rw [TypeDef.member?] at found
  rcases Option.or_eq_some_iff.1 found with ctor | ⟨-, method⟩
  · exact mem_of_constructor? ctor
  · exact List.mem_append_right _ (List.mem_of_find?_eq_some method)

/-- Admitted code that refers to nothing new needs no weave. -/
lemma covers_introspecting (names : m.Unambiguous)
    (drawn : ids.inOrder m = supply.next m.idsNeeded) {user : TypeDef} (member : user ∈ m.types)
    {i : Instr} (admitted : m.Admits user i)
    (unreferenced : ∀ id ∈ i.memberId?, id ∉ supply.next m.idsNeeded) :
    (m.introspecting options ids).Covers ⟨m.name, rewovenType ids user⟩ ⟨m.name, user⟩ i := by
  -- no synthesized method has an identifier that the code refers to
  have apart {id : Uuid} (unused : id ∉ supply.next m.idsNeeded) {d : TypeDef} (hd : d ∈ m.types)
      (kind : EntryKind) (gets : d.gets kind = true) : ids.entry kind d.name ≠ id := by
    rintro rfl
    rw [← drawn] at unused
    exact unused (WeaveIds.entry_mem_inOrder hd gets)
  have field {owner name : String}
      (offers : m.Offers user owner fun t => (t.field? name).map (·.visibility)) :
      (m.introspecting options ids).CoversMember ⟨m.name, rewovenType ids user⟩ ⟨m.name, user⟩ owner
        (·.field? name) (·.visibility) fun _ _ _ _ => True := by
    intro t f found _ declared _
    obtain ⟨d, f', -, found', -, declared', usable⟩ := offers.exists_member names member found
      declared fun d _ x hx => TypeDef.exists_field?_of_rewoven hx
    exact ⟨_, f', found', .inr rfl, declared', usable, trivial⟩
  cases i with
  | loadField owner name => exact field admitted
  | storeField owner name => exact field admitted
  | newObject owner ctor =>
    intro t c found _ declared _
    obtain ⟨d, c', -, found', rfl, declared', usable⟩ :=
      Offers.exists_member names member admitted found declared
        fun d _ x hx => TypeDef.exists_constructor?_of_rewoven hx
    obtain ⟨v, -, exposed⟩ := d.constructor?_rewoven (ids.entry .factory d.name)
      (ids.entry .injector d.name) declared'
    cases exposed.symm.trans declared
    exact ⟨_, c', found', .inr rfl, declared', usable, rfl⟩
  | call owner method =>
    have unused := unreferenced method rfl
    intro t c found _ declared _
    obtain ⟨d, c', hd, found', rfl, declared', usable⟩ :=
      Offers.exists_member names member admitted found declared fun d hd x hx =>
        TypeDef.exists_member?_of_rewoven (apart unused hd .factory) (apart unused hd .injector) hx
    obtain ⟨v, -, exposed⟩ := d.member?_rewoven (ids.entry .factory d.name)
      (ids.entry .injector d.name) declared'
    cases exposed.symm.trans declared
    exact ⟨_, c', found', .inr rfl, declared', usable, d, v, hd, mem_of_member? declared', rfl, rfl,
      rfl⟩
  | loadMethod owner method =>
    have unused := unreferenced method rfl
    intro t c found _ declared _
    obtain ⟨d, c', -, found', rfl, declared', usable⟩ :=
      Offers.exists_member names member admitted found declared fun d hd x hx =>
        TypeDef.exists_method?_of_rewoven (apart unused hd .factory) (apart unused hd .injector) hx
    have same := d.method?_rewoven (ids.entry .factory d.name) (ids.entry .injector d.name) declared'
    cases same.symm.trans declared
    exact ⟨_, c, found', .inr rfl, declared', usable, rfl⟩
  | register kind ty => exact False.elim admitted
  | _ => trivial

/-- The module itself permits what its weave does. -/
lemma sound_introspecting (names : m.Unambiguous) (proper : m.Introspectable)
    (new : supply.NewTo m) (drawn : ids.inOrder m = supply.next m.idsNeeded) :
    (m.introspecting options ids).Sound where
  arity := by
    rintro _ _ _ c ⟨d, v, -, -, rfl, rfl, rfl⟩
    rfl
  returnType := by
    rintro _ _ _ c ⟨d, v, -, -, rfl, rfl, rfl⟩
    rfl
  body := by
    rintro _ _ _ c ⟨d, v, -, -, rfl, rfl, rfl⟩
    rfl
  covers := by
    rintro _ _ _ c ⟨d, v, hd, hc, rfl, rfl, rfl⟩ i hi
    exact covers_introspecting names drawn hd (proper.bodies d hd c hc i hi)
      (new.unreferenced d hd c hc i hi)
  construct := by
    intro ty t ctor c slots found concrete declared layout
    change (m.rewoven options ids).loadedTypes.find? ty = some t at found
    cases known : m.typeNamed? ty with
    | none =>
      -- the registrar is the only other type, and it has no constructors
      rw [find?_rewoven_of_none known] at found
      split at found
      · cases found
        cases declared
      · cases found
    | some d =>
      rw [find?_rewoven_of_some known] at found
      cases found
      -- constructors are only ever made public
      obtain ⟨c', declared'⟩ := TypeDef.exists_constructor?_of_rewoven declared
      obtain ⟨v, -, exposed⟩ := d.constructor?_rewoven (ids.entry .factory d.name)
        (ids.entry .injector d.name) declared'
      cases exposed.symm.trans declared
      refine ⟨⟨m.name, d⟩, c', ?_, ?_, declared', layout_of_rewoven known layout, d, v,
        List.mem_of_find?_eq_some known, mem_of_constructor? declared', rfl, rfl, rfl⟩
      · show m.loadedTypes.find? ty = _
        rw [find?_loadedTypes, known]
        rfl
      · rw [rewovenType, TypeDef.rewoven_isAbstract, TypeDef.rewoven_isInterface] at concrete
        exact concrete
  conforms ty target := (conforms_rewoven ty target).symm
  quiet _ _ _ := ⟨trivial, trivial⟩

end Module

end Weaver
