import Weaver.Proofs.Injection.Objects

/-!
# Private fields

Two hosts that differ in nothing but what some private fields hold, and hosts on which such fields
hold what they held. A type may declare several fields of a name, and then an object has as many
slots of this name; only the first of them is ever read or stored into, as only the first field of
the name is looked at for its visibility. So what is private is told slot by slot, by its position.

Three things live here:

* `TypeDef.Hides`, the slots that belong to private fields, and `TypeDef.not_hides_findIdx`, that no
  access which the checks let pass is to one of them;
* `Host.Twins` and `Host.KeepsHidden`, hosts that differ in such slots, or in all but them;
* `Host.Paired`, what runs from two such hosts may do, and the changes that they are made of.
-/

namespace Weaver

/-! ## Slots of private fields -/

namespace TypeDef

variable {t : TypeDef} {slots : List (String × String)} {owner name : String} {k : ℕ}

/-- The slot at a position of an object belongs to a private field of the type: the first slot of a
name to the first field of the name, the second to the second. -/
def Hides (t : TypeDef) (slots : List (String × String)) (k : ℕ) : Prop :=
  ∃ name f, slots[k]? = some (t.name, name) ∧
    (t.fields.filter (·.name == name))[(slots.take k).count (t.name, name)]? = some f ∧
    f.visibility = .ownType

/-- A field that is found under its name and is not a private one of the type. -/
def Shows (t : TypeDef) (owner name : String) : Prop :=
  owner = t.name → ∀ f ∈ t.field? name, f.visibility ≠ .ownType

instance : Decidable (t.Shows owner name) :=
  inferInstanceAs (Decidable (owner = t.name → ∀ f ∈ t.field? name, f.visibility ≠ .ownType))

/-- The slot that an access finds belongs to the field that the access was checked for. -/
lemma not_hides_findIdx (shows : t.Shows owner name) :
    ¬t.Hides slots (slots.findIdx (· == (owner, name))) := by
  rintro ⟨name', f, slot, field, private_⟩
  obtain ⟨there, slot⟩ := List.getElem?_eq_some_iff.1 slot
  have found := List.findIdx_getElem (w := there)
  rw [slot, beq_iff_eq, Prod.mk.injEq] at found
  obtain ⟨rfl, rfl⟩ := found
  -- no slot of the name comes before it
  have first : (slots.take (slots.findIdx (· == (t.name, name')))).count (t.name, name') = 0 := by
    refine List.count_eq_zero.2 fun member => ?_
    obtain ⟨i, lt, same⟩ := List.mem_iff_getElem.1 member
    rw [List.getElem_take] at same
    have before : i < slots.findIdx (· == (t.name, name')) := by
      rw [List.length_take] at lt
      omega
    have other := List.not_of_lt_findIdx before
    rw [same, beq_self_eq_true] at other
    cases other
  rw [first, ← List.head?_eq_getElem?, List.head?_filter] at field
  exact shows rfl f field private_

end TypeDef

namespace Host

variable {t : TypeDef} {h h' h'' g g' : Host} {ref ref' : ObjectRef} {owner name : String}
  {value : Value} {k : ℕ}

/-- The value in the slot at a position of an object. -/
def slotAt? (h : Host) (ref : ObjectRef) (k : ℕ) : Option Value :=
  ((h.object ref).slots[k]?).map (·.value)

lemma getDeclared?_eq_slotAt? (h : Host) (ref : ObjectRef) (owner name : String) :
    h.getDeclared? ref owner name
      = h.slotAt? ref ((h.shape ref).2.findIdx (· == (owner, name))) := by
  rw [getDeclared?, slotValue?, slotAt?, shape]
  generalize (h.object ref).slots = slots
  induction slots with
  | nil => rfl
  | cons s rest ih =>
    have condition : ((s.owner, s.name) == (owner, name)) = (s.owner == owner && s.name == name) :=
      rfl
    rw [List.find?_cons, List.map_cons, List.findIdx_cons, condition]
    cases s.owner == owner && s.name == name with
    | true => rfl
    | false => exact ih

/-- What is stored is in the slot that is found first, and the other slots stay. -/
lemma slotAt?_putDeclared (h : Host) (ref ref' : ObjectRef) (owner name : String) (value : Value)
    (k : ℕ) : (h.putDeclared ref owner name value).slotAt? ref' k
      = if ref = ref' ∧ (h.shape ref').2.findIdx (· == (owner, name)) = k then
          (h.slotAt? ref' k).map fun _ => value
        else h.slotAt? ref' k := by
  rw [slotAt?, object_putDeclared]
  by_cases same : ref = ref'
  · rw [if_pos same, slotAt?, shape]
    simp only [same, true_and]
    generalize (h.object ref').slots = slots
    induction slots generalizing k with
    | nil => simp [storeSlot]
    | cons s rest ih =>
      have condition : ((s.owner, s.name) == (owner, name))
          = (s.owner == owner && s.name == name) := rfl
      rw [storeSlot, List.map_cons, List.findIdx_cons, condition]
      cases s.owner == owner && s.name == name with
      | true => cases k <;> simp
      | false =>
        cases k with
        | zero => simp
        | succ k => simpa using ih k
  · rw [if_neg same, if_neg fun all => same all.1]
    rfl

lemma object_allocate (h : Host) (o : HeapObject) (ref : ObjectRef) :
    (h.allocate o).2.object ref = if ref.index = h.objects.size then o else h.object ref := by
  simp only [Host.object, Host.allocate, Array.getD_eq_getD_getElem?, Array.getElem?_push]
  split <;> rfl

/-! ## Hosts that differ in private fields -/

/-- The hosts differ in nothing but what private fields of the type hold. -/
structure Twins (t : TypeDef) (h g : Host) : Prop where
  parts : g = { h with objects := g.objects }
  size : g.objects.size = h.objects.size
  shape (ref : ObjectRef) : g.shape ref = h.shape ref
  slots (ref : ObjectRef) (k : ℕ) : ¬t.Hides (h.shape ref).2 k → g.slotAt? ref k = h.slotAt? ref k

/-- The objects of the first host are there in the second, and the private fields of the type hold
there what they held. -/
structure KeepsHidden (t : TypeDef) (h h' : Host) : Prop where
  size : h.objects.size ≤ h'.objects.size
  shape (ref : ObjectRef) : ref.index < h.objects.size → h'.shape ref = h.shape ref
  slots (ref : ObjectRef) (k : ℕ) : ref.index < h.objects.size → t.Hides (h.shape ref).2 k →
    h'.slotAt? ref k = h.slotAt? ref k

namespace KeepsHidden

lemma refl (t : TypeDef) (h : Host) : h.KeepsHidden t h :=
  ⟨le_rfl, fun _ _ => rfl, fun _ _ _ _ => rfl⟩

lemma trans (first : h.KeepsHidden t h') (second : h'.KeepsHidden t h'') : h.KeepsHidden t h'' where
  size := first.size.trans second.size
  shape ref old := (second.shape ref (old.trans_le first.size)).trans (first.shape ref old)
  slots ref k old hides := by
    have later : t.Hides (h'.shape ref).2 k := by
      rw [first.shape ref old]
      exact hides
    exact (second.slots ref k (old.trans_le first.size) later).trans (first.slots ref k old hides)

/-- What leaves the objects alone leaves private fields alone. -/
lemma of_objects (same : h'.objects = h.objects) : h.KeepsHidden t h' := by
  have object (ref : ObjectRef) : h'.object ref = h.object ref := by rw [Host.object, same]; rfl
  refine ⟨by rw [same], fun ref _ => ?_, fun ref k _ _ => ?_⟩
  · rw [Host.shape, object]
    rfl
  · rw [slotAt?, object]
    rfl

lemma allocate (t : TypeDef) (h : Host) (object : HeapObject) :
    h.KeepsHidden t (h.allocate object).2 where
  size := by simp [Host.allocate]
  shape ref old := by
    rw [Host.shape, object_allocate_of_lt old]
    rfl
  slots ref k old _ := by
    rw [slotAt?, object_allocate_of_lt old]
    rfl

/-- What the checks let pass is not stored into a private field. -/
lemma putDeclared (shows : t.Shows owner name) (h : Host) (ref : ObjectRef) (value : Value) :
    h.KeepsHidden t (h.putDeclared ref owner name value) where
  size := by simp [Host.putDeclared]
  shape ref' _ := shape_putDeclared h ref owner name value ref'
  slots ref' k _ hides := by
    rw [slotAt?_putDeclared, if_neg]
    rintro ⟨-, rfl⟩
    exact TypeDef.not_hides_findIdx shows hides

end KeepsHidden

/-- The type is loaded, and the loaded types supply no factories and injectors. -/
structure Guards (t : TypeDef) (h : Host) : Prop where
  loaded : h.typeDef? t.name = some t
  fallback : h.registry.fallback ≠ some .introspection
  factories : ∀ entry ∈ h.registry.factories ++ h.registry.cachedFactories,
    ∀ ty, entry.2 ≠ .introspected ty
  injectors : ∀ entry ∈ h.registry.injectors ++ h.registry.cachedInjectors,
    ∀ owner fields, entry.2 ≠ .introspected owner fields

lemma Guards.of_parts (guards : h.Guards t) (types : h'.types = h.types)
    (registry : h'.registry = h.registry) : h'.Guards t where
  loaded := by
    rw [typeDef?, types]
    exact guards.loaded
  fallback := by
    rw [registry]
    exact guards.fallback
  factories := by
    rw [registry]
    exact guards.factories
  injectors := by
    rw [registry]
    exact guards.injectors

namespace Guards

variable (guards : h.Guards t)
include guards

lemma registerFactory {ty : String} {handle : MethodHandle} {registry : Registry}
    (added : h.registry.addFactory ty (.woven handle) = .ok registry) :
    { h with registry }.Guards t := by
  rw [Registry.addFactory] at added
  split at added
  · cases added
  injection added with added
  subst added
  refine { guards with factories := fun entry member => ?_ }
  rw [List.append_assoc, List.mem_append, List.mem_append] at member
  rcases member with old | new | cached
  · exact guards.factories entry (List.mem_append_left _ old)
  · rw [List.mem_singleton.1 new]
    intro _ supplied
    cases supplied
  · exact guards.factories entry (List.mem_append_right _ cached)

lemma registerInjector {ty : String} {handle : MethodHandle} {registry : Registry}
    (added : h.registry.addInjector ty (.woven handle) = .ok registry) :
    { h with registry }.Guards t := by
  rw [Registry.addInjector] at added
  split at added
  · cases added
  injection added with added
  subst added
  refine { guards with injectors := fun entry member => ?_ }
  rw [List.append_assoc, List.mem_append, List.mem_append] at member
  rcases member with old | new | cached
  · exact guards.injectors entry (List.mem_append_left _ old)
  · rw [List.mem_singleton.1 new]
    intro _ _ supplied
    cases supplied
  · exact guards.injectors entry (List.mem_append_right _ cached)

lemma cacheFactory (ty : String) (factory : SuppliedFactory) :
    { h with registry := h.registry.cacheFactory ty (.supplied factory) }.Guards t := by
  refine { guards with factories := fun entry member => ?_ }
  rw [Registry.cacheFactory, ← List.append_assoc, List.mem_append] at member
  rcases member with old | new
  · exact guards.factories entry old
  · rw [List.mem_singleton.1 new]
    intro _ supplied
    cases supplied

lemma cacheInjector (ty : String) (injector : SuppliedInjector) :
    { h with registry := h.registry.cacheInjector ty (.supplied injector) }.Guards t := by
  refine { guards with injectors := fun entry member => ?_ }
  rw [Registry.cacheInjector, ← List.append_assoc, List.mem_append] at member
  rcases member with old | new
  · exact guards.injectors entry old
  · rw [List.mem_singleton.1 new]
    intro _ _ supplied
    cases supplied

end Guards

namespace Twins

variable (twins : h.Twins t g)
include twins

lemma types : g.types = h.types := by rw [twins.parts]

lemma registry : g.registry = h.registry := by rw [twins.parts]

lemma callDepth : g.callDepth = h.callDepth := by rw [twins.parts]

lemma container (c : ContainerRef) : g.container c = h.container c := by rw [twins.parts]; rfl

lemma binding (ref : BindingRef) : g.binding ref = h.binding ref := by rw [twins.parts]; rfl

lemma bindingFor? (c : ContainerRef) (ty : String) : g.bindingFor? c ty = h.bindingFor? c ty := by
  rw [twins.parts]
  rfl

lemma ty (ref : ObjectRef) : (g.object ref).ty = (h.object ref).ty :=
  congrArg Prod.fst (twins.shape ref)

lemma typeName (value : Value) : g.typeName value = h.typeName value := by
  cases value with
  | object ref => exact twins.ty ref
  | _ => rfl

lemma isInstance (value : Value) (ty : String) : g.isInstance value ty = h.isInstance value ty := by
  cases value with
  | object ref =>
    show (ty == objectType || g.types.conforms (g.object ref).ty ty) = _
    rw [twins.types, twins.ty]
    rfl
  | _ => rfl

lemma display (value : Value) : value.display g = value.display h := by
  cases value with
  | object ref => exact congrArg (fun ty => "<" ++ ty ++ ">") (twins.ty ref)
  | bool b => cases b <;> rfl
  | _ => rfl

lemma obtain_fst (source : Source) : (g.obtain source).1 = (h.obtain source).1 := by
  cases source with
  | fixed value => rfl
  | fresh ty => exact congrArg (fun n => Value.object ⟨n⟩) twins.size
  | kept name =>
    rw [twins.parts]
    rfl

/-- What the checks let pass is read alike. -/
lemma getDeclared? (shows : t.Shows owner name) (ref : ObjectRef) :
    g.getDeclared? ref owner name = h.getDeclared? ref owner name := by
  rw [getDeclared?_eq_slotAt?, getDeclared?_eq_slotAt?, twins.shape]
  exact twins.slots ref _ (TypeDef.not_hides_findIdx shows)

end Twins

/-- Two hosts after the same has happened on two hosts that differ in private fields only: they do
not differ in more, and on both the private fields hold what they held. -/
structure Paired (t : TypeDef) (h g h' g' : Host) : Prop where
  guards : h'.Guards t
  twins : h'.Twins t g'
  first : h.KeepsHidden t h'
  second : g.KeepsHidden t g'

namespace Paired

lemma refl (guards : h.Guards t) (twins : h.Twins t g) : Paired t h g h g :=
  ⟨guards, twins, .refl t h, .refl t g⟩

lemma trans {g'' : Host} (one : Paired t h g h' g') (two : Paired t h' g' h'' g'') :
    Paired t h g h'' g'' :=
  ⟨two.guards, two.twins, one.first.trans two.first, one.second.trans two.second⟩

/-- A change that does not look at objects. -/
lemma update (twins : h.Twins t g) {u : Host → Host}
    (blind : ∀ h objects, u { h with objects } = { u h with objects }) (guards : (u h).Guards t) :
    Paired t h g (u h) (u g) := by
  have apart (h : Host) : (u h).objects = h.objects := by
    have same : u h = { u h with objects := h.objects } := blind h h.objects
    rw [same]
  have object (h : Host) (ref : ObjectRef) : (u h).object ref = h.object ref := by
    rw [Host.object, apart]
    rfl
  refine ⟨guards, ⟨?_, ?_, fun ref => ?_, fun ref k hides => ?_⟩, .of_objects (apart h),
    .of_objects (apart g)⟩
  · rw [apart g, twins.parts]
    exact blind h g.objects
  · rw [apart, apart]
    exact twins.size
  · rw [Host.shape, object, Host.shape, object]
    exact twins.shape ref
  · rw [slotAt?, object, slotAt?, object]
    rw [Host.shape, object] at hides
    exact twins.slots ref k hides

lemma allocate (guards : h.Guards t) (twins : h.Twins t g) (o : HeapObject) :
    Paired t h g (h.allocate o).2 (g.allocate o).2 := by
  have object (ref : ObjectRef) : (g.allocate o).2.object ref = (h.allocate o).2.object ref ∨
      (g.allocate o).2.object ref = g.object ref ∧ (h.allocate o).2.object ref = h.object ref := by
    rw [object_allocate, object_allocate, twins.size]
    split
    · exact .inl rfl
    · exact .inr ⟨rfl, rfl⟩
  refine ⟨guards.of_parts rfl rfl, ⟨?_, ?_, fun ref => ?_, fun ref k hides => ?_⟩, .allocate t h o,
    .allocate t g o⟩
  · exact congrArg (fun host : Host => { host with objects := g.objects.push o }) twins.parts
  · simp [Host.allocate, twins.size]
  · rcases object ref with same | ⟨left, right⟩
    · rw [Host.shape, same]
      rfl
    · rw [Host.shape, left, Host.shape, right]
      exact twins.shape ref
  · rcases object ref with same | ⟨left, right⟩
    · rw [slotAt?, same]
      rfl
    · rw [slotAt?, left, slotAt?, right]
      rw [Host.shape, right] at hides
      exact twins.slots ref k hides

lemma putDeclared (guards : h.Guards t) (twins : h.Twins t g) (shows : t.Shows owner name)
    (ref : ObjectRef) (value : Value) :
    Paired t h g (h.putDeclared ref owner name value) (g.putDeclared ref owner name value) := by
  refine ⟨guards.of_parts rfl rfl, ⟨?_, ?_, fun ref' => ?_, fun ref' k hides => ?_⟩,
    .putDeclared shows h ref value, .putDeclared shows g ref value⟩
  · exact congrArg (fun host : Host => { host with
      objects := (g.putDeclared ref owner name value).objects }) twins.parts
  · simp [Host.putDeclared, twins.size]
  · rw [shape_putDeclared, shape_putDeclared]
    exact twins.shape ref'
  · rw [shape_putDeclared] at hides
    rw [slotAt?_putDeclared, slotAt?_putDeclared, twins.shape, twins.slots ref' k hides]

lemma obtain (guards : h.Guards t) (twins : h.Twins t g) (source : Source) :
    Paired t h g (h.obtain source).2 (g.obtain source).2 := by
  cases source with
  | fresh ty => exact .allocate guards twins { ty }
  | _ => exact .refl guards twins

lemma configureStep (guards : h.Guards t) (twins : h.Twins t g) (ref : BindingRef)
    (step : BindingStep) : Paired t h g (h.configureStep ref step) (g.configureStep ref step) := by
  cases step with
  | fromInstance source =>
    have before := Paired.obtain guards twins source
    have same : g.configureStep ref (.fromInstance source) = (g.obtain source).2.updateBinding ref
        fun b => { b with held := some (h.obtain source).1, scope := .singleton } := by
      rw [← twins.obtain_fst]
      rfl
    rw [same]
    exact before.trans (.update (u := fun h' => h'.updateBinding ref fun b =>
      { b with held := some (h.obtain source).1, scope := .singleton }) before.twins
      (fun _ _ => rfl) (before.guards.of_parts rfl rfl))
  | _ =>
    exact .update (u := fun h => h.configureStep ref _) twins (fun _ _ => rfl)
      (guards.of_parts rfl rfl)

lemma configure (guards : h.Guards t) (twins : h.Twins t g) (ref : BindingRef)
    (steps : List BindingStep) : Paired t h g (h.configure ref steps) (g.configure ref steps) := by
  induction steps generalizing h g with
  | nil => exact .refl guards twins
  | cons step rest ih =>
    have first := Paired.configureStep guards twins ref step
    exact first.trans (ih first.guards first.twins)

/-- A binding that is declared on both has one reference. -/
lemma bind_configure (guards : h.Guards t) (twins : h.Twins t g) (c : ContainerRef) (ty : String)
    (steps : List BindingStep) :
    Paired t h g ((h.bind c ty).2.configure (h.bind c ty).1 steps)
      ((g.bind c ty).2.configure (g.bind c ty).1 steps) := by
  have bound : Paired t h g (h.bind c ty).2 (g.bind c ty).2 :=
    .update (u := fun h => (h.bind c ty).2) twins (fun _ _ => rfl) (guards.of_parts rfl rfl)
  have same : (g.bind c ty).1 = (h.bind c ty).1 := by
    rw [twins.parts]
    rfl
  rw [same]
  exact bound.trans (.configure bound.guards bound.twins _ steps)

end Paired

end Host

end Weaver
