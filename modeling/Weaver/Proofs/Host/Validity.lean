import Weaver.Proofs.Host.Conformance
import Weaver.Proofs.Host.Moves
import Weaver.Proofs.Host.Reach
import Weaver.Proofs.Injection.Objects

/-!
# Valid hosts

References are numbers, so a value can be written down that refers to an object before there is one.
Code never comes by such a value: it gets references from the host, and the host gives out
references to the objects that it has made. A host is valid if no value that it holds, anywhere,
refers to an object that does not exist.

Four things live here:

* `Recipe.values`, `Registry.values` and their like, the values that embedding code has put there;
* `Host.Valid`, with one lemma for each change that keeps it;
* `Host.Leads`, the steps between valid hosts;
* `Host.Fits`, a value that exists and is an instance of a type: it goes on to be one, whatever a
  host leads to.
-/

namespace Weaver

/-! ## Values of embedding code -/

/-- The value that a source gives, if that is fixed. -/
def Source.values : Source → List Value
  | .fixed value => [value]
  | .fresh _ => []
  | .kept _ => []

mutual

/-- The fixed values in a recipe. -/
def Recipe.values : Recipe → List Value
  | .give source => source.values
  | .bind _ settings => BindingStep.valuesOfAll settings
  | .sequence recipes => Recipe.valuesOfAll recipes
  | .after _ _ recipe => recipe.values
  | .instantiate _ => []
  | .resolve _ => []
  | .tryResolve _ => []
  | .container => []
  | .count => []
  | .log _ => []
  | .invoke _ _ => []
  | .fail _ => []

/-- The fixed values in recipes. -/
def Recipe.valuesOfAll : List Recipe → List Value
  | [] => []
  | recipe :: rest => recipe.values ++ Recipe.valuesOfAll rest

/-- The fixed values in a step of configuration. -/
def BindingStep.values : BindingStep → List Value
  | .fromInstance source => source.values
  | .fromFactory recipe => recipe.values
  | .madeAs _ => []
  | .asSingleton => []
  | .asTransient => []

/-- The fixed values in steps of configuration. -/
def BindingStep.valuesOfAll : List BindingStep → List Value
  | [] => []
  | step :: rest => step.values ++ BindingStep.valuesOfAll rest

end

/-- The fixed values in a step of an injector. -/
def InjectorStep.values : InjectorStep → List Value
  | .run recipe => recipe.values
  | .assign _ _ recipe => recipe.values

/-- The fixed values in a supplied factory. -/
def SuppliedFactory.values (f : SuppliedFactory) : List Value := f.recipe.values

/-- The fixed values in a supplied injector. -/
def SuppliedInjector.values (i : SuppliedInjector) : List Value :=
  i.steps.flatMap InjectorStep.values

/-- The fixed values in a factory: only embedding code has any. -/
def Factory.values : Factory → List Value
  | .supplied factory => factory.values
  | .woven _ => []
  | .introspected _ => []

/-- The fixed values in an injector. -/
def Injector.values : Injector → List Value
  | .supplied injector => injector.values
  | .woven _ => []
  | .introspected _ _ => []

/-- The fixed values in the entries of a table. -/
def EntryTable.values {α : Type} (valuesOf : α → List Value) (table : EntryTable α) : List Value :=
  table.flatMap fun entry => valuesOf entry.2

/-- The fixed values in a fallback. -/
def Fallback.values : Fallback → List Value
  | .introspection => []
  | .listed factories injectors =>
    factories.values SuppliedFactory.values ++ injectors.values SuppliedInjector.values

/-- The fixed values in a registry. -/
def Registry.values (r : Registry) : List Value :=
  r.factories.values Factory.values ++ r.injectors.values Injector.values
    ++ (r.fallback.map Fallback.values).getD []
    ++ r.cachedFactories.values Factory.values ++ r.cachedInjectors.values Injector.values

/-- The values that a binding holds: its instance, and those in its factory. -/
def Binding.values (b : Binding) : List Value :=
  b.held.toList ++ (b.factory.map SuppliedFactory.values).getD []

lemma Binding.mem_values_of_held {b : Binding} {v : Value} (held : b.held = some v) :
    v ∈ b.values := by
  rw [values, held]
  exact List.mem_cons_self

/-! ### Entries of tables -/

section Tables

variable {α : Type} {valuesOf : α → List Value} {table : EntryTable α} {v : Value}

lemma EntryTable.mem_values_of_find? {ty : String} {a : α} (found : table.find? ty = some a)
    (member : v ∈ valuesOf a) : v ∈ table.values valuesOf := by
  obtain ⟨entry, first, rfl⟩ := Option.map_eq_some_iff.1 found
  exact List.mem_flatMap.2 ⟨entry, List.mem_of_find?_eq_some first, member⟩

lemma EntryTable.mem_values_append {entry : String × α} :
    v ∈ EntryTable.values valuesOf (table ++ [entry])
      ↔ v ∈ table.values valuesOf ∨ v ∈ valuesOf entry.2 := by
  rw [values, List.flatMap_append, List.mem_append]
  simp only [List.flatMap_singleton]
  rfl

end Tables

namespace Registry

variable {r r' : Registry} {ty : String} {v : Value}

lemma mem_values_iff : v ∈ r.values ↔
    v ∈ r.factories.values Factory.values ∨ v ∈ r.injectors.values Injector.values ∨
      v ∈ (r.fallback.map Fallback.values).getD [] ∨
      v ∈ r.cachedFactories.values Factory.values ∨
      v ∈ r.cachedInjectors.values Injector.values := by
  simp only [values, List.mem_append, or_assoc]

lemma mem_values_cacheFactory {factory : Factory} :
    v ∈ (r.cacheFactory ty factory).values ↔ v ∈ r.values ∨ v ∈ factory.values := by
  simp only [mem_values_iff, cacheFactory, EntryTable.mem_values_append]
  tauto

lemma mem_values_cacheInjector {injector : Injector} :
    v ∈ (r.cacheInjector ty injector).values ↔ v ∈ r.values ∨ v ∈ injector.values := by
  simp only [mem_values_iff, cacheInjector, EntryTable.mem_values_append]
  tauto

lemma mem_values_of_addFactory {factory : Factory} (added : r.addFactory ty factory = .ok r') :
    v ∈ r'.values ↔ v ∈ r.values ∨ v ∈ factory.values := by
  unfold addFactory at added
  split at added
  · cases added
  · injection added with added
    rw [← added]
    simp only [mem_values_iff, EntryTable.mem_values_append]
    tauto

lemma mem_values_of_addInjector {injector : Injector}
    (added : r.addInjector ty injector = .ok r') :
    v ∈ r'.values ↔ v ∈ r.values ∨ v ∈ injector.values := by
  unfold addInjector at added
  split at added
  · cases added
  · injection added with added
    rw [← added]
    simp only [mem_values_iff, EntryTable.mem_values_append]
    tauto

end Registry

namespace Host

variable {h h' : Host} {v : Value} {ty : String}

/-! ## Values that a host knows -/

/-- The object that a value refers to exists. Other values need none. -/
def Knows (h : Host) : Value → Prop
  | .object ref => ref.index < h.objects.size
  | _ => True

lemma Knows.of_size_le (more : h.objects.size ≤ h'.objects.size) (known : h.Knows v) :
    h'.Knows v := by
  cases v with
  | object ref => exact Nat.lt_of_lt_of_le known more
  | _ => trivial

lemma knows_defaultOf (h : Host) (ty : String) : h.Knows (.defaultOf ty) := by
  rw [Value.defaultOf]
  split
  · trivial
  · split <;> trivial

lemma knows_ofConstant (h : Host) (constant : Constant) : h.Knows (.ofConstant constant) := by
  cases constant <;> trivial

/-- The fields of a type and of those above it hold default values. -/
lemma exists_defaultOf_of_slots? {u : Universe} {bound : ℕ} {slots : List Slot}
    (found : u.slots? bound ty = some slots) : ∀ s ∈ slots, ∃ ty, s.value = .defaultOf ty := by
  have own (t : TypeDef) : ∀ s ∈ Universe.ownSlots t, ∃ ty, s.value = .defaultOf ty := by
    intro s member
    obtain ⟨f, -, rfl⟩ := List.mem_map.1 member
    exact ⟨f.ty, rfl⟩
  induction bound generalizing ty slots with
  | zero =>
    unfold Universe.slots? at found
    split at found
    · cases found
      exact fun s member => absurd member List.not_mem_nil
    · cases found
  | succ bound ih =>
    unfold Universe.slots? at found
    cases loaded : u.find? ty with
    | none =>
      simp only [loaded] at found
      cases found
      exact fun s member => absurd member List.not_mem_nil
    | some t =>
      cases above : t.definition.supertype with
      | none =>
        simp only [loaded, above] at found
        cases found
        exact own t.definition
      | some parent =>
        simp only [loaded, above] at found
        obtain ⟨inherited, further, rfl⟩ := Option.map_eq_some_iff.1 found
        intro s member
        rcases List.mem_append.1 member with here | there
        · exact own t.definition s here
        · exact ih further s there

/-- The fields of a new object hold default values. -/
lemma exists_defaultOf_of_layout {u : Universe} {slots : List Slot}
    (found : u.layout ty = .ok slots) : ∀ s ∈ slots, ∃ ty, s.value = .defaultOf ty := by
  unfold Universe.layout at found
  split at found
  · cases found
  · split at found
    next slots' found' =>
      injection found with same
      rw [← same]
      exact exists_defaultOf_of_slots? found'
    · cases found

lemma knows_of_layout (h : Host) {u : Universe} {slots : List Slot}
    (found : u.layout ty = .ok slots) : ∀ s ∈ slots, h.Knows s.value := by
  intro s member
  obtain ⟨ty', default⟩ := exists_defaultOf_of_layout found s member
  rw [default]
  exact h.knows_defaultOf ty'

/-- A slot of an object that is stored into is an old one, or holds the new value. -/
lemma mem_storeSlot {owner name : String} {value : Value} {slots : List Slot} {s : Slot}
    (member : s ∈ storeSlot owner name value slots) : s ∈ slots ∨ s.value = value := by
  induction slots with
  | nil => exact .inl member
  | cons first rest ih =>
    rw [storeSlot] at member
    split at member
    · rcases List.mem_cons.1 member with rfl | later
      · exact .inr rfl
      · exact .inl (List.mem_cons_of_mem _ later)
    · rcases List.mem_cons.1 member with rfl | later
      · exact .inl List.mem_cons_self
      · exact (ih later).imp_left (List.mem_cons_of_mem _)

/-- A slot of an object after an allocation is an old one, or one of the new object. -/
lemma mem_slots_allocate {o : HeapObject} {ref : ObjectRef} {s : Slot}
    (member : s ∈ ((h.allocate o).2.object ref).slots) :
    s ∈ (h.object ref).slots ∨ s ∈ o.slots := by
  rcases Nat.lt_trichotomy ref.index h.objects.size with old | same | beyond
  · rw [object_allocate_of_lt old] at member
    exact .inl member
  · have new : (h.allocate o).2.object ref = o := by
      have own := object_allocate_self h o
      rw [← same] at own
      exact own
    rw [new] at member
    exact .inr member
  · have none : (h.allocate o).2.object ref = default := by
      simp only [object, Host.allocate, Array.getD_eq_getD_getElem?]
      rw [Array.getElem?_eq_none (by simp; omega)]
      rfl
    rw [none] at member
    cases member

/-- A slot of an object after a value was stored is an old one, or holds the value. -/
lemma mem_slots_putDeclared {ref ref' : ObjectRef} {owner name : String} {value : Value} {s : Slot}
    (member : s ∈ ((h.putDeclared ref owner name value).object ref').slots) :
    s ∈ (h.object ref').slots ∨ s.value = value := by
  rw [object_putDeclared] at member
  split at member
  · exact mem_storeSlot member
  · exact .inl member

/-! ## Validity -/

/-- Every value that the host holds is known to it: in a field, in a binding, in embedding code, or
kept under a name. -/
structure Valid (h : Host) : Prop where
  slots (ref : ObjectRef) : ∀ s ∈ (h.object ref).slots, h.Knows s.value
  bindings (ref : BindingRef) : ∀ v ∈ (h.binding ref).values, h.Knows v
  registry : ∀ v ∈ h.registry.values, h.Knows v
  kept : ∀ entry ∈ h.kept, h.Knows entry.2

lemma valid_new (config : HostConfig) : (Host.new config).Valid where
  slots _ s member := absurd member List.not_mem_nil
  bindings _ v member := absurd member List.not_mem_nil
  registry v member := by
    have none : (Host.new config).registry.values = [] := by
      cases fallback : config.fallback <;>
        simp [Host.new, fallback, Registry.values, EntryTable.values, Fallback.values]
    rw [none] at member
    cases member
  kept _ member := absurd member List.not_mem_nil

namespace Valid

/-- A host that differs in none of the parts that hold values. -/
lemma of_parts (valid : h.Valid) (objects : h'.objects = h.objects)
    (bindings : h'.bindings = h.bindings) (registry : h'.registry = h.registry)
    (kept : h'.kept = h.kept) : h'.Valid := by
  have knows {v : Value} (known : h.Knows v) : h'.Knows v :=
    known.of_size_le (by rw [objects])
  refine ⟨fun ref s member => ?_, fun ref v member => ?_, fun v member => ?_,
    fun entry member => ?_⟩
  · rw [object, objects] at member
    exact knows (valid.slots ref s member)
  · rw [binding, bindings] at member
    exact knows (valid.bindings ref v member)
  · rw [registry] at member
    exact knows (valid.registry v member)
  · rw [kept] at member
    exact knows (valid.kept entry member)

/-- A new object whose fields hold known values. -/
lemma allocate (valid : h.Valid) {o : HeapObject} (known : ∀ s ∈ o.slots, h.Knows s.value) :
    (h.allocate o).2.Valid := by
  have knows {v : Value} (known : h.Knows v) : (h.allocate o).2.Knows v :=
    known.of_size_le (by simp [Host.allocate])
  refine ⟨fun ref s member => ?_, fun ref v member => knows (valid.bindings ref v member),
    fun v member => knows (valid.registry v member), fun entry member =>
      knows (valid.kept entry member)⟩
  rcases mem_slots_allocate member with old | new
  · exact knows (valid.slots ref s old)
  · exact knows (known s new)

/-- A known value is stored. -/
lemma putDeclared (valid : h.Valid) {value : Value} (known : h.Knows value) (ref : ObjectRef)
    (owner name : String) : (h.putDeclared ref owner name value).Valid := by
  have knows {v : Value} (known : h.Knows v) : (h.putDeclared ref owner name value).Knows v :=
    known.of_size_le (by simp [Host.putDeclared])
  refine ⟨fun ref' s member => ?_, fun ref v member => knows (valid.bindings ref v member),
    fun v member => knows (valid.registry v member), fun entry member =>
      knows (valid.kept entry member)⟩
  rcases mem_slots_putDeclared member with old | stored
  · exact knows (valid.slots ref' s old)
  · rw [stored]
    exact knows known

/-- A binding is changed so that it still holds known values. -/
lemma updateBinding (valid : h.Valid) (ref : BindingRef) {f : Binding → Binding}
    (known : ∀ v ∈ (f (h.binding ref)).values, h.Knows v) : (h.updateBinding ref f).Valid where
  slots := valid.slots
  registry := valid.registry
  kept := valid.kept
  bindings ref' v member := by
    rw [binding_updateBinding] at member
    split at member
    next here =>
      rw [← here.1] at member
      exact known v member
    · exact valid.bindings ref' v member

/-- A new binding holds nothing. -/
lemma bind (valid : h.Valid) (c : ContainerRef) (ty : String) : (h.bind c ty).2.Valid where
  slots := valid.slots
  registry := valid.registry
  kept := valid.kept
  bindings ref v member := by
    rcases Nat.lt_or_ge ref.index h.bindings.size with old | new
    · rw [binding_bind_of_lt old] at member
      exact valid.bindings ref v member
    · rcases binding_bind_of_le new c ty with same | same
      · rw [same] at member
        cases member
      · rw [same] at member
        cases member

/-- What a source gives is known, if its fixed value is. -/
lemma obtain (valid : h.Valid) {source : Source} (known : ∀ v ∈ source.values, h.Knows v) :
    (h.obtain source).2.Valid ∧ (h.obtain source).2.Knows (h.obtain source).1 := by
  cases source with
  | fixed value => exact ⟨valid, known value (List.mem_singleton.2 rfl)⟩
  | fresh ty =>
    refine ⟨valid.allocate fun s member => absurd member List.not_mem_nil, ?_⟩
    show h.objects.size < (h.objects.push { ty }).size
    rw [Array.size_push]
    exact Nat.lt_succ_self _
  | kept name =>
    refine ⟨valid, ?_⟩
    show h.Knows ((h.kept? name).getD .null)
    cases found : h.kept? name with
    | none => trivial
    | some value =>
      obtain ⟨entry, first, rfl⟩ := Option.map_eq_some_iff.1 found
      exact valid.kept entry (List.mem_of_find?_eq_some first)

/-- A binding is given known values. -/
lemma configureStep (valid : h.Valid) (ref : BindingRef) {step : BindingStep}
    (known : ∀ v ∈ step.values, h.Knows v) : (h.configureStep ref step).Valid := by
  have old := valid.bindings ref
  cases step with
  | fromInstance source =>
    obtain ⟨valid', known'⟩ := valid.obtain known
    have size : h.objects.size ≤ (h.obtain source).2.objects.size := (Keeps.obtain h source).objects
    refine valid'.updateBinding ref fun v member => ?_
    rcases List.mem_append.1 member with held | made
    · rw [List.mem_singleton.1 held]
      exact known'
    · exact valid'.bindings ref v (List.mem_append_right _ made)
  | fromFactory recipe =>
    have counted : h.addCounter.2.Valid := valid.of_parts rfl rfl rfl rfl
    refine counted.updateBinding ref
      (f := fun b => { b with factory := some { recipe, counter := _ } }) fun v member => ?_
    rcases List.mem_append.1 member with held | made
    · exact old v (List.mem_append_left _ held)
    · exact known v made
  | madeAs | asSingleton | asTransient => exact valid.updateBinding ref old

/-- An entry is put into the registry, with values that are known. -/
lemma register (valid : h.Valid) {registry : Registry} {values : List Value}
    (entries : ∀ v ∈ registry.values, v ∈ h.registry.values ∨ v ∈ values)
    (known : ∀ v ∈ values, h.Knows v) : { h with registry }.Valid where
  slots := valid.slots
  bindings := valid.bindings
  registry v member := (entries v member).elim (valid.registry v) (known v)
  kept := valid.kept

/-- A known value is kept under a name. -/
lemma keep (valid : h.Valid) {value : Value} (known : h.Knows value) (name : String) :
    (h.keep name value).Valid where
  slots := valid.slots
  bindings := valid.bindings
  registry := valid.registry
  kept entry member := by
    rcases List.mem_cons.1 member with rfl | old
    · exact known
    · exact valid.kept entry old

/-! ### What the registry finds -/

lemma factory (valid : h.Valid) {factory : Factory}
    (found : h.registry.factories.find? ty = some factory) : ∀ v ∈ factory.values, h.Knows v :=
  fun v member => valid.registry v
    (Registry.mem_values_iff.2 (.inl (EntryTable.mem_values_of_find? found member)))

lemma injector (valid : h.Valid) {injector : Injector}
    (found : h.registry.injectors.find? ty = some injector) : ∀ v ∈ injector.values, h.Knows v :=
  fun v member => valid.registry v
    (Registry.mem_values_iff.2 (.inr (.inl (EntryTable.mem_values_of_find? found member))))

lemma fallback (valid : h.Valid) {fallback : Fallback}
    (found : h.registry.fallback = some fallback) : ∀ v ∈ fallback.values, h.Knows v := by
  intro v member
  refine valid.registry v (Registry.mem_values_iff.2 (.inr (.inr (.inl ?_))))
  rw [found]
  exact member

lemma cachedFactory (valid : h.Valid) {factory : Factory}
    (found : h.registry.cachedFactories.find? ty = some factory) :
    ∀ v ∈ factory.values, h.Knows v :=
  fun v member => valid.registry v (Registry.mem_values_iff.2
    (.inr (.inr (.inr (.inl (EntryTable.mem_values_of_find? found member))))))

lemma cachedInjector (valid : h.Valid) {injector : Injector}
    (found : h.registry.cachedInjectors.find? ty = some injector) :
    ∀ v ∈ injector.values, h.Knows v :=
  fun v member => valid.registry v (Registry.mem_values_iff.2
    (.inr (.inr (.inr (.inr (EntryTable.mem_values_of_find? found member))))))

end Valid

/-! ## What a host leads to -/

/-- Steps of a host that keep it valid, one after the other: whatever running code and the code that
embeds the host can do with values that they have got from it. -/
def Leads : Host → Host → Prop :=
  Relation.ReflTransGen fun h h' => Step h h' ∧ h'.Valid

namespace Leads

lemma refl (h : Host) : Leads h h := Relation.ReflTransGen.refl

lemma trans {h₁ h₂ h₃ : Host} (first : Leads h₁ h₂) (second : Leads h₂ h₃) : Leads h₁ h₃ :=
  Relation.ReflTransGen.trans first second

lemma step (step : Step h h') (valid : h'.Valid) : Leads h h' :=
  Relation.ReflTransGen.single ⟨step, valid⟩

lemma change (change : Change h h') (valid : h'.Valid) : Leads h h' :=
  .step (.change change) valid

lemma reaches (leads : Leads h h') : Reaches h h' :=
  Relation.ReflTransGen.mono (fun _ _ both => both.1) _ _ leads

lemma valid (leads : Leads h h') (valid : h.Valid) : h'.Valid := by
  induction leads with
  | refl => exact valid
  | tail _ both _ => exact both.2

end Leads

/-! ### Objects stay what they are -/

/-- No step takes an object away or changes its type. -/
lemma Step.object (step : Step h h') : h.objects.size ≤ h'.objects.size ∧
    ∀ ref, ref.index < h.objects.size → (h'.object ref).ty = (h.object ref).ty := by
  cases step with
  | change change =>
    refine ⟨change.keeps.objects, fun ref old => ?_⟩
    exact congrArg Prod.fst (change.keeps.shape ref old)
  | _ => exact ⟨Nat.le_refl _, fun _ _ => rfl⟩

lemma Reaches.object (reached : Reaches h h') : h.objects.size ≤ h'.objects.size ∧
    ∀ ref, ref.index < h.objects.size → (h'.object ref).ty = (h.object ref).ty := by
  induction reached with
  | refl => exact ⟨Nat.le_refl _, fun _ _ => rfl⟩
  | tail _ step ih =>
    obtain ⟨size, same⟩ := step.object
    refine ⟨ih.1.trans size, fun ref old => ?_⟩
    rw [same ref (old.trans_le ih.1), ih.2 ref old]

/-! ## Instances -/

/-- The value exists and is an instance of the type. -/
structure Fits (h : Host) (v : Value) (ty : String) : Prop where
  known : h.Knows v
  isInstance : h.isInstance v ty = true

/-- An instance of anything is not null. -/
lemma Fits.ne_null (fits : h.Fits v ty) : v ≠ .null := by
  rintro rfl
  have isInstance := fits.isInstance
  cases isInstance

lemma Knows.lead (known : h.Knows v) (leads : h.Leads h') : h'.Knows v :=
  known.of_size_le leads.reaches.object.1

/-- A value that exists goes on to be an instance of what it is an instance of: its type stays, and
what the type conforms to can only become more. -/
lemma Reaches.isInstance (reached : Reaches h h') (known : h.Knows v)
    (isInstance : h.isInstance v ty = true) : h'.isInstance v ty = true := by
  cases v with
  | object ref =>
    have same := reached.object.2 ref known
    simp only [Host.isInstance, Bool.or_eq_true] at isInstance ⊢
    rw [same]
    exact isInstance.imp_right (Universe.conforms_of_prefix reached.types)
  | _ => exact isInstance

theorem Fits.lead (fits : h.Fits v ty) (leads : h.Leads h') : h'.Fits v ty :=
  ⟨fits.known.lead leads, leads.reaches.isInstance fits.known fits.isInstance⟩

end Host
end Weaver
