import Weaver.Proofs.Weave.Introspection

/-!
# What the fallback supplies

The registry of a woven module has a factory and an injector for every type that got one. A host with
the introspection fallback finds one for the same types in its loaded types, and keeps what it has
found. So the two hosts match before and after every lookup.

Three things live here:

* changes of containers, bindings and kept answers after which matching hosts match again;
* `introspectedFactory?_eq_some` and `introspectedInjector?_eq_some`, what is found in loaded types;
* `of_factoryOf`, `exists_run_factoryOf` and `followedAt_injectorOf?`, the lookups on both hosts.
-/

namespace Weaver

open Host Engine

lemma EntryTable.of_find?_append {α : Type} {table : EntryTable α} {ty ty' : String} {a b : α}
    (found : EntryTable.find? (table ++ [(ty, a)]) ty' = some b) :
    table.find? ty' = some b ∨ ty' = ty ∧ b = a := by
  rw [find?, List.find?_append] at found
  rw [find?]
  cases own : List.find? (·.1 == ty') table with
  | some entry =>
    rw [own, Option.some_or] at found
    exact .inl found
  | none =>
    rw [own, Option.none_or] at found
    obtain ⟨entry, last, rfl⟩ := Option.map_eq_some_iff.1 found
    have member := List.mem_of_find?_eq_some last
    have named := List.find?_some last
    rw [List.mem_singleton] at member
    subst member
    exact .inr ⟨(eq_of_beq named).symm, rfl⟩

namespace Module

variable {m : Module} {options : WeaveOptions} {ids : WeaveIds} {supply : IdSupply} {h g : Host}
  {e : Engine}

/-! ## Hosts that match -/

section Match

lemma loud_introspecting (w w' : Wiring) : (m.introspecting options ids).Quiet w w' := trivial

variable (same : (m.introspecting options ids).Match h g)
include same

lemma containers_eq : g.containers = h.containers := same.wired.containers

lemma bindings_eq : g.bindings = h.bindings := same.wired.bindings

/-- The same change of a container on both hosts. -/
lemma match_updateContainer (c : ContainerRef) (f : Container → Container) :
    (m.introspecting options ids).Match (h.updateContainer c f) (g.updateContainer c f) :=
  { same with
    wired :=
      { same.wired with
        containers := by
          show g.containers.modify _ _ = h.containers.modify _ _
          rw [containers_eq same] } }

/-- The same change of a binding on both hosts, which gives it no factory. -/
lemma match_updateBinding (ref : BindingRef) {f : Binding → Binding}
    (keeps : ∀ b : Binding, b.factory = none → (f b).factory = none) :
    (m.introspecting options ids).Match (h.updateBinding ref f) (g.updateBinding ref f) :=
  { same with
    wired :=
      { same.wired with
        bindings := by
          show g.bindings.modify _ _ = h.bindings.modify _ _
          rw [bindings_eq same]
        unsupplied := by
          intro b member
          -- a binding of the changed table is an old one, changed or not
          obtain ⟨i, hi, rfl⟩ := Array.getElem_of_mem member
          have unsupplied : ∀ b ∈ h.bindings, b.factory = none := same.wired.unsupplied
          have bound : i < h.bindings.size := by simpa [wiring, updateBinding] using hi
          have old := unsupplied _ (Array.getElem_mem bound)
          simp only [wiring, updateBinding, Array.getElem_modify]
          split
          · exact keeps _ old
          · exact old } }

/-- No binding has a factory of its own. -/
lemma factory_binding (ref : BindingRef) : (h.binding ref).factory = none := by
  have unsupplied : ∀ b ∈ h.bindings, b.factory = none := same.wired.unsupplied
  rw [binding, Array.getD_eq_getD_getElem?]
  cases found : h.bindings[ref.index]? with
  | none => rfl
  | some b => exact unsupplied b (Array.mem_of_getElem? found)

/-- A type is answered for by the same binding on both hosts. -/
lemma bindingFor?_eq (c : ContainerRef) (ty : String) :
    g.bindingFor? c ty = h.bindingFor? c ty := by
  have chain : g.types.chain maxHierarchyDepth ty = h.types.chain maxHierarchyDepth ty := by
    rw [same.leading, same.following]
    exact (chain_rewoven _ ty).symm
  simp only [bindingFor?, chain, bindingsFor, container, containers_eq same]

/-- The fallback has supplied one more factory. -/
lemma match_cacheFactory (ty : String) :
    (m.introspecting options ids).Match h
      { g with registry := g.registry.cacheFactory ty (.introspected ty) } :=
  { same with
    wired :=
      { same.wired with
        cachedFactories := by
          intro ty' factory found
          rcases EntryTable.of_find?_append found with old | ⟨rfl, rfl⟩
          · exact same.wired.cachedFactories old
          · rfl } }

/-- The fallback has supplied one more injector. -/
lemma match_cacheInjector {ty : String} {injector : Injector}
    (supplied : ∀ g : Host, g.types = m.loadedTypes →
      Run.introspectedInjector? g ty = some injector) :
    (m.introspecting options ids).Match h
      { g with registry := g.registry.cacheInjector ty injector } :=
  { same with
    wired :=
      { same.wired with
        cachedInjectors := by
          intro ty' injector' found
          rcases EntryTable.of_find?_append found with old | ⟨rfl, rfl⟩
          · exact same.wired.cachedInjectors old
          · exact supplied } }

end Match

/-! ## What introspection supplies -/

section Introspected

lemma mem_targetNames {kind : EntryKind} {ty : String} :
    ty ∈ m.targetNames kind ↔ ∃ t ∈ m.types, t.gets kind = true ∧ t.name = ty := by
  simp only [targetNames, namesThatGet, List.mem_map, List.mem_filter, and_assoc]

lemma typeDef?_eq (unwoven : g.types = m.loadedTypes) (ty : String) :
    g.typeDef? ty = m.typeNamed? ty := by
  rw [typeDef?, unwoven, find?_loadedTypes]
  cases m.typeNamed? ty <;> rfl

variable (unwoven : g.types = m.loadedTypes)
include unwoven

lemma introspectedFactory?_eq_some (names : m.Unambiguous) {t : TypeDef} (member : t ∈ m.types)
    (gets : t.gets .factory = true) :
    Run.introspectedFactory? g t.name = some (.introspected t.name) := by
  have own : m.typeNamed? t.name = some t := find?_key_of_mem TypeDef.name names.types member
  rw [Run.introspectedFactory?, typeDef?_eq unwoven, own]
  simp [TypeDef.isInterface_of_gets gets, TypeDef.isAbstract_of_gets gets]

lemma introspectedInjector?_eq_some (names : m.Unambiguous) {t : TypeDef} (member : t ∈ m.types)
    (gets : t.gets .injector = true) :
    Run.introspectedInjector? g t.name
      = some (.introspected t.name (t.markedFields.map fun f => (f.name, f.ty))) := by
  have own : m.typeNamed? t.name = some t := find?_key_of_mem TypeDef.name names.types member
  have marked : t.markedFields.isEmpty = false :=
    List.isEmpty_eq_false_iff.2 (TypeDef.gets_injector_iff.1 gets).2
  rw [Run.introspectedInjector?, typeDef?_eq unwoven, own]
  simp [marked]

lemma introspectedInjector?_eq_none (proper : m.Introspectable) {ty : String}
    (other : ty ∉ m.targetNames .injector) : Run.introspectedInjector? g ty = none := by
  rw [Run.introspectedInjector?, typeDef?_eq unwoven]
  cases known : m.typeNamed? ty with
  | none => rfl
  | some t =>
    have member := List.mem_of_find?_eq_some known
    have named : t.name = ty := by simpa using List.find?_some known
    -- a type with marked fields is no interface, so it would be a target
    have unmarked : t.markedFields = [] := by
      by_contra marked
      have proper : t.isInterface = false := by
        by_contra interface
        exact marked (proper.fields t member (by simpa using interface))
      have gets := TypeDef.gets_injector_iff.2 ⟨proper, marked⟩
      exact other (mem_targetNames.2 ⟨t, member, gets, named⟩)
    simp [unmarked]

end Introspected

/-! ## Registries -/

section Registries

variable (same : (m.introspecting options ids).Match h g)
include same

lemma registry_eq : h.registry = m.bakedRegistry ids := same.wired.registry

/-- The woven host has factories for the targets only. -/
lemma of_factoryOf {ty : String} {factory : Factory} {h' : Host}
    (ok : (Run.factoryOf ty).run h = some (.ok factory, h')) :
    h' = h ∧ ∃ t ∈ m.types, t.gets .factory = true ∧ t.name = ty ∧
      factory = .woven ⟨ty, ids.entry .factory ty⟩ := by
  rw [Run.factoryOf, Run.run_get_bind, registry_eq same] at ok
  dsimp only at ok
  rw [find?_factories_bakedRegistry] at ok
  by_cases target : ty ∈ m.targetNames .factory
  · rw [if_pos target] at ok
    cases ok
    obtain ⟨t, member, gets, named⟩ := mem_targetNames.1 target
    exact ⟨rfl, t, member, gets, named, rfl⟩
  · rw [if_neg target] at ok
    cases ok

/-- The other host has a factory for every target. -/
lemma exists_run_factoryOf (names : m.Unambiguous) {t : TypeDef} (member : t ∈ m.types)
    (gets : t.gets .factory = true) :
    ∃ g', (Run.factoryOf t.name).run g = some (.ok (.introspected t.name), g') ∧
      (m.introspecting options ids).Match h g' := by
  have factories : g.registry.factories = [] := same.wired.factories
  have fallback : g.registry.fallback = some .introspection := same.wired.fallback
  -- nothing is registered on the other host, so the fallback answers, now or before
  have none : g.registry.factories.find? t.name = none := by rw [factories]; rfl
  rw [Run.factoryOf, Run.run_get_bind]
  dsimp only
  rw [none, fallback]
  dsimp only
  cases cached : g.registry.cachedFactories.find? t.name with
  | some factory =>
    obtain rfl := same.wired.cachedFactories cached
    exact ⟨g, rfl, same⟩
  | none =>
    refine ⟨_, ?_, match_cacheFactory same t.name⟩
    have supplied : (Run.fallbackFactory? t.name .introspection).run g
        = some (.ok (some (.introspected t.name)), g) := by
      rw [Run.fallbackFactory?, Run.run_get_bind,
        introspectedFactory?_eq_some same.following names member gets]
      rfl
    exact (Run.run_bind_of_ok supplied).trans rfl

/-- The woven host has injectors for the targets only. -/
lemma run_injectorOf? (ty : String) :
    (Run.injectorOf? ty).run h = some (.ok (if ty ∈ m.targetNames .injector then
      some (.woven ⟨ty, ids.entry .injector ty⟩) else none), h) := by
  rw [Run.injectorOf?, Run.run_get_bind, registry_eq same]
  dsimp only
  rw [find?_injectors_bakedRegistry]
  by_cases target : ty ∈ m.targetNames .injector
  · simp only [if_pos target]
    rfl
  · simp only [if_neg target]
    rfl

/-- The other host has an injector exactly for the targets. -/
lemma exists_run_injectorOf? (ty : String) :
    ∃ g', (Run.injectorOf? ty).run g = some (.ok (Run.introspectedInjector? g ty), g') ∧
      (m.introspecting options ids).Match h g' := by
  have injectors : g.registry.injectors = [] := same.wired.injectors
  have fallback : g.registry.fallback = some .introspection := same.wired.fallback
  -- as for factories, the fallback answers, now or before
  have none : g.registry.injectors.find? ty = none := by rw [injectors]; rfl
  rw [Run.injectorOf?, Run.run_get_bind]
  dsimp only
  rw [none, fallback]
  dsimp only
  cases cached : g.registry.cachedInjectors.find? ty with
  | some injector =>
    rw [same.wired.cachedInjectors cached g same.following]
    exact ⟨g, rfl, same⟩
  | none =>
    have supplied : (Run.fallbackInjector? ty .introspection).run g
        = some (.ok (Run.introspectedInjector? g ty), g) := rfl
    cases found : Run.introspectedInjector? g ty with
    | none =>
      rw [found] at supplied
      exact ⟨g, (Run.run_bind_of_ok supplied).trans rfl, same⟩
    | some injector =>
      rw [found] at supplied
      refine ⟨_, (Run.run_bind_of_ok supplied).trans rfl, match_cacheInjector same fun g' hg' => ?_⟩
      have own : Run.introspectedInjector? g' ty = Run.introspectedInjector? g ty := by
        rw [Run.introspectedInjector?, Run.introspectedInjector?, typeDef?_eq hg',
          typeDef?_eq same.following]
      rw [own, found]

/-- What is done with an injector that corresponds to the woven one, or without one, is followed. -/
lemma followedAt_injectorOf? (names : m.Unambiguous) (proper : m.Introspectable) {α : Type}
    (ty : String) {k k' : Option Injector → Run α}
    (without : ∀ g', (m.introspecting options ids).Match h g' →
      (m.introspecting options ids).FollowedAt h g' (k none) (k' none))
    (filled : ∀ t ∈ m.types, t.gets .injector = true → t.name = ty →
      ∀ g', (m.introspecting options ids).Match h g' →
        (m.introspecting options ids).FollowedAt h g'
          (k (some (.woven ⟨t.name, ids.entry .injector t.name⟩)))
          (k' (some (.introspected t.name (t.markedFields.map fun f => (f.name, f.ty)))))) :
    (m.introspecting options ids).FollowedAt h g (Run.injectorOf? ty >>= k)
      (Run.injectorOf? ty >>= k') := by
  intro a h' ok quiet
  obtain ⟨g₁, run₁, same₁⟩ := exists_run_injectorOf? same ty
  rw [Run.run_bind_of_ok (run_injectorOf? same ty)] at ok
  by_cases target : ty ∈ m.targetNames .injector
  · obtain ⟨t, member, gets, rfl⟩ := mem_targetNames.1 target
    rw [if_pos target] at ok
    rw [introspectedInjector?_eq_some same.following names member gets] at run₁
    obtain ⟨g', run, same'⟩ := filled t member gets rfl g₁ same₁ a h' ok quiet
    exact ⟨g', (Run.run_bind_of_ok run₁).trans run, same'⟩
  · rw [if_neg target] at ok
    rw [introspectedInjector?_eq_none same.following proper target] at run₁
    obtain ⟨g', run, same'⟩ := without g₁ same₁ a h' ok quiet
    exact ⟨g', (Run.run_bind_of_ok run₁).trans run, same'⟩

end Registries

end Module

end Weaver
