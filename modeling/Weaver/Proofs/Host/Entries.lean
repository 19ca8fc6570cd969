import Weaver.Module.Build
import Weaver.Proofs.Host.Evolution

/-!
# Registry entries

A lookup asks the registered entries, then those that the fallback supplied before, then the fallback.
Registered entries are there to stay. What the fallback supplied before is what it supplies now, so
nobody can tell whether an answer was kept.

Four things live here:

* `Run.answer`, what a run ends in, and `Host.factoryAnswer` and `Host.injectorAnswer`, what lookups
  answer by the registered entries and the loaded types alone;
* `Host.exists_run_factoryOf` and `Host.exists_run_injectorOf?`, by which they do, whatever the caches
  hold, and by which a lookup that finds nothing changes nothing;
* `Host.Uses`, what embedding code does to the registry, kind by kind;
* `Host.KeepsEntries`, what is true of entries at any time, and `Host.keepsEntries`.
-/

namespace Weaver

/-- What a run ends in, apart from what it changes. -/
def Run.answer {α : Type} (x : Run α) (h : Host) : Option (Except HostError α) :=
  (x.run h).map (·.1)

namespace Host

variable {h h' : Host} {ty : String}

/-! ## Lookups -/

/-- The factory of a type: the registered one, else the one that the fallback supplies by now. -/
def factoryAnswer (h : Host) (ty : String) : Except HostError Factory :=
  match h.registry.factories.find? ty, h.suppliedFactory? ty with
  | some factory, _ => .ok factory
  | none, some factory => .ok factory
  | none, none =>
    .error (.unsupported ty (if h.registry.fallback.isSome then .notIntrospectable else .noFactory))

/-- The injector of a type: the registered one, else the one that the fallback supplies by now. -/
def injectorAnswer (h : Host) (ty : String) : Option Injector :=
  (h.registry.injectors.find? ty).or (h.suppliedInjector? ty)

lemma factoryAnswer_ne_error {factory : Factory} (supplied : h.suppliedFactory? ty = some factory)
    (e : HostError) : h.factoryAnswer ty ≠ .error e := by
  rw [factoryAnswer, supplied]
  cases h.registry.factories.find? ty <;> exact nofun

/-- What is kept for a type is what the fallback supplies for it. -/
lemma CachesFit.factory (fit : h.CachesFit) {factory : Factory}
    (found : h.registry.cachedFactories.find? ty = some factory) :
    h.suppliedFactory? ty = some factory := by
  obtain ⟨entry, first, rfl⟩ := Option.map_eq_some_iff.1 found
  have key : entry.1 = ty := by simpa using List.find?_some first
  exact key ▸ fit.factories entry (List.mem_of_find?_eq_some first)

lemma CachesFit.injector (fit : h.CachesFit) {injector : Injector}
    (found : h.registry.cachedInjectors.find? ty = some injector) :
    h.suppliedInjector? ty = some injector := by
  obtain ⟨entry, first, rfl⟩ := Option.map_eq_some_iff.1 found
  have key : entry.1 = ty := by simpa using List.find?_some first
  exact key ▸ fit.injectors entry (List.mem_of_find?_eq_some first)

/-- A registered factory is the answer, whatever the caches hold. -/
lemma run_factoryOf_of_registered {factory : Factory}
    (found : h.registry.factories.find? ty = some factory) :
    (Run.factoryOf ty).run h = some (.ok factory, h) := by
  rw [Run.factoryOf, Run.run_get_bind]
  dsimp only
  rw [found]
  rfl

lemma run_injectorOf?_of_registered {injector : Injector}
    (found : h.registry.injectors.find? ty = some injector) :
    (Run.injectorOf? ty).run h = some (.ok (some injector), h) := by
  rw [Run.injectorOf?, Run.run_get_bind]
  dsimp only
  rw [found]
  rfl

/-- Without the fallback, an unregistered type has nothing. -/
lemma run_factoryOf_of_unsupported (missing : h.registry.fallback = none)
    (free : h.registry.factories.find? ty = none) :
    (Run.factoryOf ty).run h = some (.error (.unsupported ty .noFactory), h) := by
  rw [Run.factoryOf, Run.run_get_bind]
  dsimp only
  rw [free, missing]
  rfl

lemma run_injectorOf?_of_unsupported (missing : h.registry.fallback = none)
    (free : h.registry.injectors.find? ty = none) :
    (Run.injectorOf? ty).run h = some (.ok none, h) := by
  rw [Run.injectorOf?, Run.run_get_bind]
  dsimp only
  rw [free, missing]
  rfl

/-- A lookup of a factory answers as the entries and the types say. At most it keeps what the
fallback supplied. -/
lemma exists_run_factoryOf (ty : String) (fit : h.CachesFit)
    (fallback : h.registry.fallback = none ∨ h.registry.fallback = some .introspection) :
    ∃ h', (Run.factoryOf ty).run h = some (h.factoryAnswer ty, h') ∧
      (h' = h ∨ ∃ factory, h.suppliedFactory? ty = some factory ∧
        h' = { h with registry := h.registry.cacheFactory ty factory }) := by
  cases registered : h.registry.factories.find? ty with
  | some factory =>
    refine ⟨h, ?_, .inl rfl⟩
    rw [run_factoryOf_of_registered registered, factoryAnswer, registered]
  | none =>
  rcases fallback with missing | used
  · refine ⟨h, ?_, .inl rfl⟩
    rw [run_factoryOf_of_unsupported missing registered, factoryAnswer, suppliedFactory?,
      registered, missing]
    rfl
  rw [Run.factoryOf, Run.run_get_bind]
  dsimp only
  rw [factoryAnswer, registered, used]
  dsimp only
  cases cached : h.registry.cachedFactories.find? ty with
  | some factory =>
    refine ⟨h, ?_, .inl rfl⟩
    rw [fit.factory cached]
    rfl
  | none =>
    -- the fallback is asked
    have asked : (Run.fallbackFactory? ty .introspection).run h
        = some (.ok (h.suppliedFactory? ty), h) := by
      rw [suppliedFactory?, used]
      rfl
    rw [Run.run_bind_of_ok asked]
    cases supplied : h.suppliedFactory? ty with
    | none => exact ⟨h, rfl, .inl rfl⟩
    | some factory => exact ⟨_, rfl, .inr ⟨factory, rfl, rfl⟩⟩

lemma exists_run_injectorOf? (ty : String) (fit : h.CachesFit)
    (fallback : h.registry.fallback = none ∨ h.registry.fallback = some .introspection) :
    ∃ h', (Run.injectorOf? ty).run h = some (.ok (h.injectorAnswer ty), h') ∧
      (h' = h ∨ ∃ injector, h.suppliedInjector? ty = some injector ∧
        h' = { h with registry := h.registry.cacheInjector ty injector }) := by
  cases registered : h.registry.injectors.find? ty with
  | some injector =>
    refine ⟨h, ?_, .inl rfl⟩
    rw [run_injectorOf?_of_registered registered, injectorAnswer, registered, Option.some_or]
  | none =>
  rw [injectorAnswer, registered, Option.none_or]
  rcases fallback with missing | used
  · refine ⟨h, ?_, .inl rfl⟩
    rw [run_injectorOf?_of_unsupported missing registered, suppliedInjector?, missing]
  rw [Run.injectorOf?, Run.run_get_bind]
  dsimp only
  rw [registered, used]
  dsimp only
  cases cached : h.registry.cachedInjectors.find? ty with
  | some injector =>
    refine ⟨h, ?_, .inl rfl⟩
    rw [fit.injector cached]
    rfl
  | none =>
    have asked : (Run.fallbackInjector? ty .introspection).run h
        = some (.ok (h.suppliedInjector? ty), h) := by
      rw [suppliedInjector?, used]
      rfl
    rw [Run.run_bind_of_ok asked]
    cases supplied : h.suppliedInjector? ty with
    | none => exact ⟨h, rfl, .inl rfl⟩
    | some injector => exact ⟨_, rfl, .inr ⟨injector, rfl, rfl⟩⟩

/-! ## Registrations -/

lemma run_registerFactory_of_some {first : Factory} (factory : Factory)
    (found : h.registry.factories.find? ty = some first) :
    (Run.registerFactory ty factory).run h
      = some (.error (.duplicateRegistration ty .factory), h) := by
  rw [Run.registerFactory, Run.run_get_bind, Registry.addFactory, found]
  rfl

lemma run_registerFactory_of_none (factory : Factory)
    (free : h.registry.factories.find? ty = none) :
    (Run.registerFactory ty factory).run h = some (.ok ⟨⟩, { h with registry :=
      { h.registry with factories := h.registry.factories ++ [(ty, factory)] } }) := by
  rw [Run.registerFactory, Run.run_get_bind, Registry.addFactory, free]
  rfl

lemma run_registerInjector_of_some {first : Injector} (injector : Injector)
    (found : h.registry.injectors.find? ty = some first) :
    (Run.registerInjector ty injector).run h
      = some (.error (.duplicateRegistration ty .injector), h) := by
  rw [Run.registerInjector, Run.run_get_bind, Registry.addInjector, found]
  rfl

lemma run_registerInjector_of_none (injector : Injector)
    (free : h.registry.injectors.find? ty = none) :
    (Run.registerInjector ty injector).run h = some (.ok ⟨⟩, { h with registry :=
      { h.registry with injectors := h.registry.injectors ++ [(ty, injector)] } }) := by
  rw [Run.registerInjector, Run.run_get_bind, Registry.addInjector, free]
  rfl

/-! ## Uses -/

/-- What embedding code does with the entries of a kind, whatever it ends in. -/
inductive Uses (h : Host) : EntryKind → Host → Prop where
  | registerFactory {ty : String} {factory : Factory} {r : Except HostError Unit} {h' : Host}
      (run : (Run.registerFactory ty factory).run h = some (r, h')) : Uses h .factory h'
  | getFactory {ty : String} {r : Except HostError Factory} {h' : Host}
      (run : (Run.factoryOf ty).run h = some (r, h')) : Uses h .factory h'
  | registerInjector {ty : String} {injector : Injector} {r : Except HostError Unit} {h' : Host}
      (run : (Run.registerInjector ty injector).run h = some (r, h')) : Uses h .injector h'
  | getInjector {ty : String} {r : Except HostError (Option Injector)} {h' : Host}
      (run : (Run.injectorOf? ty).run h = some (r, h')) : Uses h .injector h'

lemma Uses.evolves {kind : EntryKind} (uses : h.Uses kind h') : h.Evolves h' := by
  cases uses with
  | registerFactory run => exact law_evolves.toRule.registerFactory _ _ run
  | getFactory run => exact law_evolves.toRule.factoryOf _ run
  | registerInjector run => exact law_evolves.toRule.registerInjector _ _ run
  | getInjector run => exact law_evolves.toRule.injectorOf? _ run

/-- A new count of calls, which comes with a supplied factory or injector, is an evolution. -/
lemma Evolves.addCounter (h : Host) : h.Evolves h.addCounter.2 := by
  have same : h.configureStep ⟨h.bindings.size⟩ (.fromFactory .container) = h.addCounter.2 := by
    have none : h.bindings.modify h.bindings.size (fun b =>
        { b with factory := some ⟨.container, h.addCounter.1⟩ }) = h.bindings := by
      simp [Array.modify, Array.modifyM]
    exact congrArg (fun bindings => { h.addCounter.2 with bindings }) none
  rw [← same]
  exact .act (.configure _ _)

/-! ## One kind and the other -/

section Apart

variable {kind : EntryKind} (fit : h.CachesFit)
  (fallback : h.registry.fallback = none ∨ h.registry.fallback = some .introspection)
include fit fallback

/-- No use of the registry touches types or the fallback, and uses of injectors leave factories
alone. -/
lemma Uses.factories (uses : h.Uses .injector h') :
    h'.types = h.types ∧ h'.registry.fallback = h.registry.fallback ∧
      h'.registry.factories = h.registry.factories := by
  cases uses with
  | @registerInjector ty injector _ _ run =>
    cases found : h.registry.injectors.find? ty with
    | some first =>
      rw [run_registerInjector_of_some injector found] at run
      cases run
      exact ⟨rfl, rfl, rfl⟩
    | none =>
      rw [run_registerInjector_of_none injector found] at run
      cases run
      exact ⟨rfl, rfl, rfl⟩
  | @getInjector ty _ _ run =>
    obtain ⟨h₁, looked, rfl | ⟨injector, -, rfl⟩⟩ :=
      exists_run_injectorOf? ty fit fallback
    all_goals
      rw [looked] at run
      cases run
      exact ⟨rfl, rfl, rfl⟩

lemma Uses.injectors (uses : h.Uses .factory h') :
    h'.types = h.types ∧ h'.registry.fallback = h.registry.fallback ∧
      h'.registry.injectors = h.registry.injectors := by
  cases uses with
  | @registerFactory ty factory _ _ run =>
    cases found : h.registry.factories.find? ty with
    | some first =>
      rw [run_registerFactory_of_some factory found] at run
      cases run
      exact ⟨rfl, rfl, rfl⟩
    | none =>
      rw [run_registerFactory_of_none factory found] at run
      cases run
      exact ⟨rfl, rfl, rfl⟩
  | @getFactory ty _ _ run =>
    obtain ⟨h₁, looked, rfl | ⟨factory, -, rfl⟩⟩ := exists_run_factoryOf ty fit fallback
    all_goals
      rw [looked] at run
      cases run
      exact ⟨rfl, rfl, rfl⟩

/-- What lookups of factories end in. -/
lemma answer_factoryOf : (Run.factoryOf ty).answer h = some (h.factoryAnswer ty) := by
  obtain ⟨h', run, -⟩ := exists_run_factoryOf ty fit fallback
  rw [Run.answer, run]
  rfl

lemma answer_injectorOf? : (Run.injectorOf? ty).answer h = some (.ok (h.injectorAnswer ty)) := by
  obtain ⟨h', run, -⟩ := exists_run_injectorOf? ty fit fallback
  rw [Run.answer, run]
  rfl

/-- A lookup that finds nothing changes nothing. -/
lemma eq_of_factoryOf_error {e : HostError}
    (run : (Run.factoryOf ty).run h = some (.error e, h')) : h' = h := by
  obtain ⟨h₁, looked, same | ⟨factory, supplied, -⟩⟩ := exists_run_factoryOf ty fit fallback
  all_goals obtain ⟨answer, rfl⟩ := Prod.mk.inj (Option.some.inj (looked.symm.trans run))
  · exact same
  · -- what the fallback supplies is no error
    exact absurd answer (factoryAnswer_ne_error supplied e)

lemma eq_of_injectorOf?_none (run : (Run.injectorOf? ty).run h = some (.ok none, h')) :
    h' = h := by
  obtain ⟨h₁, looked, same | ⟨injector, supplied, -⟩⟩ := exists_run_injectorOf? ty fit fallback
  all_goals obtain ⟨answer, rfl⟩ := Prod.mk.inj (Option.some.inj (looked.symm.trans run))
  · exact same
  · have none := Except.ok.inj answer
    rw [injectorAnswer, supplied, Option.or_eq_none_iff] at none
    cases none.2

end Apart

/-- An answer depends on the types, the fallback and the registered entries of its kind. -/
lemma factoryAnswer_congr (types : h'.types = h.types)
    (fallback : h'.registry.fallback = h.registry.fallback)
    (factories : h'.registry.factories = h.registry.factories) (ty : String) :
    h'.factoryAnswer ty = h.factoryAnswer ty := by
  simp only [factoryAnswer, suppliedFactory?, Run.introspectedFactory?, typeDef?, types, fallback,
    factories]

lemma injectorAnswer_congr (types : h'.types = h.types)
    (fallback : h'.registry.fallback = h.registry.fallback)
    (injectors : h'.registry.injectors = h.registry.injectors) (ty : String) :
    h'.injectorAnswer ty = h.injectorAnswer ty := by
  simp only [injectorAnswer, suppliedInjector?, Run.introspectedInjector?, typeDef?, types, fallback,
    injectors]

/-- What is not registered later on was never registered. -/
lemma Evolves.free_factories (evolves : h.Evolves h')
    (free : h'.registry.factories.find? ty = none) : h.registry.factories.find? ty = none := by
  cases found : h.registry.factories.find? ty with
  | none => rfl
  | some own =>
    rw [evolves.find?_factories found] at free
    cases free

lemma Evolves.free_injectors (evolves : h.Evolves h')
    (free : h'.registry.injectors.find? ty = none) : h.registry.injectors.find? ty = none := by
  cases found : h.registry.injectors.find? ty with
  | none => rfl
  | some own =>
    rw [evolves.find?_injectors found] at free
    cases free

/-- Of an unregistered type, an answer says what the fallback supplies. -/
lemma suppliedFactory?_of_factoryAnswer {factory : Factory}
    (free : h.registry.factories.find? ty = none) (answer : h.factoryAnswer ty = .ok factory) :
    h.suppliedFactory? ty = some factory := by
  rw [factoryAnswer, free] at answer
  cases supplied : h.suppliedFactory? ty with
  | none =>
    rw [supplied] at answer
    cases answer
  | some own =>
    rw [supplied] at answer
    cases answer
    rfl

lemma answer_registerFactory (same : h'.registry.factories = h.registry.factories)
    (factory : Factory) :
    (Run.registerFactory ty factory).answer h' = (Run.registerFactory ty factory).answer h := by
  cases found : h.registry.factories.find? ty with
  | some first =>
    rw [Run.answer, Run.answer, run_registerFactory_of_some factory found,
      run_registerFactory_of_some factory (same ▸ found)]
    rfl
  | none =>
    rw [Run.answer, Run.answer, run_registerFactory_of_none factory found,
      run_registerFactory_of_none factory (same ▸ found)]
    rfl

lemma answer_registerInjector (same : h'.registry.injectors = h.registry.injectors)
    (injector : Injector) :
    (Run.registerInjector ty injector).answer h'
      = (Run.registerInjector ty injector).answer h := by
  cases found : h.registry.injectors.find? ty with
  | some first =>
    rw [Run.answer, Run.answer, run_registerInjector_of_some injector found,
      run_registerInjector_of_some injector (same ▸ found)]
    rfl
  | none =>
    rw [Run.answer, Run.answer, run_registerInjector_of_none injector found,
      run_registerInjector_of_none injector (same ▸ found)]
    rfl

/-! ## At any time -/

/-- The host that has kept nothing of what the fallback supplied. -/
def forgetful (h : Host) : Host :=
  { h with registry := { h.registry with cachedFactories := [], cachedInjectors := [] } }

lemma cachesFit_forgetful (h : Host) : h.forgetful.CachesFit where
  factories _ member := absurd member List.not_mem_nil
  injectors _ member := absurd member List.not_mem_nil

/-- What is true of the entries of a registry. -/
structure KeepsEntries (h : Host) : Prop where
  /-- Uses of the registry lead on to later states, whatever they end in, -/
  uses {kind : EntryKind} {h' : Host} : h.Uses kind h' → h.Evolves h'
  /-- and so do loads, failed ones included, -/
  loads {m : Module} {r : Except HostError LoadReport} {h' : Host} :
    (load m).run h = some (r, h') → h.Evolves h'
  /-- and the counts that come with supplied factories and injectors. -/
  counts : h.Evolves h.addCounter.2
  /-- A registered factory is the answer to every later lookup, whatever was kept before. -/
  factory {ty : String} {factory : Factory} {h' : Host} :
    h.registry.factories.find? ty = some factory → h.Evolves h' →
      (Run.factoryOf ty).run h' = some (.ok factory, h')
  injector {ty : String} {injector : Injector} {h' : Host} :
    h.registry.injectors.find? ty = some injector → h.Evolves h' →
      (Run.injectorOf? ty).run h' = some (.ok (some injector), h')
  /-- A type without a factory gets the one that is registered. -/
  registerFactory {ty : String} (factory : Factory) : h.registry.factories.find? ty = none →
    ∃ h', (Run.registerFactory ty factory).run h = some (.ok ⟨⟩, h') ∧
      h'.registry.factories.find? ty = some factory
  registerInjector {ty : String} (injector : Injector) : h.registry.injectors.find? ty = none →
    ∃ h', (Run.registerInjector ty injector).run h = some (.ok ⟨⟩, h') ∧
      h'.registry.injectors.find? ty = some injector
  /-- A second registration is refused and changes nothing. -/
  refusedFactory {ty : String} {first : Factory} (factory : Factory) :
    h.registry.factories.find? ty = some first → (Run.registerFactory ty factory).run h
      = some (.error (.duplicateRegistration ty .factory), h)
  refusedInjector {ty : String} {first : Injector} (injector : Injector) :
    h.registry.injectors.find? ty = some first → (Run.registerInjector ty injector).run h
      = some (.error (.duplicateRegistration ty .injector), h)
  /-- Uses of injectors make no difference to what uses of factories end in, -/
  apartFromInjectors {h' : Host} : h.Uses .injector h' → ∀ (ty : String) (factory : Factory),
    (Run.factoryOf ty).answer h' = (Run.factoryOf ty).answer h ∧
      (Run.registerFactory ty factory).answer h' = (Run.registerFactory ty factory).answer h
  /-- nor the other way around. -/
  apartFromFactories {h' : Host} : h.Uses .factory h' → ∀ (ty : String) (injector : Injector),
    (Run.injectorOf? ty).answer h' = (Run.injectorOf? ty).answer h ∧
      (Run.registerInjector ty injector).answer h' = (Run.registerInjector ty injector).answer h
  /-- There is no fallback but that on the loaded types. -/
  fallback : h.registry.fallback = none ∨ h.registry.fallback = some .introspection
  /-- With it, an unregistered type has what the loaded types supply by now, and nothing else than
  that is kept. -/
  suppliesFactory {ty : String} : h.registry.fallback = some .introspection →
    h.registry.factories.find? ty = none →
    ∃ h', (Run.factoryOf ty).run h = some
        (match Run.introspectedFactory? h ty with
          | some factory => .ok factory
          | none => .error (.unsupported ty .notIntrospectable), h') ∧
      (h' = h ∨ ∃ factory, Run.introspectedFactory? h ty = some factory ∧
        h' = { h with registry := h.registry.cacheFactory ty factory })
  suppliesInjector {ty : String} : h.registry.fallback = some .introspection →
    h.registry.injectors.find? ty = none →
    ∃ h', (Run.injectorOf? ty).run h = some (.ok (Run.introspectedInjector? h ty), h') ∧
      (h' = h ∨ ∃ injector, Run.introspectedInjector? h ty = some injector ∧
        h' = { h with registry := h.registry.cacheInjector ty injector })
  /-- Nobody can tell what is kept. -/
  invisible (ty : String) : (Run.factoryOf ty).answer h = (Run.factoryOf ty).answer h.forgetful ∧
    (Run.injectorOf? ty).answer h = (Run.injectorOf? ty).answer h.forgetful
  /-- What was answered once is answered ever after, unless an entry is registered. -/
  stable {ty : String} {factory : Factory} {h' : Host} :
    (Run.factoryOf ty).answer h = some (.ok factory) → h.Evolves h' →
      h'.registry.factories.find? ty = none → (Run.factoryOf ty).answer h' = some (.ok factory)
  stableInjector {ty : String} {injector : Injector} {h' : Host} :
    (Run.injectorOf? ty).answer h = some (.ok (some injector)) → h.Evolves h' →
      h'.registry.injectors.find? ty = none →
      (Run.injectorOf? ty).answer h' = some (.ok (some injector))
  /-- A lookup that finds nothing changes nothing. -/
  declined {ty : String} {h' : Host} :
    (∀ e, (Run.factoryOf ty).run h = some (.error e, h') → h' = h) ∧
      ((Run.injectorOf? ty).run h = some (.ok none, h') → h' = h)
  /-- Without the fallback, an unregistered type has nothing. -/
  unsupported {ty : String} : h.registry.fallback = none →
    (h.registry.factories.find? ty = none →
      (Run.factoryOf ty).run h = some (.error (.unsupported ty .noFactory), h)) ∧
    (h.registry.injectors.find? ty = none → (Run.injectorOf? ty).run h = some (.ok none, h))

/-- Entries are kept so at any time in the life of a host, in the middle of its runs included. -/
theorem keepsEntries {config : HostConfig} (reached : (Host.new config).Evolves h) :
    h.KeepsEntries := by
  have fit : h.CachesFit := reached.cachesFit (cachesFit_new config)
  have fallback := reached.fallback_cases
  have later {h' : Host} (evolves : h.Evolves h') : h'.CachesFit ∧
      (h'.registry.fallback = none ∨ h'.registry.fallback = some .introspection) :=
    ⟨evolves.cachesFit fit, (reached.trans evolves).fallback_cases⟩
  exact
    { uses := Uses.evolves
      loads := Evolves.of_load
      counts := .addCounter h
      factory := fun found evolves => run_factoryOf_of_registered (evolves.find?_factories found)
      injector := fun found evolves =>
        run_injectorOf?_of_registered (evolves.find?_injectors found)
      registerFactory := fun factory free =>
        ⟨_, run_registerFactory_of_none factory free, EntryTable.find?_append_self free factory⟩
      registerInjector := fun injector free =>
        ⟨_, run_registerInjector_of_none injector free,
          EntryTable.find?_append_self free injector⟩
      refusedFactory := fun factory found => run_registerFactory_of_some factory found
      refusedInjector := fun injector found => run_registerInjector_of_some injector found
      apartFromInjectors := fun {h'} uses ty factory => by
        obtain ⟨types, same, factories⟩ := uses.factories fit fallback
        obtain ⟨fit', fallback'⟩ := later uses.evolves
        refine ⟨?_, answer_registerFactory factories factory⟩
        rw [answer_factoryOf fit' fallback', answer_factoryOf fit fallback,
          factoryAnswer_congr types same factories]
      apartFromFactories := fun {h'} uses ty injector => by
        obtain ⟨types, same, injectors⟩ := uses.injectors fit fallback
        obtain ⟨fit', fallback'⟩ := later uses.evolves
        refine ⟨?_, answer_registerInjector injectors injector⟩
        rw [answer_injectorOf? fit' fallback', answer_injectorOf? fit fallback,
          injectorAnswer_congr types same injectors]
      fallback
      suppliesFactory := fun {ty} used free => by
        obtain ⟨h', run, state⟩ := exists_run_factoryOf ty fit fallback
        have supplied : h.suppliedFactory? ty = Run.introspectedFactory? h ty := by
          rw [suppliedFactory?, used]
        rw [supplied] at state
        refine ⟨h', ?_, state⟩
        rw [run, factoryAnswer, free, supplied, used]
        cases Run.introspectedFactory? h ty <;> rfl
      suppliesInjector := fun {ty} used free => by
        obtain ⟨h', run, state⟩ := exists_run_injectorOf? ty fit fallback
        have supplied : h.suppliedInjector? ty = Run.introspectedInjector? h ty := by
          rw [suppliedInjector?, used]
        rw [supplied] at state
        refine ⟨h', ?_, state⟩
        rw [run, injectorAnswer, free, supplied, Option.none_or]
      invisible := fun ty => by
        have forgotten := cachesFit_forgetful h
        rw [answer_factoryOf fit fallback, answer_injectorOf? fit fallback,
          answer_factoryOf forgotten fallback, answer_injectorOf? forgotten fallback]
        exact ⟨rfl, rfl⟩
      stable := fun {ty factory h'} answer evolves free => by
        obtain ⟨fit', fallback'⟩ := later evolves
        rw [answer_factoryOf fit fallback] at answer
        have supplied := evolves.suppliedFactory? (suppliedFactory?_of_factoryAnswer
          (evolves.free_factories free) (Option.some.inj answer))
        rw [answer_factoryOf fit' fallback', factoryAnswer, free, supplied]
      stableInjector := fun {ty injector h'} answer evolves free => by
        obtain ⟨fit', fallback'⟩ := later evolves
        rw [answer_injectorOf? fit fallback, injectorAnswer, evolves.free_injectors free,
          Option.none_or] at answer
        have supplied := evolves.suppliedInjector? (Except.ok.inj (Option.some.inj answer))
        rw [answer_injectorOf? fit' fallback', injectorAnswer, free, supplied, Option.none_or]
      declined := ⟨fun _ run => eq_of_factoryOf_error fit fallback run,
        fun run => eq_of_injectorOf?_none fit fallback run⟩
      unsupported := fun missing =>
        ⟨run_factoryOf_of_unsupported missing, run_injectorOf?_of_unsupported missing⟩ }

/-- A module with a class and nothing else. -/
def stand : Module :=
  { name := "Stand"
    types := [TypeDef.newClass (Uuid.numbered 1) "Stand.Lamp"] }

/-- A type has no factory until its module is loaded. The one that the fallback supplies then gives
way to a registered one, even though it was kept. -/
theorem keepsEntries_stand :
    ∃ h₁ h₂ h₃ : Host, ∃ report, ∃ own : Factory,
      (Run.factoryOf "Stand.Lamp").run (Host.new { fallback := true })
        = some (.error (.unsupported "Stand.Lamp" .notIntrospectable),
            Host.new { fallback := true }) ∧
      (load stand).run (Host.new { fallback := true }) = some (.ok report, h₁) ∧
      (Run.factoryOf "Stand.Lamp").run h₁ = some (.ok (.introspected "Stand.Lamp"), h₂) ∧
      h₂.registry.cachedFactories.find? "Stand.Lamp" = some (.introspected "Stand.Lamp") ∧
      (Run.registerFactory "Stand.Lamp" own).run h₂ = some (.ok ⟨⟩, h₃) ∧
      (Run.factoryOf "Stand.Lamp").run h₃ = some (.ok own, h₃) ∧
      (Host.new { fallback := true }).Evolves h₃ ∧ h₃.KeepsEntries := by
  obtain ⟨h₁, h₂, h₃, report, declined, loaded, looked, kept, registered, answered⟩ :
      ∃ h₁ h₂ h₃ : Host, ∃ report,
        (Run.factoryOf "Stand.Lamp").run (Host.new { fallback := true })
          = some (.error (.unsupported "Stand.Lamp" .notIntrospectable),
              Host.new { fallback := true }) ∧
        (load stand).run (Host.new { fallback := true }) = some (.ok report, h₁) ∧
        (Run.factoryOf "Stand.Lamp").run h₁ = some (.ok (.introspected "Stand.Lamp"), h₂) ∧
        h₂.registry.cachedFactories.find? "Stand.Lamp" = some (.introspected "Stand.Lamp") ∧
        (Run.registerFactory "Stand.Lamp" (.supplied ⟨.container, ⟨0⟩⟩)).run h₂
          = some (.ok ⟨⟩, h₃) ∧
        (Run.factoryOf "Stand.Lamp").run h₃ = some (.ok (.supplied ⟨.container, ⟨0⟩⟩), h₃) :=
    ⟨_, _, _, _, rfl, rfl, rfl, rfl, rfl, rfl⟩
  have reached : (Host.new { fallback := true }).Evolves h₃ :=
    ((Evolves.of_load loaded).trans (Uses.getFactory looked).evolves).trans
      (Uses.registerFactory registered).evolves
  exact ⟨h₁, h₂, h₃, report, _, declined, loaded, looked, kept, registered, answered, reached,
    keepsEntries reached⟩

end Host
end Weaver
