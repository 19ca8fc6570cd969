import Mathlib.Logic.Relation
import Weaver.Proofs.Host.LifeCycle

/-!
# The evolution of a host

The states that a host comes to, those in the middle of a run included, when it matters which types
and modules there are and what the caches of the registry hold: modules are added only if nothing
speaks against them, and only what the fallback supplies is cached.

Three things live here:

* `Host.Act` and `Host.Evolves`, the single changes of a host and sequences of them;
* `Host.law_evolves` and `Host.Operation.evolves`, by which whatever code and embedding code do is
  such a sequence;
* `Host.Evolves.keeps`, by which to show that every such sequence keeps a property, and
  `Host.CachesFit`, by which a cached entry is what the fallback supplies now.
-/

namespace Weaver
namespace Host

variable {h h' : Host}

/-! ## Steady changes -/

/-- Types and modules are the same, and what is newly cached is what the fallback supplies. -/
structure Steady (h h' : Host) : Prop where
  types : h'.types = h.types
  modules : h'.modules = h.modules
  config : h'.config = h.config
  fallback : h'.registry.fallback = h.registry.fallback
  factories : ∀ entry ∈ h'.registry.cachedFactories,
    entry ∈ h.registry.cachedFactories ∨ h.suppliedFactory? entry.1 = some entry.2
  injectors : ∀ entry ∈ h'.registry.cachedInjectors,
    entry ∈ h.registry.cachedInjectors ∨ h.suppliedInjector? entry.1 = some entry.2

lemma Steady.of_parts (types : h'.types = h.types) (modules : h'.modules = h.modules)
    (config : h'.config = h.config) (registry : h'.registry = h.registry) : Steady h h' where
  types := types
  modules := modules
  config := config
  fallback := by rw [registry]
  factories _ member := .inl (registry ▸ member)
  injectors _ member := .inl (registry ▸ member)

/-- What the fallback supplies depends on the types and on the fallback. -/
lemma Steady.suppliedFactory?_eq (steady : Steady h h') (ty : String) :
    h'.suppliedFactory? ty = h.suppliedFactory? ty := by
  simp only [suppliedFactory?, steady.fallback, Run.introspectedFactory?, typeDef?, steady.types]

lemma Steady.suppliedInjector?_eq (steady : Steady h h') (ty : String) :
    h'.suppliedInjector? ty = h.suppliedInjector? ty := by
  simp only [suppliedInjector?, steady.fallback, Run.introspectedInjector?, typeDef?, steady.types]

lemma Steady.refl (h : Host) : Steady h h := .of_parts rfl rfl rfl rfl

lemma Steady.trans {h₁ h₂ h₃ : Host} (first : Steady h₁ h₂) (second : Steady h₂ h₃) :
    Steady h₁ h₃ where
  types := second.types.trans first.types
  modules := second.modules.trans first.modules
  config := second.config.trans first.config
  fallback := second.fallback.trans first.fallback
  factories entry member := by
    rcases second.factories entry member with there | supplied
    · exact first.factories entry there
    · exact .inr ((first.suppliedFactory?_eq entry.1).symm.trans supplied)
  injectors entry member := by
    rcases second.injectors entry member with there | supplied
    · exact first.injectors entry there
    · exact .inr ((first.suppliedInjector?_eq entry.1).symm.trans supplied)

lemma Deed.steady (deed : Deed h h') : Steady h h' := by
  cases deed with
  | store stored =>
    obtain ⟨-, rfl⟩ := setDeclared?_eq_some_iff.1 stored
    exact .of_parts rfl rfl rfl rfl
  | registerFactory added =>
    rw [Registry.addFactory] at added
    split at added
    · cases added
    · cases added
      exact ⟨rfl, rfl, rfl, rfl, fun _ => .inl, fun _ => .inl⟩
  | registerInjector added =>
    rw [Registry.addInjector] at added
    split at added
    · cases added
    · cases added
      exact ⟨rfl, rfl, rfl, rfl, fun _ => .inl, fun _ => .inl⟩
  | cacheFactory supplied =>
    refine ⟨rfl, rfl, rfl, rfl, fun entry member => ?_, fun _ => .inl⟩
    rcases List.mem_append.1 member with there | new
    · exact .inl there
    · rw [List.mem_singleton.1 new]
      exact .inr supplied
  | cacheInjector supplied =>
    refine ⟨rfl, rfl, rfl, rfl, fun _ => .inl, fun entry member => ?_⟩
    rcases List.mem_append.1 member with there | new
    · exact .inl there
    · rw [List.mem_singleton.1 new]
      exact .inr supplied
  | _ => exact .of_parts rfl rfl rfl rfl

lemma steady_configureStep (h : Host) (ref : BindingRef) (step : BindingStep) :
    Steady h (h.configureStep ref step) := by
  cases step with
  | fromInstance source => cases source <;> exact .of_parts rfl rfl rfl rfl
  | _ => exact .of_parts rfl rfl rfl rfl

/-! ## Acts -/

/-- A single change of a host, by running code or by the code that embeds the host. -/
inductive Act (h : Host) : Host → Prop where
  | deed {h' : Host} (deed : Deed h h') : Act h h'
  | bind (c : ContainerRef) (ty : String) : Act h (h.bind c ty).2
  | configure (ref : BindingRef) (step : BindingStep) : Act h (h.configureStep ref step)
  | hold (ref : BindingRef) (value : Value) : Act h (h.hold ref value)
  | enterCall : Act h h.enterCall
  | leaveCall : Act h h.leaveCall
  | enterProduction (c : ContainerRef) (ref : BindingRef) : Act h (h.enterProduction c ref)
  | leaveProduction (c : ContainerRef) (ref : BindingRef) : Act h (h.leaveProduction c ref)
  | addContainer : Act h h.addContainer.2
  | keep (name : String) (value : Value) : Act h (h.keep name value)
  | takeOutput : Act h { h with output := [] }
  | addModule {m : Module} {hooks : List MethodHandle} (new : h.isLoaded m.name = false)
      (planned : plan h.config.mode h.types [] m.types = .ok hooks) : Act h (h.addModule m)

/-- An act adds the types of a module, or is steady. -/
lemma Act.steady_or_addModule (act : Act h h') :
    Steady h h' ∨ ∃ m hooks, h.isLoaded m.name = false ∧
      plan h.config.mode h.types [] m.types = .ok hooks ∧ h' = h.addModule m := by
  cases act with
  | deed deed => exact .inl deed.steady
  | configure ref step => exact .inl (steady_configureStep h ref step)
  | addModule new planned => exact .inr ⟨_, _, new, planned, rfl⟩
  | _ => exact .inl (.of_parts rfl rfl rfl rfl)

/-- Acts one after the other lead from one host to the other. -/
def Evolves : Host → Host → Prop :=
  Relation.ReflTransGen Act

namespace Evolves

lemma refl (h : Host) : Evolves h h := Relation.ReflTransGen.refl

lemma trans {h₁ h₂ h₃ : Host} (first : Evolves h₁ h₂) (second : Evolves h₂ h₃) : Evolves h₁ h₃ :=
  Relation.ReflTransGen.trans first second

lemma act (act : Act h h') : Evolves h h' := Relation.ReflTransGen.single act

lemma configure (h : Host) (ref : BindingRef) (steps : List BindingStep) :
    Evolves h (h.configure ref steps) := by
  induction steps generalizing h with
  | nil => exact refl h
  | cons step rest ih => exact (act (.configure ref step)).trans (ih _)

end Evolves

/-- A resolution is a sequence of acts if what happens inside it is one. -/
lemma Evolves.resolution {h₁ h₂ : Host} {c : ContainerRef} {ref : BindingRef}
    {r : Except HostError Value} (body : (h.enterProduction c ref).Evolves h₁)
    (settles : Engine.Settles ref h₁ r h₂) : h.Evolves (h₂.leaveProduction c ref) := by
  have settled : Evolves h₁ h₂ := by
    rcases eq_or_eq_hold_of_settles settles with rfl | ⟨value, -, -, rfl⟩
    · exact .refl _
    · exact .act (.hold ref value)
  have entered : Evolves h h₁ := (Evolves.act (.enterProduction c ref)).trans body
  exact (entered.trans settled).trans (.act (.leaveProduction c ref))

/-- Whatever code does is a sequence of acts. -/
lemma law_evolves : Law Evolves where
  refl := .refl
  trans := .trans
  deed deed := .act (.deed deed)
  declare _ c ty steps := (Evolves.act (.bind c ty)).trans (.configure _ _ steps)
  call _ body := ((Evolves.act .enterCall).trans body).trans (.act .leaveCall)
  resolution _ _ _ _ body settles _ := body.resolution settles

/-- Whatever embedding code does is a sequence of acts, however it ends. -/
lemma Operation.evolves {op : Operation} {r : Except HostError Unit}
    (run : op.perform.run h = some (r, h')) : Evolves h h' := by
  obtain ⟨h₁, opens, evolves⟩ := Operation.exists_opens law_evolves run
  have begins : Evolves h h₁ := by
    cases opens with
    | nothing => exact .refl h
    | addContainer => exact .act .addContainer
    | bind _ c ty => exact .act (.bind c ty)
    | configure _ ref step => exact .act (.configure ref step)
    | load new planned => exact .act (.addModule new planned)
    | keep _ name value => exact .act (.keep name value)
    | takeOutput => exact .act .takeOutput
  exact begins.trans evolves

/-- Loading is a sequence of acts, whatever it ends in. -/
lemma Evolves.of_load {m : Module} {r : Except HostError LoadReport}
    (run : (load m).run h = some (r, h')) : h.Evolves h' := by
  have performed : (Operation.load m).perform.run h = some (r.map fun _ => ⟨⟩, h') := by
    rw [Operation.perform, Run.run_bind, run]
    cases r <;> rfl
  exact Operation.evolves performed

/-! ## What acts keep -/

/-- What steady changes keep, and what a new module keeps, every sequence of acts keeps. -/
lemma Evolves.keeps {kept : Host → Prop} (steady : ∀ {h h'}, Steady h h' → kept h → kept h')
    (load : ∀ {h : Host} {m : Module} {hooks}, h.isLoaded m.name = false →
      plan h.config.mode h.types [] m.types = .ok hooks → kept h → kept (h.addModule m))
    (evolves : Evolves h h') (before : kept h) : kept h' := by
  induction evolves with
  | refl => exact before
  | tail _ act ih =>
    rcases act.steady_or_addModule with same | ⟨m, hooks, new, planned, rfl⟩
    · exact steady same ih
    · exact load new planned ih

lemma Evolves.types (evolves : Evolves h h') : h.types <+: h'.types :=
  @Evolves.keeps h h' (fun later => h.types <+: later.types)
    (fun steady longer => steady.types ▸ longer)
    (fun _ _ longer => longer.trans (List.prefix_append _ _)) evolves List.prefix_rfl

lemma Evolves.fallback (evolves : Evolves h h') : h'.registry.fallback = h.registry.fallback :=
  @Evolves.keeps h h' (fun later => later.registry.fallback = h.registry.fallback)
    (fun steady same => steady.fallback.trans same) (fun _ _ same => same) evolves rfl

/-- A type that is found stays the type that is found, in the same module. -/
lemma Evolves.find?_types (evolves : Evolves h h') {ty : String} {t : LoadedType}
    (found : h.types.find? ty = some t) : h'.types.find? ty = some t :=
  find?_of_prefix evolves.types found

/-- No registered entry is ever taken away. -/
lemma Act.entries (act : Act h h') : h.registry.factories <+: h'.registry.factories ∧
    h.registry.injectors <+: h'.registry.injectors := by
  cases act with
  | deed deed => exact ⟨deed.change.keeps.factories, deed.change.keeps.injectors⟩
  | configure ref step =>
    have same : (h.configureStep ref step).registry = h.registry := by
      cases step with
      | fromInstance source => cases source <;> rfl
      | _ => rfl
    rw [same]
    exact ⟨List.prefix_rfl, List.prefix_rfl⟩
  | _ => exact ⟨List.prefix_rfl, List.prefix_rfl⟩

lemma Evolves.entries (evolves : Evolves h h') : h.registry.factories <+: h'.registry.factories ∧
    h.registry.injectors <+: h'.registry.injectors := by
  induction evolves with
  | refl => exact ⟨List.prefix_rfl, List.prefix_rfl⟩
  | tail _ act ih => exact ⟨ih.1.trans act.entries.1, ih.2.trans act.entries.2⟩

/-- The factory that a type has is the factory of the type from then on. -/
lemma Evolves.find?_factories (evolves : Evolves h h') {ty : String} {factory : Factory}
    (registered : h.registry.factories.find? ty = some factory) :
    h'.registry.factories.find? ty = some factory :=
  EntryTable.find?_of_prefix evolves.entries.1 registered

/-- The injector that a type has is the injector of the type from then on. -/
lemma Evolves.find?_injectors (evolves : Evolves h h') {ty : String} {injector : Injector}
    (registered : h.registry.injectors.find? ty = some injector) :
    h'.registry.injectors.find? ty = some injector :=
  EntryTable.find?_of_prefix evolves.entries.2 registered

/-! ## Caches -/

/-- What the caches hold is what the fallback supplies. -/
structure CachesFit (h : Host) : Prop where
  factories : ∀ entry ∈ h.registry.cachedFactories, h.suppliedFactory? entry.1 = some entry.2
  injectors : ∀ entry ∈ h.registry.cachedInjectors, h.suppliedInjector? entry.1 = some entry.2

/-- A host has the fallback on the loaded types or none. -/
lemma Evolves.fallback_cases {config : HostConfig} (evolves : Evolves (Host.new config) h) :
    h.registry.fallback = none ∨ h.registry.fallback = some .introspection := by
  rw [evolves.fallback]
  show (if config.fallback then _ else _) = _ ∨ (if config.fallback then _ else _) = _
  cases config.fallback
  · exact .inl rfl
  · exact .inr rfl

lemma cachesFit_new (config : HostConfig) : (Host.new config).CachesFit where
  factories _ member := absurd member List.not_mem_nil
  injectors _ member := absurd member List.not_mem_nil

lemma CachesFit.steady (fit : h.CachesFit) (steady : Steady h h') : h'.CachesFit where
  factories entry member := by
    rw [steady.suppliedFactory?_eq]
    rcases steady.factories entry member with there | supplied
    · exact fit.factories entry there
    · exact supplied
  injectors entry member := by
    rw [steady.suppliedInjector?_eq]
    rcases steady.injectors entry member with there | supplied
    · exact fit.injectors entry there
    · exact supplied

lemma typeDef?_addModule {ty : String} {t : TypeDef} (m : Module) (found : h.typeDef? ty = some t) :
    (h.addModule m).typeDef? ty = some t := by
  obtain ⟨loaded, there, rfl⟩ := Option.map_eq_some_iff.1 found
  have still : (h.addModule m).types.find? ty = some loaded :=
    find?_of_prefix (List.prefix_append _ _) there
  rw [typeDef?, still]
  rfl

/-- What the fallback supplies, it supplies when more types are loaded. -/
lemma suppliedFactory?_addModule {ty : String} {factory : Factory} (m : Module)
    (supplied : h.suppliedFactory? ty = some factory) :
    (h.addModule m).suppliedFactory? ty = some factory := by
  have same : (h.addModule m).registry.fallback = h.registry.fallback := rfl
  rw [suppliedFactory?] at supplied ⊢
  rw [same]
  rcases used : h.registry.fallback with _ | _ | ⟨factories, injectors⟩ <;> rw [used] at supplied
  case none | some.listed => exact supplied
  case some.introspection =>
    dsimp only [Run.introspectedFactory?] at supplied ⊢
    cases found : h.typeDef? ty with
    | none =>
      rw [found] at supplied
      cases supplied
    | some t =>
      rw [found] at supplied
      rw [typeDef?_addModule m found]
      exact supplied

lemma suppliedInjector?_addModule {ty : String} {injector : Injector} (m : Module)
    (supplied : h.suppliedInjector? ty = some injector) :
    (h.addModule m).suppliedInjector? ty = some injector := by
  have same : (h.addModule m).registry.fallback = h.registry.fallback := rfl
  rw [suppliedInjector?] at supplied ⊢
  rw [same]
  rcases used : h.registry.fallback with _ | _ | ⟨factories, injectors⟩ <;> rw [used] at supplied
  case none | some.listed => exact supplied
  case some.introspection =>
    dsimp only [Run.introspectedInjector?] at supplied ⊢
    cases found : h.typeDef? ty with
    | none =>
      rw [found] at supplied
      cases supplied
    | some t =>
      rw [found] at supplied
      rw [typeDef?_addModule m found]
      exact supplied

/-- What the fallback supplies, it supplies ever after. -/
lemma Evolves.suppliedFactory? (evolves : Evolves h h') {ty : String} {factory : Factory}
    (supplied : h.suppliedFactory? ty = some factory) : h'.suppliedFactory? ty = some factory :=
  @Evolves.keeps h h' (fun later => later.suppliedFactory? ty = some factory)
    (fun steady same => (steady.suppliedFactory?_eq ty).trans same)
    (fun _ _ same => suppliedFactory?_addModule _ same) evolves supplied

lemma Evolves.suppliedInjector? (evolves : Evolves h h') {ty : String} {injector : Injector}
    (supplied : h.suppliedInjector? ty = some injector) : h'.suppliedInjector? ty = some injector :=
  @Evolves.keeps h h' (fun later => later.suppliedInjector? ty = some injector)
    (fun steady same => (steady.suppliedInjector?_eq ty).trans same)
    (fun _ _ same => suppliedInjector?_addModule _ same) evolves supplied

lemma CachesFit.addModule (fit : h.CachesFit) (m : Module) : (h.addModule m).CachesFit where
  factories entry member := suppliedFactory?_addModule m (fit.factories entry member)
  injectors entry member := suppliedInjector?_addModule m (fit.injectors entry member)

/-- At any time, the caches hold what the fallback supplies. -/
theorem Evolves.cachesFit (evolves : Evolves h h') (fit : h.CachesFit) : h'.CachesFit :=
  Evolves.keeps (fun steady fit => fit.steady steady) (fun _ _ fit => fit.addModule _) evolves fit

end Host
end Weaver
