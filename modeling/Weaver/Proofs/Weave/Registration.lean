import Weaver.Proofs.Engine.Bodies
import Weaver.Proofs.Weave.Hierarchy

/-!
# What loading a woven module registers

A woven module is loaded like any other; its last type is the registrar, whose method runs last and
registers every synthesized method for the type it was added to. A type that has an entry already
fails the hook, so once a woven module is loaded, its entries stand in the registry.

Four things live here:

* `Registry.withWoven`, the registry with the entries of one kind behind those it has;
* `of_registrations`, what the body of the registrar's method does to a registry;
* `exists_bake_of_load`, by which the method was the last thing that ran;
* `Module.NoLoadHooks`, for modules where it is the only thing that runs.
-/

namespace Weaver

open Host

/-! ## Registries with woven entries -/

/-- The entry that a registrar makes for a synthesized method. -/
def Synthesized.entry (s : Synthesized) : String × MethodHandle := (s.ty, ⟨s.ty, s.method⟩)

namespace Registry

/-- The registry with woven entries of a kind behind its own. -/
def withWoven (r : Registry) (kind : EntryKind) (entries : List (String × MethodHandle)) :
    Registry :=
  match kind with
  | .factory => { r with factories := r.factories ++ entries.map fun e => (e.1, .woven e.2) }
  | .injector => { r with injectors := r.injectors ++ entries.map fun e => (e.1, .woven e.2) }

/-- Whether a woven method is the entry of a type. -/
def HasWoven (r : Registry) (kind : EntryKind) (ty : String) (handle : MethodHandle) : Prop :=
  match kind with
  | .factory => r.factories.find? ty = some (.woven handle)
  | .injector => r.injectors.find? ty = some (.woven handle)

lemma withWoven_nil (r : Registry) (kind : EntryKind) : r.withWoven kind [] = r := by
  cases kind <;> simp [withWoven]

lemma withWoven_cons (r : Registry) (kind : EntryKind) (e : String × MethodHandle)
    (rest : List (String × MethodHandle)) :
    r.withWoven kind (e :: rest) = (r.withWoven kind [e]).withWoven kind rest := by
  cases kind <;> simp [withWoven]

/-- An entry is still there when more of them follow. -/
lemma HasWoven.withWoven {r : Registry} {kind : EntryKind} {ty : String} {handle : MethodHandle}
    (has : r.HasWoven kind ty handle) (kind' : EntryKind)
    (entries : List (String × MethodHandle)) :
    (r.withWoven kind' entries).HasWoven kind ty handle := by
  cases kind <;> cases kind'
  · exact EntryTable.find?_of_prefix (List.prefix_append _ _) has
  · exact has
  · exact has
  · exact EntryTable.find?_of_prefix (List.prefix_append _ _) has

end Registry

/-- In a table of woven entries, exactly the types that get a method have an entry. -/
lemma WeaveIds.find?_entries {α : Type} (ids : WeaveIds) (m : Module) (kind : EntryKind)
    (made : MethodHandle → α) (ty : String) :
    EntryTable.find? (((ids.entries m kind).map Synthesized.entry).map fun e => (e.1, made e.2)) ty
      = if ty ∈ m.targetNames kind then some (made ⟨ty, ids.entry kind ty⟩) else none := by
  rw [entries]
  generalize m.targetNames kind = names
  induction names with
  | nil => rfl
  | cons name rest ih =>
    by_cases own : name = ty
    · subst own
      simp [EntryTable.find?, Synthesized.entry]
    · have other : (name == ty) = false := beq_false_of_ne own
      simp only [EntryTable.find?, List.map_cons, Synthesized.entry, List.find?_cons, other] at ih ⊢
      rw [ih]
      simp [Ne.symm own]

/-- The registry of a host that has loaded nothing but a woven module without load hooks. -/
def Module.bakedRegistry (m : Module) (ids : WeaveIds) : Registry :=
  (Registry.withWoven {} .factory ((ids.entries m .factory).map Synthesized.entry)).withWoven
    .injector ((ids.entries m .injector).map Synthesized.entry)

lemma Module.find?_factories_bakedRegistry (m : Module) (ids : WeaveIds) (ty : String) :
    (m.bakedRegistry ids).factories.find? ty
      = if ty ∈ m.targetNames .factory then some (.woven ⟨ty, ids.entry .factory ty⟩)
        else none :=
  ids.find?_entries m .factory Factory.woven ty

lemma Module.find?_injectors_bakedRegistry (m : Module) (ids : WeaveIds) (ty : String) :
    (m.bakedRegistry ids).injectors.find? ty
      = if ty ∈ m.targetNames .injector then some (.woven ⟨ty, ids.entry .injector ty⟩)
        else none :=
  ids.find?_entries m .injector Injector.woven ty

namespace Engine

variable {e : Engine} {f : Frame} {h h' : Host} {stack : List Value}

/-- A factory is registered behind the others, for a type that had none. -/
lemma of_registerFactory {ty : String} {factory : Factory} {u : Unit}
    (ok : (Run.registerFactory ty factory).run h = some (.ok u, h')) :
    h.registry.factories.find? ty = none ∧
      h' = { h with registry :=
        { h.registry with factories := h.registry.factories ++ [(ty, factory)] } } := by
  rw [Run.registerFactory, Run.run_get_bind, Registry.addFactory] at ok
  cases free : h.registry.factories.find? ty with
  | some other =>
    rw [free] at ok
    cases ok
  | none =>
    rw [free] at ok
    cases ok
    exact ⟨rfl, rfl⟩

/-- An injector is registered behind the others, for a type that had none. -/
lemma of_registerInjector {ty : String} {injector : Injector} {u : Unit}
    (ok : (Run.registerInjector ty injector).run h = some (.ok u, h')) :
    h.registry.injectors.find? ty = none ∧
      h' = { h with registry :=
        { h.registry with injectors := h.registry.injectors ++ [(ty, injector)] } } := by
  rw [Run.registerInjector, Run.run_get_bind, Registry.addInjector] at ok
  cases free : h.registry.injectors.find? ty with
  | some other =>
    rw [free] at ok
    cases ok
  | none =>
    rw [free] at ok
    cases ok
    exact ⟨rfl, rfl⟩

/-- A registration that ends well adds the entry of a type that had none. -/
lemma of_registerWoven {kind : EntryKind} {ty : String} {handle : MethodHandle} {u : Unit}
    (ok : (Run.registerWoven kind ty handle).run h = some (.ok u, h')) :
    h' = { h with registry := h.registry.withWoven kind [(ty, handle)] } ∧
      h'.registry.HasWoven kind ty handle := by
  unfold Run.registerWoven at ok
  rw [Run.run_get_bind] at ok
  dsimp only at ok
  -- the method's owner, the method and the type are found, and both types are public
  split at ok
  on_goal 2 => cases ok
  split at ok
  on_goal 2 => cases ok
  split at ok
  on_goal 2 => cases ok
  split at ok
  · cases ok
  split at ok
  · cases ok
  -- the method has the shape of its kind
  cases kind with
  | factory =>
    dsimp only at ok
    split at ok
    · cases ok
    obtain ⟨free, rfl⟩ := of_registerFactory ok
    exact ⟨rfl, EntryTable.find?_append_self free _⟩
  | injector =>
    dsimp only at ok
    split at ok
    · cases ok
    obtain ⟨free, rfl⟩ := of_registerInjector ok
    exact ⟨rfl, EntryTable.find?_append_self free _⟩

/-! ## The body of the registrar's method -/

/-- A reference to a method is pushed without a change of the host. -/
lemma of_loadMethod {owner : String} {method : Uuid} {stack' : List Value}
    (ok : (e.step f stack (.loadMethod owner method)).run h = some (.ok stack', h')) :
    h' = h ∧ stack' = .method ⟨owner, method⟩ :: stack := by
  rw [step, Run.run_bind_eq_ok_iff] at ok
  obtain ⟨target, h₁, lookup, ok⟩ := ok
  obtain ⟨rfl, -, -⟩ := of_lookup lookup
  split at ok
  on_goal 2 => cases ok
  split at ok
  · cases ok
  rw [Run.run_bind_eq_ok_iff] at ok
  obtain ⟨u, h₂, access, ok⟩ := ok
  obtain ⟨rfl, -⟩ := of_checkMember access
  cases ok
  exact ⟨rfl, rfl⟩

/-- Registrations that end well add an entry each, in order. -/
lemma of_registrations {kind : EntryKind} {entries : List Synthesized} {rest : List Instr}
    {stack' : List Value}
    (ok : (e.runBody f stack (registrations kind entries ++ rest)).run h
      = some (.ok stack', h')) :
    (e.runBody f stack rest).run
        { h with registry := h.registry.withWoven kind (entries.map Synthesized.entry) }
        = some (.ok stack', h') ∧
      ∀ entry ∈ entries, (h.registry.withWoven kind (entries.map Synthesized.entry)).HasWoven kind
        entry.ty ⟨entry.ty, entry.method⟩ := by
  induction entries generalizing h with
  | nil =>
    rw [List.map_nil, Registry.withWoven_nil]
    exact ⟨ok, fun _ none => nomatch none⟩
  | cons entry entries ih =>
    have body : registrations kind (entry :: entries) ++ rest
        = .loadMethod entry.ty entry.method :: .register kind entry.ty
          :: (registrations kind entries ++ rest) := rfl
    -- a reference is pushed and registered at once, so the stack is as it was before
    rw [body, runBody_cons (by simp), Run.run_bind_eq_ok_iff] at ok
    obtain ⟨stack₁, h₁, load, ok⟩ := ok
    obtain ⟨rfl, rfl⟩ := of_loadMethod load
    rw [runBody_cons (by simp), Run.run_bind_eq_ok_iff] at ok
    obtain ⟨stack₂, h₂, register, ok⟩ := ok
    simp only [step, Frame.pop, pure_bind] at register
    rw [Run.run_bind_eq_ok_iff] at register
    obtain ⟨u, h₃, register, last⟩ := register
    cases last
    obtain ⟨rfl, has⟩ := of_registerWoven register
    obtain ⟨run, later⟩ := ih ok
    rw [List.map_cons, Registry.withWoven_cons]
    refine ⟨run, fun other member => ?_⟩
    rcases List.mem_cons.1 member with rfl | member
    · exact has.withWoven kind (entries.map Synthesized.entry)
    · exact later other member

end Engine

/-! ## The hook of a registrar -/

namespace Host

/-- The plan of a list of types ends with the hooks of the last of them. -/
lemma exists_of_plan_append {mode : HostMode} {loaded : Universe} {seen : List String}
    {types : List TypeDef} {t : TypeDef} {hooks : List MethodHandle}
    (planned : plan mode loaded seen (types ++ [t]) = .ok hooks) :
    ∃ first last, hooksOf mode t.name t.methods = .ok last ∧ hooks = first ++ last ∧
      plan mode loaded seen types = .ok first := by
  induction types generalizing seen hooks with
  | nil =>
    rw [List.nil_append, plan] at planned
    split at planned
    · cases planned
    obtain ⟨own, hooked, planned⟩ := exists_of_bind_eq_ok planned
    obtain ⟨more, none, planned⟩ := exists_of_bind_eq_ok planned
    cases none
    cases planned
    exact ⟨[], own, hooked, by simp, rfl⟩
  | cons s types ih =>
    rw [List.cons_append, plan] at planned
    split at planned
    · cases planned
    next fresh =>
      obtain ⟨own, hooked, planned⟩ := exists_of_bind_eq_ok planned
      obtain ⟨more, later, planned⟩ := exists_of_bind_eq_ok planned
      cases planned
      obtain ⟨first, last, hlast, rfl, hfirst⟩ := ih later
      refine ⟨own ++ first, last, hlast, by simp, ?_⟩
      rw [plan, if_neg fresh, hooked, hfirst]
      rfl

/-- The hooks of a registrar: its only method, if the host runs hooks of its kind. -/
lemma hooksOf_registrarType (mode : HostMode) (id : Uuid) (name : String) (bake : Uuid)
    (factories injectors : List Synthesized) (editorOnly : Bool) :
    hooksOf mode name
        (registrarType id name (bakeMethod bake factories injectors editorOnly)).methods
      = .ok (if mode.runs (loadHook editorOnly) then [⟨name, bake⟩] else []) := by
  cases editorOnly <;> rfl

/-- Hooks run one after the other. -/
lemma runHooks_append (e : Engine) (first last : List MethodHandle) :
    runHooks e (first ++ last) = (do runHooks e first; runHooks e last) := by
  induction first with
  | nil => rfl
  | cons hook rest ih =>
    rw [List.cons_append, runHooks, runHooks, ih, bind_assoc]

/-- What a host is after the hook of a registrar. -/
def afterBake (h : Host) (factories injectors : List Synthesized) : Host :=
  let registry := h.registry.withWoven .factory (factories.map Synthesized.entry)
  { h with registry := registry.withWoven .injector (injectors.map Synthesized.entry) }

open Engine

/-- The hook of a registrar, if it ends well, adds all entries and changes nothing else. -/
lemma of_bake {h h' : Host} {owner : LoadedType} {name : String} {id bake : Uuid}
    {factories injectors : List Synthesized} {editorOnly : Bool} {result : Option Value}
    (found : h.types.find? name = some owner)
    (registrar : owner.definition
      = registrarType id name (bakeMethod bake factories injectors editorOnly))
    (ok : (unlimited.invokeHandle ⟨name, bake⟩ []).run h = some (.ok result, h')) :
    h' = h.afterBake factories injectors ∧
      (∀ entry ∈ factories, h'.registry.HasWoven .factory entry.ty ⟨entry.ty, entry.method⟩) ∧
      ∀ entry ∈ injectors, h'.registry.HasWoven .injector entry.ty ⟨entry.ty, entry.method⟩ := by
  let method := bakeMethod bake factories injectors editorOnly
  -- the registrar's type has no constructors and one method
  have member : owner.definition.member? bake = some method := by
    rw [registrar]
    simp [registrarType, TypeDef.member?, TypeDef.constructor?, TypeDef.method?, bakeMethod, method]
  rw [run_invokeHandle found member, ← next_unlimited] at ok
  obtain ⟨-, -, h₁, run, rfl⟩ := exists_execute_of_call ok
  obtain ⟨stack, run, -⟩ := run_execute_eq_ok_iff.1 run
  have body : method.body = registrations .factory factories ++
      (registrations .injector injectors ++ [.ret]) := List.append_assoc _ _ _
  rw [show (Frame.mk owner method []).method.body = _ from body] at run
  obtain ⟨run, hfactories⟩ := of_registrations run
  obtain ⟨run, hinjectors⟩ := of_registrations run
  rw [runBody_ret] at run
  cases run
  exact ⟨rfl, fun entry hentry => (hfactories entry hentry).withWoven .injector _, hinjectors⟩

/-- Loading a woven module runs the hooks of the module's own types and then the registrar's. -/
lemma exists_bake_of_load {m : Module} {options : WeaveOptions} {ids : WeaveIds} {h h' : Host}
    {report : LoadReport}
    (loaded : (load (m.rewoven options ids)).run h = some (.ok report, h'))
    (runs : h.config.mode.runs (loadHook options.editorOnly) = true) :
    ∃ hooks h₂, plan h.config.mode h.types [] (m.types.map (Module.rewovenType ids)) = .ok hooks ∧
      (runHooks unlimited hooks).run (h.addModule (m.rewoven options ids))
        = some (.ok ⟨⟩, h₂) ∧
      h' = h₂.afterBake (ids.entries m .factory) (ids.entries m .injector) ∧
      (∀ entry ∈ ids.entries m .factory,
        h'.registry.HasWoven .factory entry.ty ⟨entry.ty, entry.method⟩) ∧
      ∀ entry ∈ ids.entries m .injector,
        h'.registry.HasWoven .injector entry.ty ⟨entry.ty, entry.method⟩ := by
  let name := registrarName m.name options.registrarName
  let registrar := m.registrar options ids
  obtain ⟨hooks, planned, ok, -⟩ := exists_hooks_of_load loaded
  have member : registrar ∈ (m.rewoven options ids).types :=
    List.mem_append_right _ List.mem_cons_self
  have found : (h.addModule (m.rewoven options ids)).types.find? name = some ⟨m.name, registrar⟩ :=
    find?_addModule planned member
  rw [Module.types_rewoven] at planned
  obtain ⟨first, last, hooked, rfl, hplanned⟩ := exists_of_plan_append planned
  have own := hooksOf_registrarType h.config.mode ids.registrar name ids.bake
    (ids.entries m .factory) (ids.entries m .injector) options.editorOnly
  rw [if_pos runs] at own
  cases hooked.symm.trans own
  rw [runHooks_append, Run.run_bind_eq_ok_iff] at ok
  obtain ⟨⟨⟩, h₂, hfirst, ok⟩ := ok
  rw [runHooks, Run.run_bind_eq_ok_iff] at ok
  obtain ⟨result, h₃, ok, rest⟩ := ok
  cases rest
  -- the hooks that ran before have left the registrar type as it was
  have history := traced_unlimited.history (fun e => runHooks e first)
    (fun agree => agree.runHooks first) hfirst
  have found₂ : h₂.types.find? name = some ⟨m.name, registrar⟩ := by
    rw [history.keeps.types, found]
  exact ⟨first, h₂, hplanned, hfirst, of_bake found₂ (m.registrar_eq options ids) ok⟩

end Host

/-! ## Modules without load hooks of their own -/

/-- No method of the module runs when it is loaded. -/
def Module.NoLoadHooks (m : Module) : Prop :=
  ∀ t ∈ m.types, ∀ x ∈ t.methods, ∀ marker ∈ x.markers, marker.isLoadHook = false

instance (m : Module) : Decidable m.NoLoadHooks :=
  inferInstanceAs (Decidable (∀ t ∈ m.types, ∀ x ∈ t.methods, ∀ marker ∈ x.markers,
    marker.isLoadHook = false))

namespace Host

lemma hooksOf_eq_nil {mode : HostMode} {ty : String} {methods : List Method}
    (none : ∀ x ∈ methods, ∀ marker ∈ x.markers, marker.isLoadHook = false) :
    hooksOf mode ty methods = .ok [] := by
  induction methods with
  | nil => rfl
  | cons x rest ih =>
    have own : x.markers.find? Marker.isLoadHook = Option.none :=
      List.find?_eq_none.2 fun marker hmarker => by simp [none x List.mem_cons_self marker hmarker]
    rw [hooksOf, own]
    exact ih fun y hy => none y (List.mem_cons_of_mem _ hy)

/-- A plan for types without load hooks runs nothing. -/
lemma plan_eq_nil {mode : HostMode} {loaded : Universe} {seen : List String}
    {types : List TypeDef} {hooks : List MethodHandle}
    (none : ∀ t ∈ types, ∀ x ∈ t.methods, ∀ marker ∈ x.markers, marker.isLoadHook = false)
    (planned : plan mode loaded seen types = .ok hooks) : hooks = [] := by
  induction types generalizing seen hooks with
  | nil =>
    cases planned
    rfl
  | cons t rest ih =>
    rw [plan] at planned
    split at planned
    · cases planned
    obtain ⟨own, hooked, planned⟩ := exists_of_bind_eq_ok planned
    obtain ⟨more, later, planned⟩ := exists_of_bind_eq_ok planned
    cases planned
    rw [hooksOf_eq_nil (none t List.mem_cons_self)] at hooked
    cases hooked
    exact ih (fun s hs => none s (List.mem_cons_of_mem _ hs)) later

/-- Loading a module without load hooks adds its types and does nothing else. -/
lemma load_of_noLoadHooks {m : Module} {h h' : Host} {report : LoadReport} (none : m.NoLoadHooks)
    (loaded : (load m).run h = some (.ok report, h')) : h' = h.addModule m := by
  obtain ⟨hooks, planned, ok, -⟩ := exists_hooks_of_load loaded
  obtain rfl := plan_eq_nil none planned
  cases ok
  rfl

/-- A weave adds no load hooks to the types of the module. -/
lemma noLoadHooks_rewovenType {m : Module} (ids : WeaveIds) (none : m.NoLoadHooks) :
    ∀ t ∈ m.types.map (Module.rewovenType ids), ∀ x ∈ t.methods, ∀ marker ∈ x.markers,
      marker.isLoadHook = false := by
  intro t ht x hx marker hmarker
  obtain ⟨s, hs, rfl⟩ := List.mem_map.1 ht
  -- the only marker of a synthesized method is its tag
  have tagged {kind : EntryKind} {id : Uuid} (added : s.synthesized? kind id = some x) :
      marker.isLoadHook = false := by
    rw [(TypeDef.of_synthesized? added).2.2, List.mem_singleton] at hmarker
    rw [hmarker]
    rfl
  rcases TypeDef.mem_methods_rewoven _ _ hx with old | added | added
  · exact none s hs x old marker hmarker
  · exact tagged added
  · exact tagged added

/-- Loading a woven module without load hooks of its own adds its types, and runs the registrar's
hook if the host runs hooks of its kind. -/
lemma load_rewoven_of_noLoadHooks {m : Module} {options : WeaveOptions} {ids : WeaveIds}
    {h h' : Host} {report : LoadReport} (none : m.NoLoadHooks)
    (loaded : (load (m.rewoven options ids)).run h = some (.ok report, h')) :
    h' = if h.config.mode.runs (loadHook options.editorOnly) then
        (h.addModule (m.rewoven options ids)).afterBake (ids.entries m .factory)
          (ids.entries m .injector)
      else h.addModule (m.rewoven options ids) := by
  by_cases runs : h.config.mode.runs (loadHook options.editorOnly) = true
  · obtain ⟨hooks, h₂, planned, ok, baked, -⟩ := exists_bake_of_load loaded runs
    obtain rfl := plan_eq_nil (noLoadHooks_rewovenType ids none) planned
    cases ok
    rw [if_pos runs, baked]
  · obtain ⟨hooks, planned, ok, -⟩ := exists_hooks_of_load loaded
    rw [Module.types_rewoven] at planned
    obtain ⟨first, last, hooked, rfl, hplanned⟩ := exists_of_plan_append planned
    have own := hooksOf_registrarType h.config.mode ids.registrar
      (registrarName m.name options.registrarName) ids.bake
      (ids.entries m .factory) (ids.entries m .injector) options.editorOnly
    rw [if_neg runs] at own
    cases hooked.symm.trans own
    obtain rfl := plan_eq_nil (noLoadHooks_rewovenType ids none) hplanned
    cases ok
    rw [if_neg runs]

end Host

end Weaver
