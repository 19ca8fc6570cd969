import Mathlib.Data.List.Sort
import Mathlib.Data.String.Basic
import Weaver.Proofs.Weave.Additions
import Weaver.Proofs.Weave.Registration
import Weaver.Settings

/-!
# What a host registers when it loads modules

The registry of a host that has loaded woven modules lists exactly the types whose markers ask for an
entry. Nothing stands in the way of loading: registrars have names of their own, their methods may
use what they refer to, and no type is registered twice. So the order of loading does not matter.

Four things live here:

* `Registry.registered`, the types that have an entry, and what a registrar's method adds to them;
* `Weaving`, a module with the weave it went through, and what a host reports when it loads it;
* `Weaving.run_load`, by which such a module is loaded;
* `exists_loaded_of_apart`, by which many of them are, in any order.
-/

namespace Weaver

/-! ## Registered types -/

/-- The types that have an entry of a kind, in the order of their registration. -/
def Registry.registered (r : Registry) : EntryKind → List String
  | .factory => r.factories.map (·.1)
  | .injector => r.injectors.map (·.1)

lemma EntryTable.find?_eq_none_iff {α : Type} {table : EntryTable α} {ty : String} :
    table.find? ty = none ↔ ty ∉ table.map (·.1) := by
  simp only [find?, Option.map_eq_none_iff, List.find?_eq_none, beq_iff_eq, List.mem_map, not_exists,
    not_and]

lemma Registry.registered_withWoven (r : Registry) (kind kind' : EntryKind)
    (entries : List (String × MethodHandle)) :
    (r.withWoven kind entries).registered kind'
      = r.registered kind' ++ if kind' = kind then entries.map (·.1) else [] := by
  cases kind <;> cases kind' <;> simp [withWoven, registered, Function.comp_def]

/-! ## The registrar's method -/

/-- What a registrar refers to is loaded, may be used by other modules and has the right shape. -/
def Universe.Offers (u : Universe) (kind : EntryKind) (s : Synthesized) : Prop :=
  ∃ owner x, u.find? s.ty = some owner ∧ owner.definition.visibility = .everywhere ∧
    owner.definition.method? s.method = some x ∧ x.Fits kind

namespace Engine

variable {e : Engine} {f : Frame} {h : Host} {stack : List Value}

/-- A synthesized method of a type without an entry is registered. -/
lemma run_registerWoven {kind : EntryKind} {s : Synthesized} (offers : h.types.Offers kind s)
    (free : s.ty ∉ h.registry.registered kind) :
    (Run.registerWoven kind s.ty ⟨s.ty, s.method⟩).run h
      = some (.ok ⟨⟩, { h with registry := h.registry.withWoven kind [s.entry] }) := by
  obtain ⟨owner, x, found, visible, method, fits⟩ := offers
  unfold Run.registerWoven
  rw [Run.run_get_bind]
  cases kind with
  | factory =>
    have none : h.registry.factories.find? s.ty = none := EntryTable.find?_eq_none_iff.2 free
    simp only [found, method, visible, fits.visibility, fits.isStatic, fits.params,
      EntryKind.paramCount, ne_eq, not_true_eq_false, or_self, if_false, Bool.not_true,
      Bool.false_eq_true]
    rw [Run.registerFactory, Run.run_get_bind, Registry.addFactory, none]
    rfl
  | injector =>
    have none : h.registry.injectors.find? s.ty = none := EntryTable.find?_eq_none_iff.2 free
    simp only [found, method, visible, fits.visibility, fits.isStatic, fits.params,
      EntryKind.paramCount, ne_eq, not_true_eq_false, or_self, if_false, Bool.not_true,
      Bool.false_eq_true]
    rw [Run.registerInjector, Run.run_get_bind, Registry.addInjector, none]
    rfl

/-- A reference to a synthesized method can be pushed. -/
lemma run_loadMethod {kind : EntryKind} {s : Synthesized} (offers : h.types.Offers kind s) :
    (e.step f stack (.loadMethod s.ty s.method)).run h
      = some (.ok (.method ⟨s.ty, s.method⟩ :: stack), h) := by
  obtain ⟨owner, x, found, visible, method, fits⟩ := offers
  rw [step, Run.run_bind_of_ok (run_lookup found (.inl visible))]
  simp only [method, fits.isStatic, fits.visibility]
  rw [checkMember_eq (by trivial)]
  rfl

/-- Registrations of methods of distinct types without entries all succeed. -/
lemma run_registrations {kind : EntryKind} {entries : List Synthesized}
    (offers : ∀ s ∈ entries, h.types.Offers kind s) (distinct : (entries.map (·.ty)).Nodup)
    (free : ∀ s ∈ entries, s.ty ∉ h.registry.registered kind) (rest : List Instr) :
    (e.runBody f stack (registrations kind entries ++ rest)).run h
      = (e.runBody f stack rest).run
        { h with registry := h.registry.withWoven kind (entries.map Synthesized.entry) } := by
  induction entries generalizing h with
  | nil =>
    rw [List.map_nil, Registry.withWoven_nil]
    rfl
  | cons s entries ih =>
    have body : registrations kind (s :: entries) ++ rest
        = .loadMethod s.ty s.method :: .register kind s.ty
          :: (registrations kind entries ++ rest) := rfl
    have own := offers s List.mem_cons_self
    have registered := run_registerWoven own (free s List.mem_cons_self)
    rw [List.map_cons, List.nodup_cons] at distinct
    rw [body, runBody_cons (by simp), Run.run_bind_of_ok (run_loadMethod own),
      runBody_cons (by simp)]
    simp only [step, Frame.pop, pure_bind, bind_assoc]
    -- the type that was just registered is none of those to come
    have later : ∀ t ∈ entries, t.ty ∉ (h.registry.withWoven kind [s.entry]).registered kind := by
      intro t ht
      rw [Registry.registered_withWoven, if_pos rfl, List.mem_append, not_or]
      refine ⟨free t (List.mem_cons_of_mem _ ht), fun same => distinct.1 ?_⟩
      obtain same : t.ty = s.ty := List.mem_singleton.1 same
      exact same ▸ List.mem_map_of_mem ht
    rw [Run.run_bind_of_ok registered, List.map_cons,
      Registry.withWoven_cons h.registry kind s.entry (entries.map Synthesized.entry)]
    exact ih (h := { h with registry := h.registry.withWoven kind [s.entry] })
      (fun t ht => offers t (List.mem_cons_of_mem _ ht)) distinct.2 later

end Engine

namespace Host

open Engine

lemma registered_afterBake (h : Host) (entries : EntryKind → List Synthesized) (kind : EntryKind) :
    (h.afterBake (entries .factory) (entries .injector)).registry.registered kind
      = h.registry.registered kind ++ (entries kind).map (·.ty) := by
  unfold afterBake
  cases kind <;>
    simp [Registry.registered_withWoven, Synthesized.entry, Function.comp_def]

/-- The hook of a registrar ends well on a host that has loaded what it refers to and has no entry
for any of it. -/
lemma run_bake {h : Host} {owner : LoadedType} {name : String} {id bake : Uuid}
    {entries : EntryKind → List Synthesized} {editorOnly : Bool}
    (found : h.types.find? name = some owner)
    (registrar : owner.definition
      = registrarType id name (bakeMethod bake (entries .factory) (entries .injector) editorOnly))
    (idle : h.callDepth < maxCallDepth)
    (offers : ∀ kind, ∀ s ∈ entries kind, h.types.Offers kind s)
    (distinct : ∀ kind, ((entries kind).map (·.ty)).Nodup)
    (free : ∀ kind, ∀ s ∈ entries kind, s.ty ∉ h.registry.registered kind) :
    (unlimited.invokeHandle ⟨name, bake⟩ []).run h
      = some (.ok none, h.afterBake (entries .factory) (entries .injector)) := by
  let method := bakeMethod bake (entries .factory) (entries .injector) editorOnly
  -- the registrar's type has no constructors and one method
  have member : owner.definition.member? bake = some method := by
    rw [registrar]
    simp [registrarType, TypeDef.member?, TypeDef.constructor?, TypeDef.method?, bakeMethod, method]
  have body : method.body = registrations .factory (entries .factory) ++
      (registrations .injector (entries .injector) ++ [.ret]) := List.append_assoc _ _ _
  have ran : (unlimited.runBody ⟨owner, method, []⟩ [] method.body).run h.enterCall
      = some (.ok [], (h.afterBake (entries .factory) (entries .injector)).enterCall) := by
    have apart : ∀ s ∈ entries .injector, s.ty ∉ (h.registry.withWoven .factory
        ((entries .factory).map Synthesized.entry)).registered .injector := by
      intro s hs
      rw [Registry.registered_withWoven, if_neg (by simp), List.append_nil]
      exact free .injector s hs
    rw [body, run_registrations (h := h.enterCall) (offers .factory) (distinct .factory)
        (free .factory)]
    refine (run_registrations ?_ (distinct .injector) apart [.ret]).trans ?_
    · exact offers .injector
    · rw [runBody_ret]
      rfl
  have executed : (unlimited.execute ⟨owner, method, []⟩).run h.enterCall
      = some (.ok none, (h.afterBake (entries .factory) (entries .injector)).enterCall) :=
    run_execute_eq_ok_iff.2 ⟨[], ran, rfl⟩
  rw [run_invokeHandle found member, run_call_unlimited rfl idle, Run.run_between, executed]
  rfl

end Host

/-! ## Weaves -/

/-- A module and the weave it went through, under settings that pass their checks. -/
structure Weaving where
  module : Module
  settings : Settings
  editorOnly : Bool
  supply : IdSupply
  outcome : WeaveOutcome
  /-- The module after the weave. -/
  result : Module
  rest : IdSupply
  accepted : settings.fault? = none
  ran : module.weave (settings.weaveOptions editorOnly) supply = .ok (outcome, result, rest)
  ended : outcome ≠ .alreadyWoven
  fresh : ∀ report, outcome = .woven report → supply.FreshFor module

namespace Weaving

variable (w : Weaving)

/-- The name of the module's registrar type. -/
def registrar : String := registrarName w.module.name w.settings.registrarName

/-- Whether there was something to weave. -/
def isWoven : Bool :=
  match w.outcome with
  | .woven _ => true
  | _ => false

/-- Whether a host of a mode runs the hook of the registrar. -/
def runs (mode : HostMode) : Bool := w.isWoven && mode.runs (loadHook w.editorOnly)

/-- The types that a host of a mode registers when it loads the module. -/
def registers (mode : HostMode) (kind : EntryKind) : List String :=
  if w.runs mode then w.module.targetNames kind else []

/-- What a host of a mode reports when it has loaded the module. -/
def report (mode : HostMode) : LoadReport :=
  { module := w.module.name
    types := w.result.types.length
    hooksRun := if w.runs mode then 1 else 0
    factories := (w.registers mode .factory).length
    injectors := (w.registers mode .injector).length }

variable {w}

/-- A weave that finds nothing to do leaves the module as it is. -/
lemma result_eq_of_not_isWoven (bare : w.isWoven = false) : w.result = w.module := by
  have ran := w.ran
  have ended := w.ended
  rw [Module.weave] at ran
  split at ran
  · injection ran with ran
    simp only [Prod.mk.injEq] at ran
    exact absurd ran.1.symm ended
  dsimp only at ran
  split at ran
  · injection ran with ran
    simp only [Prod.mk.injEq] at ran
    exact ran.2.1.symm
  obtain ⟨d, -, ran⟩ := exists_of_bind_eq_ok ran
  injection ran with ran
  simp only [Prod.mk.injEq] at ran
  simp [isWoven, ← ran.1] at bare

/-- A module that was woven has its types served and its registrar behind them. -/
lemma exists_served (names : (w.module.types.map (·.name)).Nodup) (woven : w.isWoven = true) :
    ∃ (ids : WeaveIds) (grow : TypeDef → TypeDef), w.result.name = w.module.name ∧
      w.result.types = w.module.types.map grow
        ++ [registrarType ids.registrar w.registrar (bakeMethod ids.bake
          (ids.entries w.module .factory) (ids.entries w.module .injector) w.editorOnly)] ∧
      ∀ t ∈ w.module.types, t.Served ids (grow t) := by
  have ran := w.ran
  have fresh := w.fresh
  unfold isWoven at woven
  split at woven
  next report outcome =>
    rw [outcome] at ran
    exact exists_served_of_weave names (fresh report outcome) ran
  · cases woven

lemma name_result (names : (w.module.types.map (·.name)).Nodup) :
    w.result.name = w.module.name := by
  cases woven : w.isWoven with
  | false => rw [result_eq_of_not_isWoven woven]
  | true =>
    obtain ⟨ids, grow, name, -⟩ := exists_served names woven
    exact name

/-- The names of the types after a weave: those before, and the registrar's. -/
lemma names_result (names : (w.module.types.map (·.name)).Nodup) :
    w.result.types.map (·.name)
      = w.module.types.map (·.name) ++ if w.isWoven then [w.registrar] else [] := by
  cases woven : w.isWoven with
  | false =>
    rw [result_eq_of_not_isWoven woven]
    simp
  | true =>
    obtain ⟨ids, grow, -, types, served⟩ := exists_served names woven
    have same : (w.module.types.map grow).map (·.name) = w.module.types.map (·.name) := by
      rw [List.map_map]
      exact List.map_congr_left fun t ht => (served t ht).name
    rw [types, List.map_append, same]
    rfl

/-! ## Loading one module -/

end Weaving

/-- A served type has the load hooks that it had before. -/
lemma TypeDef.Served.hooksOf_eq_nil {ids : WeaveIds} {t t' : TypeDef} (served : t.Served ids t')
    (none : ∀ x ∈ t.methods, ∀ marker ∈ x.markers, marker.isLoadHook = false) (mode : HostMode) :
    Host.hooksOf mode t'.name t'.methods = .ok [] := by
  refine Host.hooksOf_eq_nil fun x hx marker hmarker => ?_
  rcases served.methods x hx with old | new
  · exact none x old marker hmarker
  · rw [new, List.mem_singleton] at hmarker
    rw [hmarker]
    rfl

namespace Weaving

open Host

variable {w : Weaving} {h : Host}

/-- What is planned when a woven module is loaded: the hook of the registrar, if the host runs hooks
of its kind. -/
lemma exists_plan {ids : WeaveIds} {grow : TypeDef → TypeDef} (mode : HostMode)
    (types : w.result.types = w.module.types.map grow
      ++ [registrarType ids.registrar w.registrar (bakeMethod ids.bake
        (ids.entries w.module .factory) (ids.entries w.module .injector) w.editorOnly)])
    (served : ∀ t ∈ w.module.types, t.Served ids (grow t)) (plain : w.module.NoLoadHooks)
    (distinct : (w.result.types.map (·.name)).Nodup)
    (absent : ∀ t ∈ w.result.types, h.types.find? t.name = none) :
    plan mode h.types [] w.result.types
      = .ok (if mode.runs (loadHook w.editorOnly) then [⟨w.registrar, ids.bake⟩] else []) := by
  -- the registrar is told apart from the other types by its name
  let own : List MethodHandle :=
    if mode.runs (loadHook w.editorOnly) then [⟨w.registrar, ids.bake⟩] else []
  let hooks : TypeDef → List MethodHandle := fun t => if t.name = w.registrar then own else []
  have others : ∀ s ∈ w.module.types.map grow, s.name ≠ w.registrar := by
    rw [types, List.map_append, List.nodup_append] at distinct
    exact fun s hs => distinct.2.2 _ (List.mem_map_of_mem hs) _ List.mem_cons_self
  have hooked : ∀ t ∈ w.result.types, hooksOf mode t.name t.methods = .ok (hooks t) := by
    intro t ht
    rw [types, List.mem_append, List.mem_singleton] at ht
    rcases ht with ht | rfl
    · simp only [hooks, if_neg (others t ht)]
      obtain ⟨s, hs, rfl⟩ := List.mem_map.1 ht
      exact (served s hs).hooksOf_eq_nil (plain s hs) mode
    · exact hooksOf_registrarType mode ids.registrar w.registrar ids.bake
        (ids.entries w.module .factory) (ids.entries w.module .injector) w.editorOnly
        |>.trans (congrArg Except.ok (if_pos rfl).symm)
  rw [plan_eq_ok distinct (fun t ht => ⟨List.not_mem_nil, absent t ht⟩) hooked, types,
    List.flatMap_append, List.flatMap_eq_nil_iff.2 fun s hs => if_neg (others s hs)]
  simp [hooks, own, registrarType]

/-- A host offers what the registrar of a module that it has added refers to. -/
lemma offers_of_served {ids : WeaveIds} {grow : TypeDef → TypeDef} {hooks : List MethodHandle}
    (planned : plan h.config.mode h.types [] w.result.types = .ok hooks)
    (types : w.module.types.map grow ⊆ w.result.types)
    (served : ∀ t ∈ w.module.types, t.Served ids (grow t)) (kind : EntryKind) :
    ∀ s ∈ ids.entries w.module kind, (h.addModule w.result).types.Offers kind s := by
  intro s hs
  obtain ⟨ty, hty, rfl⟩ := List.mem_map.1 hs
  obtain ⟨t, ht, rfl⟩ := List.mem_map.1 hty
  obtain ⟨ht, gets⟩ := List.mem_filter.1 ht
  obtain ⟨visible, x, method, fits⟩ := (served t ht).entry kind gets
  have found := find?_addModule planned (types (List.mem_map_of_mem ht))
  rw [(served t ht).name] at found
  exact ⟨_, x, found, visible, method, fits⟩

lemma map_ty_entries (ids : WeaveIds) (m : Module) (kind : EntryKind) :
    (ids.entries m kind).map (·.ty) = m.targetNames kind := by
  simp [WeaveIds.entries, Function.comp_def]

/-- The hook of a registrar that a host has added registers the targets of its module. -/
lemma run_hook {ids : WeaveIds} {grow : TypeDef → TypeDef} {hooks : List MethodHandle}
    (planned : plan h.config.mode h.types [] w.result.types = .ok hooks)
    (types : w.result.types = w.module.types.map grow
      ++ [registrarType ids.registrar w.registrar (bakeMethod ids.bake
        (ids.entries w.module .factory) (ids.entries w.module .injector) w.editorOnly)])
    (served : ∀ t ∈ w.module.types, t.Served ids (grow t))
    (names : (w.module.types.map (·.name)).Nodup)
    (free : ∀ kind, ∀ ty ∈ w.module.targetNames kind, ty ∉ h.registry.registered kind)
    (idle : h.callDepth < maxCallDepth) :
    (runHooks Engine.unlimited [⟨w.registrar, ids.bake⟩]).run (h.addModule w.result)
      = some (.ok ⟨⟩, (h.addModule w.result).afterBake (ids.entries w.module .factory)
        (ids.entries w.module .injector)) := by
  have last : _ ∈ w.result.types :=
    types ▸ List.mem_append_right _ (List.mem_singleton_self _)
  have baked := run_bake (find?_addModule planned last) rfl idle
    (offers_of_served planned (types ▸ List.subset_append_left _ _) served)
    (fun kind => by rw [map_ty_entries]; exact nodup_targetNames names kind)
    (fun kind s hs => free kind s.ty (map_ty_entries ids w.module kind ▸ List.mem_map_of_mem hs))
  exact Run.run_bind_of_ok baked

/-- A module is loaded if its hooks end well; the report tells what they have added. -/
lemma run_load_of_hooks {hooks : List MethodHandle} {registry : Registry}
    (names : (w.module.types.map (·.name)).Nodup) (new : w.module.name ∉ h.modules)
    (planned : plan h.config.mode h.types [] w.result.types = .ok hooks)
    (hooked : (runHooks Engine.unlimited hooks).run (h.addModule w.result)
      = some (.ok ⟨⟩, { h.addModule w.result with registry }))
    (count : hooks.length = if w.runs h.config.mode then 1 else 0)
    (added : ∀ kind, registry.registered kind
      = h.registry.registered kind ++ w.registers h.config.mode kind) :
    (load w.result).run h
      = some (.ok (w.report h.config.mode), { h.addModule w.result with registry }) := by
  have notLoaded : h.isLoaded w.result.name = false := by
    rw [name_result names, isLoaded]
    simpa using new
  have factories := congrArg List.length (added .factory)
  have injectors := congrArg List.length (added .injector)
  simp only [Registry.registered, List.length_append, List.length_map] at factories injectors
  rw [run_load_eq_ok notLoaded planned hooked]
  simp only [report, name_result names, count, factories, injectors, Nat.add_sub_cancel_left]

/-- A module whose types have names of their own is loaded after its weave: its types are added, and
its targets are registered if the host runs the hook of its registrar. -/
theorem run_load (plain : w.module.NoLoadHooks)
    (names : (w.module.types.map (·.name)).Nodup) (distinct : (w.result.types.map (·.name)).Nodup)
    (new : w.module.name ∉ h.modules) (absent : ∀ t ∈ w.result.types, h.types.find? t.name = none)
    (free : ∀ kind, ∀ ty ∈ w.module.targetNames kind, ty ∉ h.registry.registered kind)
    (idle : h.callDepth < maxCallDepth) :
    ∃ registry : Registry,
      (load w.result).run h = some (.ok (w.report h.config.mode),
        { h.addModule w.result with registry }) ∧
      ∀ kind, registry.registered kind
        = h.registry.registered kind ++ w.registers h.config.mode kind := by
  by_cases runs : w.runs h.config.mode = true
  · obtain ⟨woven, hooked⟩ := Bool.and_eq_true_iff.1 runs
    obtain ⟨ids, grow, name, types, served⟩ := exists_served names woven
    have planned := exists_plan h.config.mode types served plain distinct absent
    rw [if_pos hooked] at planned
    have ran := run_hook planned types served names free idle
    have added : ∀ kind, ((h.addModule w.result).afterBake (ids.entries w.module .factory)
        (ids.entries w.module .injector)).registry.registered kind
          = h.registry.registered kind ++ w.registers h.config.mode kind := by
      intro kind
      rw [registered_afterBake _ (ids.entries w.module), map_ty_entries, registers, if_pos runs]
      rfl
    exact ⟨_, run_load_of_hooks names new planned ran (by simp [runs]) added, added⟩
  · -- no hook runs, so the registry stays as it is
    have planned : plan h.config.mode h.types [] w.result.types = .ok [] := by
      cases woven : w.isWoven with
      | false =>
        have hooked : ∀ t ∈ w.result.types, hooksOf h.config.mode t.name t.methods = .ok [] :=
          fun t ht => hooksOf_eq_nil (plain t (by rwa [result_eq_of_not_isWoven woven] at ht))
        rw [plan_eq_ok distinct (fun t ht => ⟨List.not_mem_nil, absent t ht⟩) hooked,
          List.flatMap_eq_nil_iff.2 fun _ _ => rfl]
      | true =>
        obtain ⟨ids, grow, name, types, served⟩ := exists_served names woven
        rw [Weaving.runs, woven, Bool.true_and] at runs
        rw [exists_plan h.config.mode types served plain distinct absent, if_neg runs]
    have added : ∀ kind, h.registry.registered kind
        = h.registry.registered kind ++ w.registers h.config.mode kind := by
      simp [registers, runs]
    exact ⟨h.registry, run_load_of_hooks names new planned rfl (by simp [runs]) added, added⟩

end Weaving

/-! ## Loading many modules -/

/-- Weaves whose results can share a host: no two modules and no two types have one name, no type has
the name of a registrar, and no module has load hooks of its own. -/
structure Apart (ws : List Weaving) : Prop where
  modules : (ws.map (·.module.name)).Nodup
  types : (ws.flatMap fun w => w.module.types.map (·.name)).Nodup
  registrars : ∀ w ∈ ws, ∀ v ∈ ws, ∀ t ∈ v.module.types, t.name ≠ w.registrar
  plain : ∀ w ∈ ws, w.module.NoLoadHooks

/-- The types of a kind that hosts of a mode register for some modules, sorted. -/
def registeredTypes (ws : List Weaving) (mode : HostMode) (kind : EntryKind) : List String :=
  (ws.flatMap (·.registers mode kind)).mergeSort fun a b => !decide (b < a)

/-- What follows the first occurrence of a separator. -/
lemma eq_of_append_cons {α : Type} {c : α} {l l' r r' : List α} (same : l ++ c :: r = l' ++ c :: r')
    (hl : c ∉ l) (hl' : c ∉ l') : r = r' := by
  induction l generalizing l' with
  | nil =>
    cases l' with
    | nil => exact (List.cons.inj same).2
    | cons a rest => exact absurd (List.cons.inj same).1 (List.ne_of_not_mem_cons hl')
  | cons a rest ih =>
    cases l' with
    | nil => exact absurd (List.cons.inj same).1.symm (List.ne_of_not_mem_cons hl)
    | cons b rest' =>
      exact ih (List.cons.inj same).2 (List.not_mem_of_not_mem_cons hl)
        (List.not_mem_of_not_mem_cons hl')

/-- The checks of settings keep dots out of the simple name of a registrar. -/
lemma Weaving.dot_notMem_registrarName (w : Weaving) : '.' ∉ w.settings.registrarName.toList := by
  intro dot
  have accepted := w.accepted
  unfold Settings.fault? at accepted
  split at accepted
  · cases accepted
  split at accepted
  · cases accepted
  next simple =>
    simp only [Bool.or_eq_true, Bool.not_eq_true', not_or, Bool.not_eq_false, List.all_eq_true]
      at simple
    exact absurd (simple.2 _ dot) (by decide)

lemma Module.targetNames_subset (m : Module) (kind : EntryKind) :
    m.targetNames kind ⊆ m.types.map (·.name) :=
  List.map_subset _ (List.filter_subset_self _)

lemma Weaving.registers_subset (w : Weaving) (mode : HostMode) (kind : EntryKind) :
    w.registers mode kind ⊆ w.module.types.map (·.name) := by
  unfold registers
  split
  · exact w.module.targetNames_subset kind
  · exact List.nil_subset _

/-- Sorting does not depend on the order that names come in. -/
lemma mergeSort_eq_of_perm {l l' : List String} (same : l.Perm l') :
    l.mergeSort (fun a b => !decide (b < a)) = l'.mergeSort fun a b => !decide (b < a) := by
  have order : (fun a b : String => !decide (b < a)) = fun a b => decide (a ≤ b) := by
    funext a b
    simp [← not_lt]
  have sorted : ((l.mergeSort fun a b => decide (a ≤ b)).Perm
      (l'.mergeSort fun a b => decide (a ≤ b))) :=
    (List.mergeSort_perm l _).trans (same.trans (List.mergeSort_perm l' _).symm)
  rw [order]
  exact sorted.eq_of_pairwise' (List.pairwise_mergeSort' (· ≤ ·) l)
    (List.pairwise_mergeSort' (· ≤ ·) l')

/-- The simple name of a registrar has no dots, so registrars of different modules have different
names. -/
lemma Weaving.module_name_eq_of_registrar {w v : Weaving} (same : w.registrar = v.registrar) :
    w.module.name = v.module.name := by
  have chars : ∀ u : Weaving, u.registrar.toList
      = u.module.name.toList ++ '.' :: u.settings.registrarName.toList := by
    intro u
    show (u.module.name ++ "." ++ u.settings.registrarName).toList = _
    simp [String.toList_append]
  -- the last dot ends the name of the module, so the names are read from behind
  have reversed := congrArg (fun s => s.toList.reverse) same
  simp only [chars, List.reverse_append, List.reverse_cons, List.append_assoc,
    List.singleton_append] at reversed
  have names := eq_of_append_cons reversed (by simpa using w.dot_notMem_registrarName)
    (by simpa using v.dot_notMem_registrarName)
  exact String.toList_inj.1 (List.reverse_injective names)

namespace Apart

variable {ws order : List Weaving}

/-- Weaves are apart in any order. -/
lemma perm (apart : Apart ws) (same : order.Perm ws) : Apart order where
  modules := (same.map _).nodup_iff.2 apart.modules
  types := (same.flatMap_right _).nodup_iff.2 apart.types
  registrars w hw v hv := apart.registrars w (same.mem_iff.1 hw) v (same.mem_iff.1 hv)
  plain w hw := apart.plain w (same.mem_iff.1 hw)

/-- The first of some weaves are apart. -/
lemma left (apart : Apart (ws ++ order)) : Apart ws where
  modules := apart.modules.sublist ((List.sublist_append_left ws order).map _)
  types := apart.types.sublist (by
    rw [List.flatMap_append]
    exact List.sublist_append_left _ _)
  registrars w hw v hv :=
    apart.registrars w (List.mem_append_left _ hw) v (List.mem_append_left _ hv)
  plain w hw := apart.plain w (List.mem_append_left _ hw)

lemma names (apart : Apart ws) {w : Weaving} (hw : w ∈ ws) :
    (w.module.types.map (·.name)).Nodup :=
  (List.nodup_flatMap.1 apart.types).1 w hw

/-- The types after the weaves have names of their own as well. -/
lemma results (apart : Apart ws) : (ws.flatMap fun w => w.result.types.map (·.name)).Nodup := by
  have mem_result {w : Weaving} (hw : w ∈ ws) {ty : String}
      (named : ty ∈ w.result.types.map (·.name)) :
      ty ∈ w.module.types.map (·.name) ∨ ty = w.registrar := by
    rw [Weaving.names_result (apart.names hw), List.mem_append] at named
    refine named.imp_right fun last => ?_
    split at last
    · exact List.mem_singleton.1 last
    · exact absurd last List.not_mem_nil
  have other {w v : Weaving} (hw : w ∈ ws) (hv : v ∈ ws) :
      w.registrar ∉ v.module.types.map (·.name) := by
    intro named
    obtain ⟨t, ht, same⟩ := List.mem_map.1 named
    exact apart.registrars w hw v hv t ht same
  refine List.nodup_flatMap.2 ⟨fun w hw => ?_, ?_⟩
  · rw [Weaving.names_result (apart.names hw), List.nodup_append]
    refine ⟨apart.names hw, by split <;> simp, fun ty hty registrar last => ?_⟩
    split at last
    · rw [List.mem_singleton.1 last]
      rintro rfl
      exact other hw hw hty
    · exact absurd last List.not_mem_nil
  · have modules := List.pairwise_map.1 apart.modules
    have types := (List.nodup_flatMap.1 apart.types).2
    refine (modules.and types).imp_of_mem fun {w v} hw hv apart' => ?_
    intro ty own others
    rcases mem_result hw own with own | rfl
    · rcases mem_result hv others with others | rfl
      · exact apart'.2 own others
      · exact other hv hw own
    · rcases mem_result hv others with others | same
      · exact other hw hv others
      · exact apart'.1 (Weaving.module_name_eq_of_registrar same)

end Apart

/-- What a host of a mode is when it has loaded the results of some weaves. -/
structure Catalogued (mode : HostMode) (ws : List Weaving) (h : Host) : Prop where
  config : h.config.mode = mode
  modules : h.modules = ws.map (·.module.name)
  types : h.types.map (·.definition.name) = ws.flatMap fun w => w.result.types.map (·.name)
  registered : ∀ kind, h.registry.registered kind = ws.flatMap (·.registers mode kind)
  idle : h.callDepth = 0

namespace Catalogued

open Host

variable {mode : HostMode} {done ws : List Weaving} {h : Host}

lemma new (config : HostConfig) : Catalogued config.mode [] (Host.new config) where
  config := rfl
  modules := rfl
  types := rfl
  registered kind := by cases kind <;> rfl
  idle := rfl

/-- One module more. -/
lemma run_load {w : Weaving} (loaded : Catalogued mode done h) (apart : Apart (done ++ [w])) :
    ∃ h', (load w.result).run h = some (.ok (w.report mode), h') ∧
      Catalogued mode (done ++ [w]) h' := by
  have hw : w ∈ done ++ [w] := List.mem_append_right _ (List.mem_singleton_self w)
  have modules := apart.modules
  have types := apart.types
  have results := apart.results
  simp only [List.map_append, List.flatMap_append, List.map_singleton, List.flatMap_singleton,
    List.nodup_append] at modules types results
  have new : w.module.name ∉ h.modules := by
    rw [loaded.modules]
    exact fun old => modules.2.2 _ old _ List.mem_cons_self rfl
  have absent : ∀ t ∈ w.result.types, h.types.find? t.name = none := by
    intro t ht
    have fresh : t.name ∉ h.types.map (·.definition.name) := by
      rw [loaded.types]
      exact fun old => results.2.2 _ old _ (List.mem_map_of_mem ht) rfl
    simpa [Universe.find?, List.find?_eq_none] using fresh
  have free : ∀ kind, ∀ ty ∈ w.module.targetNames kind, ty ∉ h.registry.registered kind := by
    intro kind ty hty old
    rw [loaded.registered, List.mem_flatMap] at old
    obtain ⟨v, hv, old⟩ := old
    exact types.2.2 _ (List.mem_flatMap.2 ⟨v, hv, v.registers_subset mode kind old⟩) _
      (w.module.targetNames_subset kind hty) rfl
  obtain ⟨registry, run, registered⟩ := Weaving.run_load (apart.plain w hw) (apart.names hw)
    results.2.1 new absent free (by rw [loaded.idle]; decide)
  rw [loaded.config] at run registered
  refine ⟨_, run, loaded.config, ?_, ?_, fun kind => ?_, loaded.idle⟩
  · simp [addModule, loaded.modules, Weaving.name_result (apart.names hw)]
  · simp [addModule, loaded.types, Function.comp_def]
  · simp [registered, loaded.registered]

/-- Many modules more. -/
lemma run_mapM (loaded : Catalogued mode done h) (apart : Apart (done ++ ws)) :
    ∃ h', (ws.mapM fun w => load w.result).run h = some (.ok (ws.map (·.report mode)), h') ∧
      Catalogued mode (done ++ ws) h' := by
  induction ws generalizing done h with
  | nil => exact ⟨h, rfl, by rwa [List.append_nil]⟩
  | cons w rest ih =>
    rw [← List.singleton_append, ← List.append_assoc] at apart
    obtain ⟨h₁, first, loaded₁⟩ := loaded.run_load apart.left
    obtain ⟨h₂, later, loaded₂⟩ := ih loaded₁ apart
    refine ⟨h₂, ?_, by simpa using loaded₂⟩
    rw [List.mapM_cons, Run.run_bind_of_ok first, Run.run_bind_of_ok later]
    rfl

end Catalogued

/-- Woven modules are loaded into a new host in any order, and the order makes no difference to what
is registered: exactly the types whose markers ask for an entry, for the modules whose hooks the
host runs. -/
theorem exists_loaded_of_apart {ws order : List Weaving} (apart : Apart ws) (same : order.Perm ws)
    (config : HostConfig) :
    ∃ h, (order.mapM fun w => Host.load w.result).run (Host.new config)
        = some (.ok (order.map (·.report config.mode)), h) ∧
      h.registry.factories.sortedTypes = registeredTypes ws config.mode .factory ∧
      h.registry.injectors.sortedTypes = registeredTypes ws config.mode .injector := by
  obtain ⟨h, run, loaded⟩ := (Catalogued.new config).run_mapM (apart.perm same)
  have sorted : ∀ kind, (h.registry.registered kind).mergeSort (fun a b => !decide (b < a))
      = registeredTypes ws config.mode kind := by
    intro kind
    rw [loaded.registered]
    exact mergeSort_eq_of_perm (same.flatMap_right _)
  exact ⟨h, run, sorted .factory, sorted .injector⟩

/-! ### An example -/

/-- The weave of the lamp. -/
def lampWeaving : Weaving where
  module := lamp
  settings := {}
  editorOnly := false
  supply := lampIds
  outcome := _
  result := _
  rest := _
  accepted := by decide +kernel
  ran := rfl
  ended := nofun
  fresh _ _ := ⟨by decide +kernel, by decide +kernel⟩

/-- A module for editors, with one class that has a marked constructor. -/
def bench : Module :=
  { name := "Bench"
    types :=
      [{ TypeDef.newClass (Uuid.numbered 20) "Bench.Vice" with
          constructors := [((Method.newConstructor (Uuid.numbered 21)).mark .inject).addInstr .ret] }] }

/-- The weave of the bench. -/
def benchWeaving : Weaving where
  module := bench
  settings := { registrarName := "Setup" }
  editorOnly := true
  supply := lampIds
  outcome := _
  result := _
  rest := _
  accepted := by decide +kernel
  ran := rfl
  ended := nofun
  fresh _ _ := ⟨by decide +kernel, by decide +kernel⟩

lemma apart_lampWeaving_benchWeaving : Apart [lampWeaving, benchWeaving] where
  modules := by decide
  types := by decide
  registrars := by decide
  plain := by decide

/-- A player that loads the bench before the lamp. -/
theorem exists_loaded_bench_lamp :
    (Apart [lampWeaving, benchWeaving] ∧
      [benchWeaving, lampWeaving].Perm [lampWeaving, benchWeaving]) ∧
    ∃ h, ([benchWeaving, lampWeaving].mapM fun w => Host.load w.result).run (Host.new {})
        = some (.ok ([benchWeaving, lampWeaving].map (·.report .player)), h) ∧
      h.registry.factories.sortedTypes
        = registeredTypes [lampWeaving, benchWeaving] .player .factory ∧
      h.registry.injectors.sortedTypes
        = registeredTypes [lampWeaving, benchWeaving] .player .injector :=
  ⟨⟨apart_lampWeaving_benchWeaving, .swap ..⟩,
    exists_loaded_of_apart apart_lampWeaving_benchWeaving (.swap ..) {}⟩

/-- In a player, the hook of the bench does not run. -/
example : [benchWeaving, lampWeaving].map (·.report .player)
    = [⟨"Bench", 2, 0, 0, 0⟩, ⟨"Lamp", 4, 1, 2, 1⟩] := by decide +kernel

end Weaver
