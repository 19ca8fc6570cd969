import Weaver.Module.Build
import Weaver.Proofs.Engine.Seclusion
import Weaver.Proofs.Host.Evolution

/-!
# The filing of types

Whatever embedding code does with a host, and however that ends, modules are loaded under different
names, and each type is found under its own name, in the module that declares it, for good. A module
that would break this is refused, and so is one with a method that is to run at load time and cannot.
Nothing is changed then. Load hooks cannot raise the error of a refused module themselves.

Three things live here:

* `Host.Refuses`, what speaks against a module, and `Host.exists_plan_iff`, by which a plan is made
  if nothing does;
* `Host.Filed`, which every sequence of operations keeps;
* `Host.orderly`, types and modules at any time, and when loading is refused.
-/

namespace Weaver

/-- A method that is marked to run at load time but cannot: it is not static or has parameters. -/
def Method.MisshapenHook (m : Method) : Prop :=
  (∃ marker ∈ m.markers, marker.isLoadHook) ∧ (m.isStatic = false ∨ m.params ≠ [])

namespace Host

variable {h h' : Host} {m : Module}

/-! ## What speaks against a module -/

/-- What speaks against loading a module. -/
def Refuses (h : Host) (m : Module) : Prop :=
  m.name ∈ h.modules ∨
  ¬(m.types.map (·.name)).Nodup ∨
  (∃ t ∈ m.types, (h.types.find? t.name).isSome) ∨
  ∃ t ∈ m.types, ∃ method ∈ t.methods, method.MisshapenHook

/-- The hooks of a type are listed if no method is a misshapen hook, whatever the mode runs. -/
lemma exists_hooksOf_iff {mode : HostMode} {ty : String} {methods : List Method} :
    (∃ hooks, hooksOf mode ty methods = .ok hooks) ↔ ∀ method ∈ methods, ¬method.MisshapenHook := by
  induction methods with
  | nil => exact ⟨fun _ _ member => absurd member List.not_mem_nil, fun _ => ⟨[], rfl⟩⟩
  | cons method rest ih =>
    rw [List.forall_mem_cons, ← ih, hooksOf]
    cases first : method.markers.find? Marker.isLoadHook with
    | none =>
      have unmarked : ¬method.MisshapenHook := by
        rintro ⟨⟨marker, member, marked⟩, -⟩
        exact List.find?_eq_none.1 first marker member marked
      exact ⟨fun listed => ⟨unmarked, listed⟩, And.right⟩
    | some hook =>
      have marked : ∃ marker ∈ method.markers, marker.isLoadHook :=
        ⟨hook, List.mem_of_find?_eq_some first, List.find?_some first⟩
      have shape : (!method.isStatic || !method.params.isEmpty) = true ↔ method.MisshapenHook := by
        simp [Method.MisshapenHook, marked]
      dsimp only
      by_cases misshapen : method.MisshapenHook
      · rw [if_pos (shape.2 misshapen)]
        refine ⟨?_, fun listed => absurd misshapen listed.1⟩
        rintro ⟨hooks, listed⟩
        cases listed
      · rw [if_neg (mt shape.1 misshapen)]
        constructor
        · rintro ⟨hooks, listed⟩
          obtain ⟨later, listed, -⟩ := exists_of_bind_eq_ok listed
          exact ⟨misshapen, later, listed⟩
        · rintro ⟨-, later, listed⟩
          rw [listed]
          exact ⟨_, rfl⟩

/-- In a plan, the hooks of every type are listed. -/
lemma exists_hooksOf_of_plan {mode : HostMode} {loaded : Universe} {seen : List String}
    {types : List TypeDef} {hooks : List MethodHandle}
    (planned : plan mode loaded seen types = .ok hooks) :
    ∀ t ∈ types, ∃ own, hooksOf mode t.name t.methods = .ok own := by
  induction types generalizing seen hooks with
  | nil => exact fun _ member => absurd member List.not_mem_nil
  | cons t rest ih =>
    rw [plan] at planned
    split at planned
    · cases planned
    · obtain ⟨own, listed, planned⟩ := exists_of_bind_eq_ok planned
      obtain ⟨more, planned, -⟩ := exists_of_bind_eq_ok planned
      exact List.forall_mem_cons.2 ⟨⟨own, listed⟩, ih planned⟩

/-- When a plan is made for the types of a module. -/
lemma exists_plan_iff {mode : HostMode} {loaded : Universe} {types : List TypeDef} :
    (∃ hooks, plan mode loaded [] types = .ok hooks) ↔
      (types.map (·.name)).Nodup ∧ (∀ t ∈ types, loaded.find? t.name = none) ∧
        ∀ t ∈ types, ∀ method ∈ t.methods, ¬method.MisshapenHook := by
  constructor
  · rintro ⟨hooks, planned⟩
    obtain ⟨distinct, apart⟩ := names_of_plan planned
    refine ⟨distinct, fun t member => (apart t member).2, fun t member => ?_⟩
    exact exists_hooksOf_iff.1 (exists_hooksOf_of_plan planned t member)
  · rintro ⟨distinct, apart, shaped⟩
    have listed : ∀ t ∈ types, hooksOf mode t.name t.methods
        = .ok ((hooksOf mode t.name t.methods).toOption.getD []) := by
      intro t member
      obtain ⟨own, listed⟩ : ∃ own, hooksOf mode t.name t.methods = .ok own :=
        exists_hooksOf_iff.2 (shaped t member)
      rw [listed]
      rfl
    exact ⟨_, plan_eq_ok distinct (fun t member => ⟨List.not_mem_nil, apart t member⟩) listed⟩

/-- A module is not refused if it is new and a plan is made for it. -/
lemma not_refuses_iff : ¬h.Refuses m ↔
    h.isLoaded m.name = false ∧ ∃ hooks, plan h.config.mode h.types [] m.types = .ok hooks := by
  have new : h.isLoaded m.name = false ↔ m.name ∉ h.modules := by
    rw [isLoaded, List.contains_eq_mem, decide_eq_false_iff_not]
  rw [new, exists_plan_iff, Refuses, not_or, not_or, not_or, not_not]
  simp only [not_exists, not_and, Option.not_isSome_iff_eq_none]

/-! ## The outcome of loading -/

/-- What speaks against a module makes loading fail for that reason, and nothing happens. -/
lemma run_load_of_refuses (refuses : h.Refuses m) :
    ∃ fault, (load m).run h = some (.error (.load m.name fault), h) := by
  cases loaded : h.isLoaded m.name with
  | true =>
    refine ⟨.alreadyLoaded, ?_⟩
    rw [load, Run.run_get_bind, if_pos loaded]
    rfl
  | false =>
    cases planned : plan h.config.mode h.types [] m.types with
    | error fault =>
      refine ⟨fault, ?_⟩
      rw [load, Run.run_get_bind, if_neg (by simp [loaded]), planned]
      rfl
    | ok hooks => exact absurd refuses (not_refuses_iff.2 ⟨loaded, hooks, planned⟩)

/-- The error of a refused module is raised for a module that is refused, and for no other. -/
lemma refuses_of_run_load {module : String} {fault : LoadFault}
    (run : (load m).run h = some (.error (.load module fault), h')) : h.Refuses m := by
  by_contra accepted
  obtain ⟨new, hooks, planned⟩ := not_refuses_iff.1 accepted
  obtain ⟨r, h₁, hooked, -, report, ended⟩ := run_load_of_planned new planned
  rw [ended] at run
  cases r with
  | ok _ => cases run
  | error e =>
    cases run
    exact (Engine.secluded_of_runHooks hooked).2 _ rfl ⟨module, fault, rfl⟩

/-! ## Types and modules at any time -/

/-- Modules have different names, and every type is found under its own name, in a loaded module. -/
structure Filed (h : Host) : Prop where
  modules : h.modules.Nodup
  types : ∀ t ∈ h.types, h.types.find? t.definition.name = some t
  declared : ∀ t ∈ h.types, t.module ∈ h.modules

lemma filed_new (config : HostConfig) : (Host.new config).Filed where
  modules := List.nodup_nil
  types _ member := absurd member List.not_mem_nil
  declared _ member := absurd member List.not_mem_nil

lemma Filed.steady (filed : h.Filed) (steady : Steady h h') : h'.Filed where
  modules := by
    rw [steady.modules]
    exact filed.modules
  types := by
    rw [steady.types]
    exact filed.types
  declared := by
    rw [steady.types, steady.modules]
    exact filed.declared

lemma Filed.addModule {hooks : List MethodHandle} (filed : h.Filed)
    (new : h.isLoaded m.name = false)
    (planned : plan h.config.mode h.types [] m.types = .ok hooks) : (h.addModule m).Filed := by
  refine ⟨?_, fun t member => ?_, fun t member => ?_⟩
  · refine List.nodup_append.2 ⟨filed.modules, List.nodup_singleton _, fun a loaded b own => ?_⟩
    rintro rfl
    rw [List.mem_singleton.1 own] at loaded
    rw [isLoaded, List.contains_eq_mem, decide_eq_false_iff_not] at new
    exact new loaded
  · rcases List.mem_append.1 member with old | added
    · exact find?_of_prefix (List.prefix_append _ _) (filed.types t old)
    · obtain ⟨definition, declared, rfl⟩ := List.mem_map.1 added
      exact find?_addModule planned declared
  · rcases List.mem_append.1 member with old | added
    · exact List.mem_append_left _ (filed.declared t old)
    · obtain ⟨definition, -, rfl⟩ := List.mem_map.1 added
      exact List.mem_append_right _ (List.mem_singleton.2 rfl)

lemma Evolves.filed (evolves : Evolves h h') (filed : h.Filed) : h'.Filed :=
  Evolves.keeps (fun steady filed => filed.steady steady)
    (fun new planned filed => filed.addModule new planned) evolves filed

/-- What is true of types, modules and loading at any time. -/
structure Orderly (h : Host) : Prop where
  filed : h.Filed
  /-- Operations lead on to states of the same kind, whatever they end in. -/
  leads {op : Operation} {r : Except HostError Unit} {h' : Host} :
    op.perform.run h = some (r, h') → h.Evolves h'
  /-- A type that is found stays the type that is found, in the same module. -/
  stays {h' : Host} {ty : String} {t : LoadedType} :
    h.Evolves h' → h.types.find? ty = some t → h'.types.find? ty = some t
  /-- Loading comes to an end. -/
  ends (m : Module) : ∃ r h', (load m).run h = some (r, h')
  /-- It ends with the error of a refused module exactly if something speaks against the module. -/
  refused_iff (m : Module) :
    (∃ module fault h', (load m).run h = some (.error (.load module fault), h')) ↔ h.Refuses m
  /-- That error names the module, and nothing is changed. -/
  unchanged {m : Module} {module : String} {fault : LoadFault} {h' : Host} :
    (load m).run h = some (.error (.load module fault), h') → module = m.name ∧ h' = h

/-- Types and modules are in order at any time in the life of a host, in the middle of its runs
included, whatever operations embedding code performs and whatever they end in. -/
theorem orderly {config : HostConfig} (evolves : (Host.new config).Evolves h) : h.Orderly where
  filed := evolves.filed (filed_new config)
  leads run := Operation.evolves run
  stays evolves found := evolves.find?_types found
  ends m := by
    rcases run_load m h with ⟨e, run⟩ | ⟨hooks, -, -, r, h', -, -, report, run⟩
    · exact ⟨_, _, run⟩
    · exact ⟨_, _, run⟩
  refused_iff m := by
    refine ⟨fun ⟨module, fault, h', run⟩ => refuses_of_run_load run, fun refuses => ?_⟩
    obtain ⟨fault, run⟩ := run_load_of_refuses refuses
    exact ⟨m.name, fault, h, run⟩
  unchanged {m module fault h'} run := by
    obtain ⟨fault', refused⟩ := run_load_of_refuses (refuses_of_run_load run)
    rw [run] at refused
    injection refused with refused
    injection refused with outcome same
    injection outcome with outcome
    injection outcome with named
    exact ⟨named, same⟩

/-- A class whose load hook takes from an empty stack. -/
def faulty : Module :=
  { name := "Faulty"
    types :=
      [TypeDef.addMethod (TypeDef.newClass (Uuid.numbered 1) "Faulty.Start")
        (((Method.newStatic (Uuid.numbered 2) "Begin").mark .runtimeLoadHook).addInstr .pop)] }

/-- The hook fails, the type stays, and the module is refused when it is loaded again. -/
theorem orderly_faulty :
    ∃ e h, (Operation.load faulty).perform.run (Host.new {}) = some (.error e, h) ∧
      (Host.new {}).Evolves h ∧ h.Orderly ∧ h.modules = ["Faulty"] ∧ h.Refuses faulty := by
  obtain ⟨e, h, run, loaded⟩ : ∃ e h,
      (Operation.load faulty).perform.run (Host.new {}) = some (.error e, h) ∧
        h.modules = ["Faulty"] :=
    ⟨_, _, rfl, rfl⟩
  have evolves : (Host.new {}).Evolves h := Operation.evolves run
  refine ⟨e, h, run, evolves, orderly evolves, loaded, .inl ?_⟩
  rw [loaded]
  exact List.mem_singleton.2 rfl

end Host
end Weaver
