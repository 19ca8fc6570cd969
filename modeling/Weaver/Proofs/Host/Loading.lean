import Weaver.Proofs.Engine.Levels
import Weaver.Proofs.Host.Reach

/-!
# Loading modules

Loading plans first and acts afterwards: a module whose types clash with each other or with loaded
ones, or whose hooks have the wrong shape, is refused before anything changes.

Three things live here:

* `Host.run_load`, the outcome of loading in terms of the plan and of the hooks that run;
* `Host.plan_eq_ok` and `Host.run_load_eq_ok`, by which nothing else can stand in the way of a module;
* `Host.find?_addModule`, by which a planned module's types are all found by their names.
-/

namespace Weaver
namespace Host

/-! ## The outcome of loading -/

/-- A new module with a plan has its types added and its hooks run, and loading ends as they do. -/
lemma run_load_of_planned {m : Module} {h : Host} {hooks : List MethodHandle}
    (new : h.isLoaded m.name = false)
    (planned : plan h.config.mode h.types [] m.types = .ok hooks) :
    ∃ r h', (runHooks Engine.unlimited hooks).run (h.addModule m) = some (r, h') ∧
      History (h.addModule m) h' ∧
      ∃ report, (load m).run h = some (r.map fun _ => report, h') := by
  obtain ⟨r, h', run, history⟩ := Engine.history_of_unlimited
    (fun e => runHooks e hooks) (fun agree => agree.runHooks hooks) (h.addModule m)
  refine ⟨r, h', run, history, ?_⟩
  rw [← Engine.withEngine_eq _ fun agree => agree.runHooks hooks] at run
  rw [load, Run.run_get_bind, if_neg (by simp [new]), planned]
  dsimp only
  rw [Run.run_modify_bind, Run.run_get_bind]
  cases r with
  | error e => exact ⟨⟨m.name, 0, 0, 0, 0⟩, Run.run_bind_of_error run⟩
  | ok _ => exact ⟨_, Run.run_bind_of_ok run⟩

/-- What loading a module does: it adds the types and runs the hooks that were planned, or refuses
the module. -/
lemma run_load (m : Module) (h : Host) :
    (∃ e, (load m).run h = some (.error e, h)) ∨
    ∃ hooks, h.isLoaded m.name = false ∧ plan h.config.mode h.types [] m.types = .ok hooks ∧
      ∃ r h', (runHooks Engine.unlimited hooks).run (h.addModule m) = some (r, h') ∧
        History (h.addModule m) h' ∧
        ∃ report, (load m).run h = some (r.map fun _ => report, h') := by
  cases loaded : h.isLoaded m.name with
  | true =>
    refine .inl ⟨.load m.name .alreadyLoaded, ?_⟩
    rw [load, Run.run_get_bind, if_pos loaded]
    rfl
  | false =>
  cases planned : plan h.config.mode h.types [] m.types with
  | error fault =>
    refine .inl ⟨.load m.name fault, ?_⟩
    rw [load, Run.run_get_bind, if_neg (by simp [loaded]), planned]
    rfl
  | ok hooks => exact .inr ⟨hooks, rfl, rfl, run_load_of_planned loaded planned⟩

/-- A module that is loaded was planned, and its hooks ended well. -/
lemma exists_hooks_of_load {m : Module} {h h' : Host} {report : LoadReport}
    (run : (load m).run h = some (.ok report, h')) :
    ∃ hooks, plan h.config.mode h.types [] m.types = .ok hooks ∧
      (runHooks Engine.unlimited hooks).run (h.addModule m) = some (.ok ⟨⟩, h') ∧
      History (h.addModule m) h' := by
  rcases run_load m h with ⟨e, refused⟩ | ⟨hooks, -, planned, r, h'', hooked, history, _, loaded⟩
  · rw [refused] at run
    cases run
  · rw [loaded] at run
    cases r with
    | error e => cases run
    | ok _ =>
      cases run
      exact ⟨hooks, planned, hooked, history⟩

/-- A new module whose hooks end well is loaded. The report counts what the hooks have added to the
registry. -/
lemma run_load_eq_ok {m : Module} {h h' : Host} {hooks : List MethodHandle}
    (new : h.isLoaded m.name = false)
    (planned : plan h.config.mode h.types [] m.types = .ok hooks)
    (hooked : (runHooks Engine.unlimited hooks).run (h.addModule m) = some (.ok ⟨⟩, h')) :
    (load m).run h = some (.ok
      { module := m.name
        types := m.types.length
        hooksRun := hooks.length
        factories := h'.registry.factories.length - h.registry.factories.length
        injectors := h'.registry.injectors.length - h.registry.injectors.length }, h') := by
  rw [← Engine.withEngine_eq _ fun agree => agree.runHooks hooks] at hooked
  rw [load, Run.run_get_bind, if_neg (by simp [new]), planned]
  dsimp only
  rw [Run.run_modify_bind, Run.run_get_bind]
  exact Run.run_bind_of_ok hooked

/-- A host reaches the state in which it has loaded a module, or has failed to. -/
theorem Reaches.of_load {m : Module} {h h' : Host} {r : Except HostError LoadReport}
    (run : (load m).run h = some (r, h')) : Reaches h h' := by
  rcases run_load m h with ⟨e, refused⟩ | ⟨hooks, -, planned, r', h'', -, history, report, loaded⟩
  · rw [refused] at run
    cases run
    exact .refl h
  · rw [loaded] at run
    cases run
    exact (step (.addModule planned)).trans (of_history history)

/-! ## The types of a planned module -/

/-- A plan exists for types with names of their own whose load hooks are as they should be. -/
lemma plan_eq_ok {mode : HostMode} {loaded : Universe} {seen : List String} {types : List TypeDef}
    {hooks : TypeDef → List MethodHandle} (distinct : (types.map (·.name)).Nodup)
    (apart : ∀ t ∈ types, t.name ∉ seen ∧ loaded.find? t.name = none)
    (hooked : ∀ t ∈ types, hooksOf mode t.name t.methods = .ok (hooks t)) :
    plan mode loaded seen types = .ok (types.flatMap hooks) := by
  induction types generalizing seen with
  | nil => rfl
  | cons t rest ih =>
    rw [List.map_cons, List.nodup_cons] at distinct
    have fresh := apart t List.mem_cons_self
    have later : plan mode loaded (t.name :: seen) rest = .ok (rest.flatMap hooks) := ih distinct.2
      (fun s hs => by
        refine ⟨fun seen => ?_, (apart s (List.mem_cons_of_mem _ hs)).2⟩
        rcases List.mem_cons.1 seen with same | seen
        · exact distinct.1 (same ▸ List.mem_map_of_mem hs)
        · exact (apart s (List.mem_cons_of_mem _ hs)).1 seen)
      fun s hs => hooked s (List.mem_cons_of_mem _ hs)
    rw [plan, if_neg (by simp [fresh.1, fresh.2]), hooked t List.mem_cons_self, later]
    rfl

/-- A plan exists only for types with names of their own. -/
lemma names_of_plan {mode : HostMode} {loaded : Universe} {seen : List String}
    {types : List TypeDef} {hooks : List MethodHandle}
    (planned : plan mode loaded seen types = .ok hooks) :
    (types.map (·.name)).Nodup ∧ ∀ t ∈ types, t.name ∉ seen ∧ loaded.find? t.name = none := by
  induction types generalizing seen hooks with
  | nil => simp
  | cons t rest ih =>
    rw [plan] at planned
    split at planned
    · cases planned
    next fresh =>
      obtain ⟨own, hooked, planned⟩ := exists_of_bind_eq_ok planned
      obtain ⟨more, planned, -⟩ := exists_of_bind_eq_ok planned
      obtain ⟨distinct, apart⟩ := ih planned
      simp only [Bool.or_eq_true, List.contains_eq_mem, decide_eq_true_eq, not_or,
        Option.not_isSome_iff_eq_none] at fresh
      refine ⟨?_, fun s hs => ?_⟩
      · rw [List.map_cons, List.nodup_cons, List.mem_map]
        refine ⟨?_, distinct⟩
        rintro ⟨s, hs, same⟩
        exact (apart s hs).1 (by rw [same]; exact List.mem_cons_self)
      · rcases List.mem_cons.1 hs with rfl | hs
        · exact fresh
        · exact ⟨fun seen => (apart s hs).1 (List.mem_cons_of_mem _ seen), (apart s hs).2⟩

/-- The types of a planned module are found by their names. -/
theorem find?_addModule {m : Module} {h : Host} {hooks : List MethodHandle} {t : TypeDef}
    (planned : plan h.config.mode h.types [] m.types = .ok hooks) (member : t ∈ m.types) :
    (h.addModule m).types.find? t.name = some ⟨m.name, t⟩ := by
  obtain ⟨distinct, apart⟩ := names_of_plan planned
  have own := find?_key_of_mem TypeDef.name distinct member
  rw [Universe.find?, addModule, List.find?_append, ← Universe.find?, (apart t member).2,
    Option.none_or, List.find?_map]
  show (m.types.find? (·.name == t.name)).map _ = _
  rw [own]
  rfl

end Host
end Weaver
