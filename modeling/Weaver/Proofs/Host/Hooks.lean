import Weaver.Module.Build
import Weaver.Proofs.Host.Loading

/-!
# Load hooks

A static method is a hook of a mode if one of its markers makes it run in that mode, and loading a
module is to run every hook of the host's mode. But loading looks at the first load marker of a
method only, so a player passes over a method that is marked for editors before it is marked for all
hosts.

Three things live here:

* `Host.eq_of_plan`, the hooks that a load plans, and `Host.run_runHooks`, by which running them is
  calling the planned methods, each once and in the order of the tables;
* `Method.startsIn_eq`, where the first load marker of a method decides as all of them together;
* `Host.invokes_of_load`, what a load calls, and when this is what it should call.
-/

namespace Weaver

/-! ## Methods that run -/

/-- Whether a mode runs a method at load time: one of the markers of a static method says so. -/
def Method.isHookIn (mode : HostMode) (m : Method) : Bool :=
  m.isStatic && m.markers.any mode.runs

/-- Whether a load calls a method: the first load marker of a static method says so. -/
def Method.startsIn (mode : HostMode) (m : Method) : Bool :=
  m.isStatic && (m.markers.find? Marker.isLoadHook).any mode.runs

/-- The entries of the method tables of a module, each with its type, in the order of the types. -/
def Module.declaredMethods (m : Module) : List (TypeDef × Method) :=
  m.types.flatMap fun t => t.methods.map fun method => (t, method)

/-- The entries of the method tables that a mode runs at load time. -/
def Module.hooksIn (m : Module) (mode : HostMode) : List (TypeDef × Method) :=
  m.declaredMethods.filter fun entry => entry.2.isHookIn mode

/-- The entries of the method tables that a load calls. -/
def Module.startsIn (m : Module) (mode : HostMode) : List (TypeDef × Method) :=
  m.declaredMethods.filter fun entry => entry.2.startsIn mode

lemma Module.mem_declaredMethods {m : Module} {entry : TypeDef × Method} :
    entry ∈ m.declaredMethods ↔ entry.1 ∈ m.types ∧ entry.2 ∈ entry.1.methods := by
  rw [declaredMethods, List.mem_flatMap]
  constructor
  · rintro ⟨t, declared, member⟩
    obtain ⟨method, listed, rfl⟩ := List.mem_map.1 member
    exact ⟨declared, listed⟩
  · rintro ⟨declared, member⟩
    exact ⟨entry.1, declared, List.mem_map.2 ⟨entry.2, member, rfl⟩⟩

/-! ### The first load marker -/

/-- Only load markers make a method run. -/
lemma HostMode.isLoadHook_of_runs {mode : HostMode} {marker : Marker} (runs : mode.runs marker) :
    marker.isLoadHook := by
  cases marker with
  | editorLoadHook | runtimeLoadHook => rfl
  | inject | custom => cases runs

/-- A player runs the hooks for all hosts. -/
lemma HostMode.runs_player {marker : Marker} :
    HostMode.player.runs marker = true ↔ marker = .runtimeLoadHook := by
  cases marker <;> simp [HostMode.runs]

/-- An editor runs all hooks. -/
lemma HostMode.runs_editor (marker : Marker) :
    HostMode.editor.runs marker = marker.isLoadHook := by
  cases marker <;> rfl

lemma Method.isHookIn_iff {mode : HostMode} {m : Method} :
    m.isHookIn mode ↔ m.isStatic ∧ ∃ marker ∈ m.markers, mode.runs marker := by
  rw [isHookIn, Bool.and_eq_true, List.any_eq_true]

lemma Method.startsIn_iff {mode : HostMode} {m : Method} :
    m.startsIn mode ↔ m.isStatic ∧
      ∃ marker, m.markers.find? Marker.isLoadHook = some marker ∧ mode.runs marker := by
  rw [startsIn, Bool.and_eq_true, Option.any_eq_true]

/-- What a load calls is a hook of the mode. -/
lemma Method.isHookIn_of_startsIn {mode : HostMode} {m : Method} (starts : m.startsIn mode) :
    m.isHookIn mode := by
  obtain ⟨isStatic, marker, first, runs⟩ := startsIn_iff.1 starts
  exact isHookIn_iff.2 ⟨isStatic, marker, List.mem_of_find?_eq_some first, runs⟩

/-- A static method that is marked for all hosts has that marker as its first load marker, if the
mode is the player's. -/
def Method.LeadsIn (mode : HostMode) (m : Method) : Prop :=
  mode = .player → m.isStatic → Marker.runtimeLoadHook ∈ m.markers →
    m.markers.find? Marker.isLoadHook = some .runtimeLoadHook

/-- The first load marker decides as all markers together exactly where the marker for all hosts
leads. -/
lemma Method.startsIn_of_isHookIn_iff {mode : HostMode} {m : Method} :
    (m.isHookIn mode → m.startsIn mode) ↔ m.LeadsIn mode := by
  cases mode with
  | editor =>
    refine ⟨fun _ player => (nomatch player), fun _ hook => ?_⟩
    obtain ⟨isStatic, marker, member, runs⟩ := isHookIn_iff.1 hook
    have found : (m.markers.find? Marker.isLoadHook).isSome :=
      List.find?_isSome.2 ⟨marker, member, HostMode.isLoadHook_of_runs runs⟩
    obtain ⟨first, found⟩ := Option.isSome_iff_exists.1 found
    have loads : first.isLoadHook := List.find?_some found
    exact startsIn_iff.2 ⟨isStatic, first, found, (HostMode.runs_editor first).trans loads⟩
  | player =>
    constructor
    · intro starts _ isStatic member
      have hook : m.isHookIn .player := isHookIn_iff.2 ⟨isStatic, .runtimeLoadHook, member, rfl⟩
      obtain ⟨-, first, found, runs⟩ := startsIn_iff.1 (starts hook)
      rw [HostMode.runs_player.1 runs] at found
      exact found
    · intro leads hook
      obtain ⟨isStatic, marker, member, runs⟩ := isHookIn_iff.1 hook
      have same : marker = .runtimeLoadHook := HostMode.runs_player.1 runs
      subst same
      exact startsIn_iff.2 ⟨isStatic, .runtimeLoadHook, leads rfl isStatic member, rfl⟩

/-- A load calls as many methods as the mode has hooks only if it calls all of them. -/
lemma Module.startsIn_eq_hooksIn {m : Module} {mode : HostMode}
    (count : (m.startsIn mode).length = (m.hooksIn mode).length) :
    ∀ t ∈ m.types, ∀ method ∈ t.methods, method.LeadsIn mode := by
  have narrowed : m.startsIn mode = (m.hooksIn mode).filter fun entry => entry.2.startsIn mode := by
    rw [startsIn, hooksIn, List.filter_filter]
    refine List.filter_congr fun entry _ => ?_
    cases starts : entry.2.startsIn mode with
    | true => simp [Method.isHookIn_of_startsIn starts]
    | false => rfl
  rw [narrowed] at count
  have all := List.length_filter_eq_length_iff.1 count
  intro t declared method member
  refine Method.startsIn_of_isHookIn_iff.1 fun hook => all (t, method) ?_
  exact List.mem_filter.2 ⟨mem_declaredMethods.2 ⟨declared, member⟩, hook⟩

/-- Where the marker for all hosts leads, a load calls the hooks of the mode. -/
lemma Module.hooksIn_eq_startsIn {m : Module} {mode : HostMode}
    (leads : ∀ t ∈ m.types, ∀ method ∈ t.methods, method.LeadsIn mode) :
    m.hooksIn mode = m.startsIn mode := by
  refine List.filter_congr fun entry member => ?_
  obtain ⟨declared, member⟩ := mem_declaredMethods.1 member
  rw [Bool.eq_iff_iff]
  exact ⟨Method.startsIn_of_isHookIn_iff.2 (leads _ declared _ member),
    Method.isHookIn_of_startsIn⟩

namespace Host

/-! ## The planned hooks -/

/-- The handle of an entry of a method table. -/
def handleOf (entry : TypeDef × Method) : MethodHandle :=
  ⟨entry.1.name, entry.2.id⟩

/-- The planned hooks of a type are its methods whose first load marker the mode runs. -/
lemma eq_of_hooksOf {mode : HostMode} {t : TypeDef} {methods : List Method}
    {hooks : List MethodHandle} (planned : hooksOf mode t.name methods = .ok hooks) :
    hooks = ((methods.map fun method => (t, method)).filter
      fun entry => entry.2.startsIn mode).map handleOf := by
  induction methods generalizing hooks with
  | nil =>
    cases planned
    rfl
  | cons m rest ih =>
    rw [List.map_cons, List.filter_cons]
    rw [hooksOf] at planned
    cases first : m.markers.find? Marker.isLoadHook with
    | none =>
      rw [first] at planned
      have passed : m.startsIn mode = false := by simp [Method.startsIn, first]
      rw [passed, if_neg Bool.false_ne_true]
      exact ih planned
    | some hook =>
      rw [first] at planned
      dsimp only at planned
      split at planned
      · cases planned
      next shaped =>
        have isStatic : m.isStatic = true := by
          by_contra no
          simp [no] at shaped
        have starts : m.startsIn mode = mode.runs hook := by
          simp [Method.startsIn, first, isStatic]
        obtain ⟨later, planned, last⟩ := exists_of_bind_eq_ok planned
        injection last with last
        rw [starts, ← last, ih planned]
        split <;> rfl

/-- The planned hooks of a module are the methods whose first load marker the mode runs. -/
theorem eq_of_plan {mode : HostMode} {loaded : Universe} {seen : List String} {m : Module}
    {hooks : List MethodHandle} (planned : plan mode loaded seen m.types = .ok hooks) :
    hooks = (m.startsIn mode).map handleOf := by
  rw [Module.startsIn, Module.declaredMethods]
  generalize m.types = types at planned
  induction types generalizing seen hooks with
  | nil =>
    cases planned
    rfl
  | cons t rest ih =>
    rw [plan] at planned
    split at planned
    · cases planned
    · obtain ⟨own, hooked, planned⟩ := exists_of_bind_eq_ok planned
      obtain ⟨more, planned, last⟩ := exists_of_bind_eq_ok planned
      injection last with last
      rw [List.flatMap_cons, List.filter_append, List.map_append, ← last, eq_of_hooksOf hooked,
        ih planned]

/-! ## The calls -/

/-- Calls the entries of method tables of a module one after the other, without arguments. -/
def callEach (e : Engine) (module : String) : List (TypeDef × Method) → Run Unit
  | [] => return
  | (t, method) :: rest => do
    let _ ← e.call ⟨module, t⟩ method []
    callEach e module rest

/-- A method is found by its identifier if no other member of the type has it. -/
lemma member?_of_mem {t : TypeDef} {method : Method}
    (distinct : ((t.constructors ++ t.methods).map (·.id)).Nodup) (member : method ∈ t.methods) :
    t.member? method.id = some method := by
  rw [TypeDef.member?, TypeDef.constructor?, TypeDef.method?, ← List.find?_append]
  exact find?_key_of_mem (·.id) distinct (List.mem_append_right _ member)

/-- Running hooks by their handles is calling the methods, as long as the types are loaded. -/
theorem run_runHooks {e : Engine} {m : Module} {h h₁ : Host} {hooks : List MethodHandle}
    (traced : e.Traced) (planned : plan h.config.mode h.types [] m.types = .ok hooks)
    (distinct : ∀ t ∈ m.types, ((t.constructors ++ t.methods).map (·.id)).Nodup)
    {calls : List (TypeDef × Method)} (declared : ∀ entry ∈ calls, entry ∈ m.declaredMethods)
    (types : h₁.types = (h.addModule m).types) :
    (runHooks e (calls.map handleOf)).run h₁ = (callEach e m.name calls).run h₁ := by
  induction calls generalizing h₁ with
  | nil => rfl
  | cons entry rest ih =>
    obtain ⟨t, method⟩ := entry
    obtain ⟨listed, member⟩ := Module.mem_declaredMethods.1 (declared _ List.mem_cons_self)
    have found : h₁.types.find? t.name = some ⟨m.name, t⟩ := by
      rw [types]
      exact find?_addModule planned listed
    have called : (e.invokeHandle (handleOf (t, method)) []).run h₁
        = (e.call ⟨m.name, t⟩ method []).run h₁ := by
      rw [Engine.invokeHandle, Run.run_get_bind, handleOf, found]
      dsimp only
      rw [member?_of_mem (distinct t listed) member]
    rw [List.map_cons, runHooks, callEach]
    refine Run.run_bind_congr called fun _ h₂ ended => ?_
    -- whatever the call did, it has left the types as they were
    have history : History h₁ h₂ :=
      traced.history (fun e => e.call ⟨m.name, t⟩ method []) (fun agree => agree.call ..) ended
    refine ih (fun entry later => declared entry (List.mem_cons_of_mem _ later)) ?_
    rw [history.keeps.types, types]

/-! ## What a load calls -/

/-- A load of a module calls exactly the given methods, once each and in this order, and reports
their number and what they have added to the registry. -/
structure Invokes (h : Host) (m : Module) (calls : List (TypeDef × Method)) (report : LoadReport)
    (h' : Host) : Prop where
  /-- Over whatever engine the load runs its hooks, it makes these calls and no others. -/
  made : ∃ hooks, plan h.config.mode h.types [] m.types = .ok hooks ∧
    ∀ e : Engine, e.Traced →
      (runHooks e hooks).run (h.addModule m) = (callEach e m.name calls).run (h.addModule m)
  /-- The calls of the host's own engine have left the host as the load does. -/
  ends : (callEach Engine.unlimited m.name calls).run (h.addModule m) = some (.ok ⟨⟩, h')
  hooksRun : report.hooksRun = calls.length
  factories : ∃ added, h'.registry.factories = h.registry.factories ++ added ∧
    report.factories = added.length
  injectors : ∃ added, h'.registry.injectors = h.registry.injectors ++ added ∧
    report.injectors = added.length

/-- A load calls the methods whose first load marker the mode runs. -/
lemma invokes_startsIn {h h' : Host} {m : Module} {report : LoadReport}
    (distinct : ∀ t ∈ m.types, ((t.constructors ++ t.methods).map (·.id)).Nodup)
    (loaded : (load m).run h = some (.ok report, h')) :
    h.Invokes m (m.startsIn h.config.mode) report h' := by
  obtain ⟨hooks, planned, hooked, history⟩ := exists_hooks_of_load loaded
  have new : h.isLoaded m.name = false := by
    rcases run_load m h with ⟨e, refused⟩ | ⟨-, new, -⟩
    · rw [refused] at loaded
      cases loaded
    · exact new
  have counted := run_load_eq_ok new planned hooked
  rw [loaded] at counted
  injection counted with counted
  injection counted with counted
  injection counted with counted
  have calls : hooks = (m.startsIn h.config.mode).map handleOf := eq_of_plan planned
  have declared : ∀ entry ∈ m.startsIn h.config.mode, entry ∈ m.declaredMethods :=
    fun entry member => List.mem_of_mem_filter member
  obtain ⟨factories, addedFactories⟩ := history.keeps.factories
  obtain ⟨injectors, addedInjectors⟩ := history.keeps.injectors
  refine ⟨⟨hooks, planned, fun e traced => ?_⟩, ?_, ?_, ⟨factories, addedFactories.symm, ?_⟩,
    injectors, addedInjectors.symm, ?_⟩
  · rw [calls]
    exact run_runHooks traced planned distinct declared rfl
  · rw [← run_runHooks Engine.traced_unlimited planned distinct declared rfl, ← calls]
    exact hooked
  · rw [counted, calls]
    exact List.length_map _
  · rw [counted, ← addedFactories]
    show (h.registry.factories ++ factories).length - h.registry.factories.length = _
    rw [List.length_append]
    omega
  · rw [counted, ← addedInjectors]
    show (h.registry.injectors ++ injectors).length - h.registry.injectors.length = _
    rw [List.length_append]
    omega

/-- A load calls the methods whose first load marker the mode runs. These are the hooks of the mode
exactly if, for a player, no method is marked for editors before it is marked for all hosts. -/
theorem invokes_of_load {h h' : Host} {m : Module} {report : LoadReport}
    (distinct : ∀ t ∈ m.types, ((t.constructors ++ t.methods).map (·.id)).Nodup)
    (loaded : (load m).run h = some (.ok report, h')) :
    h.Invokes m (m.startsIn h.config.mode) report h' ∧
      (h.Invokes m (m.hooksIn h.config.mode) report h' ↔
        ∀ t ∈ m.types, ∀ method ∈ t.methods, method.LeadsIn h.config.mode) := by
  have actual := invokes_startsIn distinct loaded
  refine ⟨actual, fun claimed => Module.startsIn_eq_hooksIn ?_, fun leads => ?_⟩
  · rw [← actual.hooksRun, claimed.hooksRun]
  · rw [Module.hooksIn_eq_startsIn leads]
    exact actual

/-! ### A module with three marked methods -/

/-- A static method without parameters that prints its name. -/
def announcing (n : Nat) (name : String) (markers : List Marker) : Method :=
  { Method.newStatic (Uuid.numbered n) name with
    markers
    body := [.loadConst (.text name), .print, .ret] }

/-- Marked for all hosts. -/
def wake : Method := announcing 2 "Wake" [.custom "Early", .runtimeLoadHook]

/-- Marked for editors. -/
def tune : Method := announcing 3 "Tune" [.editorLoadHook]

/-- Marked for editors and for all hosts. -/
def serve : Method := announcing 4 "Serve" [.editorLoadHook, .runtimeLoadHook]

/-- The class that declares the three methods. -/
def boot : TypeDef :=
  { TypeDef.newClass (Uuid.numbered 1) "Kiosk.Boot" with methods := [wake, tune, serve] }

/-- A module of this class. -/
def kiosk : Module := { name := "Kiosk", types := [boot] }

/-- A player calls the first of the methods. The third should be called as well. -/
theorem invokes_kiosk :
    (∀ t ∈ kiosk.types, ((t.constructors ++ t.methods).map (·.id)).Nodup) ∧
    kiosk.hooksIn .player = [(boot, wake), (boot, serve)] ∧
    ∃ report h', (load kiosk).run (Host.new {}) = some (.ok report, h') ∧
      h'.output = ["Wake"] ∧
      (Host.new {}).Invokes kiosk [(boot, wake)] report h' ∧
      ¬(Host.new {}).Invokes kiosk [(boot, wake), (boot, serve)] report h' := by
  have distinct : ∀ t ∈ kiosk.types, ((t.constructors ++ t.methods).map (·.id)).Nodup := by
    decide +kernel
  obtain ⟨report, h', loaded, printed⟩ : ∃ report h',
      (load kiosk).run (Host.new {}) = some (.ok report, h') ∧ h'.output = ["Wake"] :=
    ⟨_, _, rfl, rfl⟩
  obtain ⟨actual, claimed⟩ := invokes_of_load distinct loaded
  refine ⟨distinct, rfl, report, h', loaded, printed, actual, fun all => ?_⟩
  have leads := claimed.1 all boot List.mem_cons_self serve (by decide +kernel) rfl rfl
  have first := leads (List.mem_cons_of_mem _ List.mem_cons_self)
  cases first

/-- An editor calls all three. -/
example : kiosk.startsIn .editor = kiosk.hooksIn .editor := by decide +kernel

end Host
end Weaver
