import Weaver.Module.Build
import Weaver.Proofs.Host.Loading

/-!
# Confined engines

Running code ends since each call counts against the limit of the host and each resolution against
the limit of its container, so only so many of them can be active at a time. To say so of the runs
themselves, a confined engine keeps an account of its own: it has a number of bodies that it may
have open at a time, of calls and resolutions together, and gets stuck over one more. It also gets
stuck if a counter is above its limit while a body begins or ends.

Three things live here:

* `Engine.agree_confined`, by which confined engines never get stuck where there is enough room;
* `Host.Reaches.callDepth_le` and `Host.Reaches.depth_le`, the limits in every state of a host;
* `Host.limited`, that all operations of a host end within the limits.
-/

namespace Weaver

open Host

/-! ## Checks around runs -/

namespace Run

variable {α : Type} {p : Host → Prop} [DecidablePred p] {x y : Run α} {h h' : Host}

/-- Runs code between two checks of the host, and gets stuck if one of them fails. -/
def within (p : Host → Prop) [DecidablePred p] (x : Run α) : Run α := do
  if p (← get) then
    let r ← x.attempt
    if p (← get) then ofExcept r else exhausted
  else exhausted

lemma run_ofExcept (r : Except HostError α) (h : Host) : (ofExcept r).run h = some (r, h) := by
  cases r <;> rfl

/-- Checks that pass change nothing. -/
lemma run_within {r : Except HostError α} (starts : p h) (run : x.run h = some (r, h'))
    (stops : p h') : (within p x).run h = some (r, h') := by
  have attempted : x.attempt.run h = some (.ok r, h') := by rw [run_attempt, run]; rfl
  rw [within, run_get_bind, if_pos starts, run_bind_of_ok attempted, run_get_bind, if_pos stops]
  exact run_ofExcept r h'

/-- What ends between checks ends in the same way without them. -/
lemma of_run_within {r : Except HostError α} (run : (within p x).run h = some (r, h')) :
    x.run h = some (r, h') := by
  rw [within, run_get_bind] at run
  split at run
  · rcases outcome : x.run h with _ | ⟨r₁, h₁⟩
    · rw [run_bind, run_attempt, outcome] at run
      cases run
    · have attempted : x.attempt.run h = some (.ok r₁, h₁) := by rw [run_attempt, outcome]; rfl
      rw [run_bind_of_ok attempted, run_get_bind] at run
      split at run
      · rw [run_ofExcept] at run
        exact run
      · cases run
  · cases run

/-- Checks that pass in the beginning, and that no history can make fail. -/
lemma AgreeAt.within {k : ℕ} (starts : p h) (stays : ∀ {h'}, History h h' → p h')
    (agree : AgreeAt k h x y) : AgreeAt k h (Run.within p x) y where
  same run := agree.same (of_run_within run)
  ends room := by
    obtain ⟨r, h', run⟩ := agree.ends room
    exact ⟨r, h', run_within starts run (stays (agree.same run).2)⟩

/-- A run without a result agrees with every other in no room at all. -/
lemma AgreeAt.exhausted : AgreeAt 0 h (exhausted : Run α) y where
  same run := by cases run
  ends room := absurd room (Nat.not_lt_zero _)

end Run

/-! ## Engines by their bodies -/

namespace Engine

open Run (AgreeAt)

/-- Calls a member, the body of which is run in a given way. -/
def callBy (body : Frame → Run (Option Value)) (owner : LoadedType) (method : Method)
    (args : List Value) : Run (Option Value) := do
  if args.length ≠ method.arity then
    Run.fault (.wrongArgumentCount owner.definition.name method.name method.arity args.length)
  if maxCallDepth ≤ (← get).callDepth then
    Run.fault (.callTooDeep owner.definition.name method.name)
  Run.between enterCall leaveCall (body ⟨owner, method, args⟩)

/-- Resolves a type, the binding of which is used in a given way. -/
def resolveBy (body : ContainerRef → String → BindingRef → Run Value) (c : ContainerRef)
    (ty : String) : Run Value := do
  if maxResolveDepth ≤ ((← get).container c).depth then Run.fault (.resolutionTooDeep ty)
  Run.between (·.enterResolution c) (·.leaveResolution c) do
    match (← get).bindingFor? c ty with
    | none => throw (.notFound ty)
    | some ref => body c ty ref

/-- One level more calls and resolves through what the engine makes of bodies. -/
lemma next_eq (e : Engine) : e.next = ⟨callBy e.execute, resolveBy e.resolveBinding⟩ := rfl

/-- The engine that may have `n` bodies open at a time, of calls and resolutions together. It checks
the counter of a call or resolution while its body begins and ends. -/
def confined : ℕ → Engine
  | 0 => ⟨callBy fun _ => Run.exhausted, resolveBy fun _ _ _ => Run.exhausted⟩
  | n + 1 =>
    { call := callBy fun f =>
        Run.within (fun h => h.callDepth ≤ maxCallDepth) ((confined n).execute f)
      resolve := resolveBy fun c ty ref =>
        Run.within (fun h => (h.container c).depth ≤ maxResolveDepth)
          ((confined n).resolveBinding c ty ref) }

variable {k : ℕ} {h : Host}

/-- Calls agree if their bodies do in the room that is left, one call deeper. -/
lemma agreeAt_callBy {body body' : Frame → Run (Option Value)}
    (agree : ∀ f (h : Host), h.callDepth < maxCallDepth → AgreeAt k h.enterCall (body f) (body' f))
    (owner : LoadedType) (method : Method) (args : List Value) :
    AgreeAt (k + 1) h (callBy body owner method args) (callBy body' owner method args) := by
  refine .check fun _ => .get_bind ?_
  by_cases room : maxCallDepth ≤ h.callDepth
  · exact .check fun free => absurd room free
  · have room : h.callDepth < maxCallDepth := Nat.lt_of_not_le room
    have less := slack_enterCall room
    exact .check fun _ => .between (fun left => by omega) (.call room) (agree _ h room)

lemma container_enterResolution_self {c : ContainerRef} (valid : c.index < h.containers.size) :
    ((h.enterResolution c).container c).depth = (h.container c).depth + 1 := by
  rw [enterResolution, container_updateContainer, if_pos ⟨rfl, valid⟩]

/-- Resolutions agree if they use bindings in the same way in the room that is left, one resolution
deeper. -/
lemma agreeAt_resolveBy {body body' : ContainerRef → String → BindingRef → Run Value}
    (agree : ∀ c ty ref (h : Host), c.index < h.containers.size →
      (h.container c).depth < maxResolveDepth →
      AgreeAt k (h.enterResolution c) (body c ty ref) (body' c ty ref))
    (c : ContainerRef) (ty : String) :
    AgreeAt (k + 1) h (resolveBy body c ty) (resolveBy body' c ty) := by
  refine .get_bind ?_
  by_cases room : maxResolveDepth ≤ (h.container c).depth
  · exact .check fun free => absurd room free
  have room : (h.container c).depth < maxResolveDepth := Nat.lt_of_not_le room
  refine .check fun _ => ?_
  by_cases valid : c.index < h.containers.size
  · have less := slack_enterResolution valid room
    refine .between (k := k) (fun left => by omega) (.resolution c room) (.get_bind ?_)
    cases (h.enterResolution c).bindingFor? c ty with
    | none => exact .throw _
    | some ref => exact agree c ty ref h valid room
  · -- nothing is bound in a container that does not exist, so no body is opened
    have same : h.enterResolution c = h := updateContainer_eq_self valid _
    refine .between (k := k + 1) (by rw [same]; exact id) (.resolution c room) (.get_bind ?_)
    rw [same, bindingFor?_eq_none valid]
    exact .throw _

/-- An engine by its bodies agrees with one level more of an engine that runs them in the same
way. -/
lemma agree_next {e : Engine} {call : Frame → Run (Option Value)}
    {resolve : ContainerRef → String → BindingRef → Run Value}
    (calls : ∀ f (h : Host), h.callDepth < maxCallDepth →
      AgreeAt k h.enterCall (call f) (e.execute f))
    (resolutions : ∀ c ty ref (h : Host), c.index < h.containers.size →
      (h.container c).depth < maxResolveDepth →
      AgreeAt k (h.enterResolution c) (resolve c ty ref) (e.resolveBinding c ty ref)) :
    Agree (k + 1) ⟨callBy call, resolveBy resolve⟩ e.next := by
  rw [next_eq]
  exact ⟨fun _ => agreeAt_callBy calls, fun _ => agreeAt_resolveBy resolutions⟩

/-- A confined engine ends as the engine without levels does wherever the counters leave room for no
more bodies than it may have open. -/
theorem agree_confined (n : ℕ) : Agree (n + 1) (confined n) unlimited := by
  induction n with
  | zero =>
    rw [← next_unlimited, confined]
    exact agree_next (fun _ _ _ => .exhausted) fun _ _ _ _ _ _ => .exhausted
  | succ n ih =>
    rw [← next_unlimited, confined]
    refine agree_next (fun f h room => ?_) fun c ty ref h valid room => ?_
    · refine .within room (fun history => ?_) (ih.execute f)
      rw [history.keeps.callDepth]
      exact room
    · have limit : ((h.enterResolution c).container c).depth ≤ maxResolveDepth := by
        rw [container_enterResolution_self valid]
        exact room
      refine .within limit (fun history => ?_) (ih.resolveBinding c ty ref)
      rw [history.keeps.depth]
      exact limit

end Engine

namespace Host

/-! ## The limits in every state -/

/-- No counter is above its limit. -/
structure WithinLimits (h : Host) : Prop where
  callDepth : h.callDepth ≤ maxCallDepth
  depth (c : ContainerRef) : (h.container c).depth ≤ maxResolveDepth

lemma withinLimits_new (config : HostConfig) : (Host.new config).WithinLimits :=
  ⟨Nat.zero_le _, fun _ => Nat.zero_le _⟩

/-- A step changes a counter only where the limit leaves room. -/
lemma Step.withinLimits {h h' : Host} (step : Step h h') (limits : h.WithinLimits) :
    h'.WithinLimits := by
  cases step with
  | change change =>
    refine ⟨?_, fun c => ?_⟩
    · rw [change.keeps.callDepth]
      exact limits.callDepth
    · rw [change.keeps.depth]
      exact limits.depth c
  | enterCall room => exact ⟨room, limits.depth⟩
  | leaveCall => exact ⟨(Nat.sub_le _ _).trans limits.callDepth, limits.depth⟩
  | enterResolution c room =>
    refine ⟨limits.callDepth, fun c' => ?_⟩
    rw [Host.enterResolution, container_updateContainer]
    split
    next here =>
      rw [← here.1]
      exact room
    · exact limits.depth c'
  | leaveResolution c =>
    refine ⟨limits.callDepth, fun c' => ?_⟩
    rw [Host.leaveResolution, container_updateContainer]
    split
    · exact (Nat.sub_le _ _).trans (limits.depth c')
    · exact limits.depth c'
  | addContainer =>
    refine ⟨limits.callDepth, fun c => ?_⟩
    rw [container_addContainer]
    exact limits.depth c
  | markProducing | addCounter | keep | takeOutput | addModule => exact ⟨limits.1, limits.2⟩

/-- Every state that a host can come to is within the limits. -/
theorem Reaches.withinLimits {h h' : Host} (reached : Reaches h h') (limits : h.WithinLimits) :
    h'.WithinLimits := by
  induction reached with
  | refl => exact limits
  | tail _ step ih => exact step.withinLimits ih

/-- The calls and resolutions that a host may have active at a time. -/
def capacity (h : Host) : ℕ :=
  maxCallDepth + maxResolveDepth * h.containers.size

/-- The calls and resolutions that are active. -/
def active (h : Host) : ℕ :=
  h.callDepth + ∑ i ∈ Finset.range h.containers.size, (h.container ⟨i⟩).depth

lemma WithinLimits.active_le {h : Host} (limits : h.WithinLimits) : h.active ≤ h.capacity := by
  have resolutions : ∑ i ∈ Finset.range h.containers.size, (h.container ⟨i⟩).depth
      ≤ h.containers.size * maxResolveDepth := by
    simpa using Finset.sum_le_card_nsmul (Finset.range h.containers.size)
      (fun i => (h.container ⟨i⟩).depth) maxResolveDepth fun i _ => limits.depth ⟨i⟩
  rw [capacity, Nat.mul_comm]
  exact Nat.add_le_add limits.callDepth resolutions

/-! ## Operations end within the limits -/

/-- As many calls and resolutions of each container are active on the second host as on the
first. -/
structure SameActivity (h h' : Host) : Prop where
  callDepth : h'.callDepth = h.callDepth
  containers : h'.containers.size = h.containers.size
  depth (c : ContainerRef) : (h'.container c).depth = (h.container c).depth

/-- An operation ends, as its code does with no more open bodies than the host may have active at a
time. When it has ended, everything that it has opened is closed. -/
def EndsWithin {α : Type} (h : Host) (operation : Run α) (code : Engine → Run α) : Prop :=
  ∃ r h', operation.run h = some (r, h') ∧
    (code (Engine.confined h.capacity)).run h = some (r, h') ∧ h.SameActivity h'

/-- All code of a host ends, and does so in the same way on every engine that agrees with the one
without levels where the counters leave room for as many bodies as the host may have active. -/
lemma exists_run_of_agree {α : Type} (h : Host) {e : Engine}
    (same : Engine.Agree (h.capacity + 1) e Engine.unlimited) (code : Engine → Run α)
    (agree : ∀ {k e e' h}, Engine.Agree k e e' → Run.AgreeAt k h (code e) (code e')) :
    ∃ r h', (withEngine code).run h = some (r, h') ∧ (code e).run h = some (r, h') ∧
      History h h' := by
  have room : h.slack < h.capacity + 1 := Nat.lt_succ_of_le h.slack_le
  obtain ⟨r, h', there, run, history⟩ := (agree (h := h) same).exists_run room
  rw [← Engine.withEngine_eq code agree] at run
  exact ⟨r, h', run, there, history⟩

/-- All code of a host ends within the limits. -/
lemma endsWithin {α : Type} (h : Host) (code : Engine → Run α)
    (agree : ∀ {k e e' h}, Engine.Agree k e e' → Run.AgreeAt k h (code e) (code e')) :
    h.EndsWithin (withEngine code) code := by
  obtain ⟨r, h', run, confined, history⟩ :=
    h.exists_run_of_agree (Engine.agree_confined h.capacity) code agree
  have keeps := history.keeps
  exact ⟨r, h', run, confined, keeps.callDepth, keeps.containers, keeps.depth⟩

/-- Whatever a host is asked to do ends within its limits. -/
structure Limited (h : Host) : Prop where
  limits : h.WithinLimits
  active_le : h.active ≤ h.capacity
  invoke (owner method : String) (args : List Value) :
    h.EndsWithin (Host.invoke owner method args) (·.invoke owner method args)
  construct (ty : String) (ctor : Uuid) (args : List Value) :
    h.EndsWithin (Host.construct ty ctor args) (·.construct ty ctor args)
  /-- The hooks of a load run when the types of the module are there. -/
  runHooks (m : Module) (hooks : List MethodHandle) :
    (h.addModule m).EndsWithin (withEngine fun e => Host.runHooks e hooks)
      fun e => Host.runHooks e hooks
  load (m : Module) : ∃ r h', (Host.load m).run h = some (r, h') ∧ h.SameActivity h'
  resolve (c : ContainerRef) (ty : String) : h.EndsWithin (Host.resolve c ty) (·.resolve c ty)
  tryResolve (c : ContainerRef) (ty : String) :
    h.EndsWithin (Host.tryResolve c ty) (·.tryResolve c ty)
  inject (c : ContainerRef) (value : Value) :
    h.EndsWithin (Host.inject c value) (·.inject c value)
  tryInject (c : ContainerRef) (value : Value) :
    h.EndsWithin (Host.tryInject c value) fun e =>
      return (← (e.inject c value).orNone).isSome

/-- At any time in the life of a host, in the middle of its runs included, the counters are within
the limits, and everything that the host is asked to do ends within them. -/
theorem limited {config : HostConfig} {h : Host} (reached : (Host.new config).Reaches h) :
    h.Limited where
  limits := reached.withinLimits (withinLimits_new config)
  active_le := (reached.withinLimits (withinLimits_new config)).active_le
  invoke owner method args := h.endsWithin _ fun agree => agree.invoke owner method args
  construct ty ctor args := h.endsWithin _ fun agree => agree.construct ty ctor args
  runHooks m hooks := (h.addModule m).endsWithin _ fun agree => agree.runHooks hooks
  load m := by
    rcases run_load m h with ⟨e, refused⟩ | ⟨_, -, -, _, h', -, history, _, ended⟩
    · exact ⟨_, h, refused, rfl, rfl, fun _ => rfl⟩
    · have keeps := history.keeps
      exact ⟨_, h', ended, keeps.callDepth, keeps.containers, keeps.depth⟩
  resolve c ty := h.endsWithin _ fun agree => agree.resolve _ c ty
  tryResolve c ty := h.endsWithin _ fun agree => agree.tryResolve c ty
  inject c value := h.endsWithin _ fun agree => agree.inject c value
  tryInject c value := h.endsWithin _ fun agree => .bind (.orNone (agree.inject c value))
    fun _ _ => .pure _

/-! ### A method without end -/

/-- A module with one method, which calls itself. -/
def spiral : Module :=
  { name := "Spiral"
    types :=
      [{ TypeDef.newClass (Uuid.numbered 1) "Spiral.Stair" with
          methods :=
            [(Method.newStatic (Uuid.numbered 2) "Climb").withBody
              [.call "Spiral.Stair" (Uuid.numbered 2), .ret]] }] }

set_option maxRecDepth 20000 in
/-- The method is stopped by the limit on calls. -/
theorem limited_spiral :
    ∃ report h, (Host.load spiral).run (Host.new {}) = some (.ok report, h) ∧
      (Host.new {}).Reaches h ∧ h.Limited ∧
      (Host.invoke "Spiral.Stair" "Climb" []).run h
        = some (.error (.execution (.callTooDeep "Spiral.Stair" "Climb")), h) := by
  obtain ⟨report, h, loaded, climbed⟩ : ∃ report h,
      (Host.load spiral).run (Host.new {}) = some (.ok report, h) ∧
        (Host.invoke "Spiral.Stair" "Climb" []).run h
          = some (.error (.execution (.callTooDeep "Spiral.Stair" "Climb")), h) :=
    ⟨_, _, rfl, rfl⟩
  have reached : (Host.new {}).Reaches h := .of_load loaded
  exact ⟨report, h, loaded, reached, limited reached, climbed⟩

end Host
end Weaver
