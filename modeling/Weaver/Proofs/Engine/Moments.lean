import Weaver.Proofs.Engine.Resolutions
import Weaver.Proofs.Engine.Rules

/-!
# Moments of a run

The end of a run does not tell what has happened on the way to it. To tell, let the run give up at
the moments of interest. An engine that works until a moment does what any engine does, but when a
resolution is about to settle its binding, and what it has made is of interest, then it acts as if
its levels were used up. A run that ends with such an engine ends as it does without, and has passed
no such moment; one that passes such a moment ends at no level.

Three things live here:

* `Made`, what a resolution has made at that moment, and `Engine.untilLevel`, the engines that give
  up at moments of a kind;
* `Engine.agree_untilLevel`, by which what ends with them ends as it does without;
* `Engine.resolveUntil_cases` and `Engine.obeys_untilLevel`, by which rules can be shown for runs
  that pass no such moment.
-/

namespace Weaver

open Host

/-- What a resolution has made when it is about to settle its binding. -/
structure Made where
  ref : BindingRef
  /-- The scope that the binding has by now. -/
  scope : Scope
  /-- The type that was asked for. -/
  ty : String
  /-- The injector of this type. If there is one, it has completed on the value. -/
  injector : Option Injector
  value : Value

namespace Engine

/-! ## Engines that give up -/

section

variable (event : Made → Prop) [DecidablePred event] (e : Engine)

/-- Fills an instance by the injector of the type that was asked for, and gives this injector. -/
def fillAs (c : ContainerRef) (ty : String) (produced : Value) : Run (Option Injector) := do
  match ← Run.injectorOf? ty with
  | none => return none
  | some injector =>
    e.runInjector injector produced c
    return some injector

/-- Makes an instance for a binding, checks it and fills its fields. Gives up if that is of
interest. -/
def makeUntil (c : ContainerRef) (ty : String) (ref : BindingRef) (b : Binding) : Run Value := do
  let produced ← e.produce c b
  checkInstance produced ty
  let injector ← e.fillAs c ty produced
  if event ⟨ref, ((← get).binding ref).scope, ty, injector, produced⟩ then Run.exhausted
  else return produced

/-- Resolves a type through a binding, unless it gives up. -/
def resolveBindingUntil (c : ContainerRef) (ty : String) (ref : BindingRef) : Run Value := do
  let b := (← get).binding ref
  if b.resolved then
    let value := b.held.getD .null
    checkInstance value ty
    return value
  if b.producing then Run.fault (.dependencyCycle ty b.requested)
  Run.between (·.markProducing ref true) (·.markProducing ref false) do
    let produced ← e.makeUntil event c ty ref b
    settle ref produced
    return produced

/-- Resolves a type, unless too many resolutions of the container are active or it gives up. -/
def resolveUntil (c : ContainerRef) (ty : String) : Run Value := do
  if maxResolveDepth ≤ ((← get).container c).depth then Run.fault (.resolutionTooDeep ty)
  Run.between (·.enterResolution c) (·.leaveResolution c) do
    match (← get).bindingFor? c ty with
    | none => throw (.notFound ty)
    | some ref => e.resolveBindingUntil event c ty ref

/-- The engine of a level that gives up. -/
def untilLevel : ℕ → Engine
  | 0 => ofLevel 0
  | level + 1 => ⟨(untilLevel level).callNext, (untilLevel level).resolveUntil event⟩

end

section

variable {event : Made → Prop} [DecidablePred event] {e e' : Engine} {c : ContainerRef}
  {ty : String} {ref : BindingRef} {h h' : Host}

/-! ## Runs that end as they do without -/

open Run (AgreeAt)

section Agreement

variable (agree : Agree 0 e e')
include agree

lemma Agree.makeUntil (b : Binding) :
    AgreeAt 0 h (e.makeUntil event c ty ref b) (e'.make c ty b) := by
  -- where the first run gives up, nothing is asked of the second
  have last (injector : Option Injector) (produced : Value) (h : Host) : AgreeAt 0 h
      (get >>= fun h => if event ⟨ref, (h.binding ref).scope, ty, injector, produced⟩
        then Run.exhausted else pure produced) (pure produced : Run Value) := by
    refine ⟨fun run => ?_, fun room => absurd room (Nat.not_lt_zero _)⟩
    rw [Run.run_get_bind] at run
    split at run
    · cases run
    · cases run
      exact ⟨rfl, .refl h⟩
  refine .bind (agree.produce c b) fun produced _ => .bind (checkInstance produced ty) fun _ _ => ?_
  rw [fillAs, bind_assoc]
  refine .bind (.injectorOf? ty) fun injector h₁ => ?_
  cases injector with
  | none =>
    rw [pure_bind]
    exact last none produced h₁
  | some injector =>
    rw [bind_assoc]
    refine .bind (agree.runInjector injector produced c) fun _ h₂ => ?_
    rw [pure_bind]
    exact last (some injector) produced h₂

lemma Agree.resolveBindingUntil :
    AgreeAt 0 h (e.resolveBindingUntil event c ty ref) (e'.resolveBinding c ty ref) := by
  refine .get_bind ?_
  by_cases resolved : (h.binding ref).resolved
  · rw [if_pos resolved, if_pos resolved]
    exact .bind (checkInstance _ ty) fun _ _ => .pure _
  rw [if_neg resolved, if_neg resolved]
  by_cases producing : (h.binding ref).producing
  · exact .check fun idle => absurd producing idle
  have idle : (h.binding ref).producing = false := by simpa using producing
  have settled : AgreeAt 0 (h.markProducing ref true)
      (e.makeUntil event c ty ref (h.binding ref) >>= fun produced =>
        Engine.settle ref produced >>= fun _ => pure produced)
      (e'.make c ty (h.binding ref) >>= fun produced =>
        Engine.settle ref produced >>= fun _ => pure produced) :=
    .bind (agree.makeUntil _) fun produced _ => .bind (settle ref produced) fun _ _ => .pure _
  rw [← make_bind_settle] at settled
  exact .check fun _ => .between id (.production ref idle) settled

lemma Agree.resolveUntil :
    AgreeAt 0 h (e.resolveUntil event c ty) (e'.resolveNext c ty) := by
  refine .get_bind ?_
  by_cases room : maxResolveDepth ≤ (h.container c).depth
  · exact .check fun free => absurd room free
  refine .check fun _ => .between (k := 0) (fun none => absurd none (Nat.not_lt_zero _))
    (.resolution c (Nat.lt_of_not_le room)) (.get_bind ?_)
  cases (h.enterResolution c).bindingFor? c ty with
  | none => exact .throw _
  | some ref => exact agree.resolveBindingUntil

end Agreement

/-- What ends with an engine that gives up ends as it does without. -/
theorem agree_untilLevel (event : Made → Prop) [DecidablePred event] (n : ℕ) :
    Agree 0 (untilLevel event n) unlimited := by
  induction n with
  | zero => exact agree_unlimited 0
  | succ n ih =>
    rw [← next_unlimited]
    refine ⟨fun h owner method args => ?_, fun _ _ _ => ih.resolveUntil⟩
    exact ⟨(ih.callNext owner method args).same, fun room => absurd room (Nat.not_lt_zero _)⟩

lemma makeUntil_never (b : Binding) :
    e.makeUntil (fun _ => False) c ty ref b = e.make c ty b := by
  unfold makeUntil make fillAs
  simp only [bind_assoc, if_false]
  refine bind_congr fun produced => bind_congr fun _ => bind_congr fun injector => ?_
  cases injector with
  | none =>
    rw [pure_bind]
    rfl
  | some injector =>
    rw [bind_assoc]
    refine bind_congr fun _ => ?_
    rw [pure_bind]
    rfl

/-- Without moments of interest, engines that give up are as any. -/
lemma untilLevel_never (n : ℕ) : untilLevel (fun _ => False) n = ofLevel n := by
  have through (e : Engine) (c : ContainerRef) (ty : String) (ref : BindingRef) :
      e.resolveBindingUntil (fun _ => False) c ty ref = e.resolveBinding c ty ref := by
    unfold Engine.resolveBindingUntil Engine.resolveBinding
    simp only [makeUntil_never, ← make_bind_settle]
    rfl
  have resolves (e : Engine) : e.resolveUntil (fun _ => False) = e.resolveNext := by
    funext c ty
    unfold Engine.resolveUntil Engine.resolveNext
    simp only [through]
    rfl
  induction n with
  | zero => rfl
  | succ n ih => rw [untilLevel, ih, resolves, ofLevel, next]

/-! ## Runs that pass no moment -/

variable {value : Value} {b : Binding}

/-- What has happened when an instance has been made without giving up. -/
lemma makeUntil_cases (run : (e.makeUntil event c ty ref b).run h = some (.ok value, h')) :
    ∃ h₁ h₂ injector, (e.produce c b).run h = some (.ok value, h₁) ∧
      (Run.injectorOf? ty).run h₁ = some (.ok injector, h₂) ∧
      (injector = none ∧ h' = h₂ ∨
        ∃ i, injector = some i ∧ (e.runInjector i value c).run h₂ = some (.ok ⟨⟩, h')) ∧
      ¬event ⟨ref, (h'.binding ref).scope, ty, injector, value⟩ := by
  rw [makeUntil, Run.run_bind_eq_ok_iff] at run
  obtain ⟨produced, h₁, made, run⟩ := run
  rw [Run.run_bind_eq_ok_iff] at run
  obtain ⟨_, h₂, checked, run⟩ := run
  obtain rfl : h₂ = h₁ := by
    rw [checkInstance, Run.run_get_bind] at checked
    split at checked
    · cases checked
    · cases checked
      rfl
  rw [Run.run_bind_eq_ok_iff] at run
  obtain ⟨injector, h₃, filled, run⟩ := run
  rw [Run.run_get_bind] at run
  split at run
  · cases run
  next quiet =>
  cases run
  rw [fillAs, Run.run_bind_eq_ok_iff] at filled
  obtain ⟨found, h₄, looked, filled⟩ := filled
  cases found with
  | none =>
    cases filled
    exact ⟨h₂, _, none, made, looked, .inl ⟨rfl, rfl⟩, quiet⟩
  | some i =>
    rw [Run.run_bind_eq_ok_iff] at filled
    obtain ⟨_, h₅, injected, filled⟩ := filled
    cases filled
    exact ⟨h₂, h₄, some i, made, looked, .inr ⟨i, rfl, injected⟩, quiet⟩

/-- The ways in which a resolution through a binding ends that does not give up: nothing has
happened, or an instance was to be made. -/
lemma resolveBindingUntil_cases {r : Except HostError Value}
    (run : (e.resolveBindingUntil event c ty ref).run h = some (r, h')) :
    (h' = h ∧ ∀ value, r = .ok value →
      (h.binding ref).resolved = true ∧ (h.binding ref).held.getD .null = value) ∨
    (h.binding ref).resolved = false ∧ ∃ r₁ h₁ h₂,
      (e.makeUntil event c ty ref (h.binding ref)).run (h.markProducing ref true)
        = some (r₁, h₁) ∧
      Settles ref h₁ r h₂ ∧ (∀ value, r = .ok value → r₁ = .ok value) ∧
      h' = h₂.markProducing ref false := by
  rw [resolveBindingUntil, Run.run_get_bind] at run
  cases resolved : (h.binding ref).resolved with
  | true =>
    rw [if_pos resolved] at run
    dsimp only at run
    rw [checkInstance, bind_assoc, Run.run_get_bind] at run
    split at run
    · cases run
      exact .inl ⟨rfl, fun _ same => by cases same⟩
    · cases run
      exact .inl ⟨rfl, fun value same => ⟨rfl, Except.ok.inj same⟩⟩
  | false =>
    rw [if_neg (by simp [resolved])] at run
    split at run
    · cases run
      exact .inl ⟨rfl, fun _ same => by cases same⟩
    dsimp only at run
    rw [Run.run_between, Option.map_eq_some_iff] at run
    obtain ⟨⟨r, h₂⟩, run, same⟩ := run
    cases same
    obtain ⟨r₁, h₁, made, settles⟩ := settles_of_run run
    refine .inr ⟨rfl, r₁, h₁, h₂, made, settles, fun value same => ?_, rfl⟩
    rw [Run.run_bind, made] at run
    cases r₁ with
    | error e =>
      cases run
      cases same
    | ok produced =>
      cases same
      obtain ⟨_, h₃, -, run⟩ := Run.run_bind_eq_ok_iff.1 run
      cases run
      rfl

/-- The ways in which a resolution ends that does not give up. -/
lemma resolveUntil_cases {r : Except HostError Value}
    (run : (e.resolveUntil event c ty).run h = some (r, h')) :
    (h' = h ∧ ∀ value, r = .ok value → ∃ ref, h.bindingFor? c ty = some ref ∧
      (h.binding ref).resolved = true ∧ (h.binding ref).held.getD .null = value) ∨
    ∃ ref r₁ h₁ h₂, h.bindingFor? c ty = some ref ∧ (h.binding ref).resolved = false ∧
      (e.makeUntil event c ty ref (h.binding ref)).run (h.enterProduction c ref)
        = some (r₁, h₁) ∧
      Settles ref h₁ r h₂ ∧ (∀ value, r = .ok value → r₁ = .ok value) ∧
      h' = h₂.leaveProduction c ref := by
  rw [resolveUntil, Run.run_get_bind] at run
  split at run
  · cases run
    exact .inl ⟨rfl, fun _ same => by cases same⟩
  dsimp only at run
  rw [Run.run_between, Option.map_eq_some_iff] at run
  obtain ⟨⟨r, g⟩, run, same⟩ := run
  cases same
  rw [Run.run_get_bind, bindingFor?_enterResolution] at run
  -- what changes nothing inside changes nothing around it
  have unchanged (stays : g = h.enterResolution c) : g.leaveResolution c = h := by
    rw [stays, leaveResolution_enterResolution]
  cases found : h.bindingFor? c ty with
  | none =>
    rw [found] at run
    cases run
    exact .inl ⟨unchanged rfl, fun _ same => by cases same⟩
  | some ref =>
    rw [found] at run
    rcases resolveBindingUntil_cases run with
      ⟨stays, answers⟩ | ⟨unresolved, r₁, h₁, h₂, made, settles, own, rfl⟩
    · exact .inl ⟨unchanged stays, fun value same => ⟨ref, rfl, answers value same⟩⟩
    · exact .inr ⟨ref, r₁, h₁, h₂, rfl, unresolved, made, settles, own, rfl⟩

open Run (ObeysAt)

lemma Obeys.makeUntil {R : Host → Host → Prop} (rule : Rule R) (obeys : e.Obeys R) :
    ObeysAt R h (e.makeUntil event c ty ref b) := by
  have filled (produced : Value) (h : Host) : ObeysAt R h (e.fillAs c ty produced) := by
    refine rule.bind (rule.injectorOf? ty) fun injector _ => ?_
    cases injector with
    | none => exact rule.pure _
    | some injector =>
      exact rule.bind (obeys.runInjector rule injector produced c) fun _ _ => rule.pure _
  refine rule.bind (obeys.produce rule c b) fun produced _ =>
    rule.bind (Obeys.checkInstance rule produced ty) fun _ _ =>
    rule.bind (filled produced _) fun injector _ => .get_bind ?_
  split
  · exact .exhausted
  · exact rule.pure _

/-- A rule is obeyed by engines that give up, if resolutions that do not give up obey it. -/
lemma obeys_untilLevel {R : Host → Host → Prop} (rule : Rule R)
    (resolution : ∀ {e : Engine} {c : ContainerRef} {ty : String} {ref : BindingRef}
      {r r₁ : Except HostError Value} {h h₁ h₂ : Host}, e.Obeys R →
      (e.makeUntil event c ty ref (h.binding ref)).run (h.enterProduction c ref)
        = some (r₁, h₁) →
      R (h.enterProduction c ref) h₁ → Settles ref h₁ r h₂ →
      (∀ value, r = .ok value → r₁ = .ok value) → R h (h₂.leaveProduction c ref)) (n : ℕ) :
    (untilLevel event n).Obeys R := by
  induction n with
  | zero => exact ⟨fun _ _ _ _ => .exhausted, fun _ _ _ => .exhausted⟩
  | succ n ih =>
    refine ⟨fun h owner method args => ih.callNext rule owner method args,
      fun h c ty r h' run => ?_⟩
    rcases resolveUntil_cases run with
      ⟨rfl, -⟩ | ⟨ref, r₁, h₁, h₂, -, -, made, settles, own, rfl⟩
    · exact rule.refl h'
    · exact resolution ih made (ih.makeUntil rule made) settles own

end
end Engine
end Weaver
