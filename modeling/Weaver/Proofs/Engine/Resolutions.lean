import Weaver.Proofs.Engine.Levels
import Weaver.Proofs.Host.Moves

/-!
# Resolutions from entry to exit

A resolution of a type ends in one of five ways: too many are active, nothing is bound, the binding
holds its answer already, an instance is just being made for it, or one is made. Only the last of
them changes anything. It opens a bracket, makes an instance and fills it, settles the binding by
the scope that it has by then, and closes the bracket.

There is one lemma for each way to end, and `Engine.resolve_cases`, by which there are no more.
-/

namespace Weaver
namespace Engine

open Host

variable {e : Engine} {c : ContainerRef} {ty : String} {ref : BindingRef} {h h' : Host}

/-! ## The ways to end -/

/-- Makes an instance for a binding, checks it and fills its fields. -/
def make (e : Engine) (c : ContainerRef) (ty : String) (b : Binding) : Run Value := do
  let produced ← e.produce c b
  checkInstance produced ty
  if let some injector ← Run.injectorOf? ty then e.runInjector injector produced c
  return produced

/-- Makes an instance for a binding and settles it. -/
lemma make_bind_settle (b : Binding) :
    (do
      let produced ← e.produce c b
      checkInstance produced ty
      if let some injector ← Run.injectorOf? ty then e.runInjector injector produced c
      settle ref produced
      return produced : Run Value)
    = e.make c ty b >>= fun produced => settle ref produced >>= fun _ => pure produced := by
  unfold make
  simp only [bind_assoc]
  refine bind_congr fun produced => bind_congr fun _ => bind_congr fun injector? => ?_
  cases injector? with
  | none => rfl
  | some injector => simp only [bind_assoc, pure_bind]

lemma run_resolve_of_tooDeep (deep : maxResolveDepth ≤ (h.container c).depth) :
    (e.next.resolve c ty).run h = some (.error (.execution (.resolutionTooDeep ty)), h) := by
  show (e.resolveNext c ty).run h = _
  rw [resolveNext, Run.run_get_bind, if_pos deep]
  rfl

section

variable (room : (h.container c).depth < maxResolveDepth)
include room

/-- What is done inside a resolution that the limit permits. -/
lemma run_resolve_of_lt : (e.next.resolve c ty).run h
    = (Run.between (·.enterResolution c) (·.leaveResolution c)
        (get >>= fun h => match h.bindingFor? c ty with
          | none => throw (.notFound ty)
          | some ref => e.resolveBinding c ty ref)).run h := by
  show (e.resolveNext c ty).run h = _
  rw [resolveNext, Run.run_get_bind, if_neg (Nat.not_le_of_lt room)]
  rfl

lemma run_resolve_of_notFound (missing : h.bindingFor? c ty = none) :
    (e.next.resolve c ty).run h = some (.error (.notFound ty), h) := by
  rw [run_resolve_of_lt room, Run.run_between, Run.run_get_bind, bindingFor?_enterResolution,
    missing]
  exact congrArg (fun h => some (Except.error (HostError.notFound ty), h))
    (leaveResolution_enterResolution h c)

variable (found : h.bindingFor? c ty = some ref)
include found

lemma run_resolve_of_found : (e.next.resolve c ty).run h
    = ((e.resolveBinding c ty ref).run (h.enterResolution c)).map
        fun (r, h') => (r, h'.leaveResolution c) := by
  rw [run_resolve_of_lt room, Run.run_between, Run.run_get_bind, bindingFor?_enterResolution, found]

/-- A resolution of a binding that changes nothing takes back what its beginning did. -/
lemma run_resolve_of_unchanged {r : Except HostError Value}
    (answered : (e.resolveBinding c ty ref).run (h.enterResolution c)
      = some (r, h.enterResolution c)) : (e.next.resolve c ty).run h = some (r, h) := by
  rw [run_resolve_of_found room found, answered]
  exact congrArg (fun h => some (r, h)) (leaveResolution_enterResolution h c)

/-- A resolved binding answers with what it holds, or not at all, and nothing else happens. -/
lemma run_resolve_of_resolved (resolved : (h.binding ref).resolved = true) {value : Value}
    (held : (h.binding ref).held.getD .null = value) : (e.next.resolve c ty).run h
      = some (if h.isInstance value ty then .ok value else .error (.cast ty (h.typeName value)),
          h) := by
  apply run_resolve_of_unchanged room found
  have known : ((h.enterResolution c).binding ref).resolved = true := resolved
  have there : ((h.enterResolution c).binding ref).held.getD .null = value := held
  have same : (h.enterResolution c).isInstance value ty = h.isInstance value ty := rfl
  rw [resolveBinding, Run.run_get_bind, if_pos known]
  simp only [there]
  cases fits : h.isInstance value ty with
  | true =>
    have passed : (checkInstance value ty).run (h.enterResolution c)
        = some (.ok ⟨⟩, h.enterResolution c) := by
      rw [checkInstance, Run.run_get_bind, same, fits]
      rfl
    exact Run.run_bind_of_ok passed
  | false =>
    have refused : (checkInstance value ty).run (h.enterResolution c)
        = some (.error (.cast ty (h.typeName value)), h.enterResolution c) := by
      rw [checkInstance, Run.run_get_bind, same, fits]
      rfl
    exact Run.run_bind_of_error refused

variable (unresolved : (h.binding ref).resolved = false)
include unresolved

lemma run_resolve_of_producing (producing : (h.binding ref).producing = true) :
    (e.next.resolve c ty).run h
      = some (.error (.execution (.dependencyCycle ty (h.binding ref).requested)), h) := by
  apply run_resolve_of_unchanged room found
  have same : (h.enterResolution c).binding ref = h.binding ref := rfl
  rw [resolveBinding, Run.run_get_bind]
  simp only [same, unresolved, producing, Bool.false_eq_true, if_false, if_true]
  rfl

/-- A binding that has to make an instance does so in the bracket, and is settled at its end. -/
lemma run_resolve_of_idle (idle : (h.binding ref).producing = false) :
    (e.next.resolve c ty).run h
      = ((e.make c ty (h.binding ref) >>= fun produced =>
          settle ref produced >>= fun _ => pure produced).run (h.enterProduction c ref)).map
        fun (r, h') => (r, h'.leaveProduction c ref) := by
  have same : (h.enterResolution c).binding ref = h.binding ref := rfl
  have made : (e.resolveBinding c ty ref).run (h.enterResolution c)
      = (Run.between (·.markProducing ref true) (·.markProducing ref false)
          (e.make c ty (h.binding ref) >>= fun produced =>
            settle ref produced >>= fun _ => pure produced)).run (h.enterResolution c) := by
    rw [resolveBinding, Run.run_get_bind]
    simp only [same, unresolved, idle, Bool.false_eq_true, if_false]
    rw [← make_bind_settle]
    rfl
  rw [run_resolve_of_found room found, made, Run.run_between, Option.map_map]
  rfl

end

/-! ## All ways to end -/

/-- How a binding is settled when an instance has been made for it, or was not to be had: the scope
that it has by then decides. -/
inductive Settles (ref : BindingRef) (h : Host) : Except HostError Value → Host → Prop where
  | failed (error : HostError) : Settles ref h (.error error) h
  | transient {value : Value} (scope : (h.binding ref).scope = .transient) :
      Settles ref h (.ok value) h
  | singleton {value : Value} (scope : (h.binding ref).scope = .singleton) :
      Settles ref h (.ok value) (h.hold ref value)

section

variable {produced : Value}

lemma run_settle_unset (scope : (h.binding ref).scope = .unset) :
    (settle ref produced).run h
      = some (.error (.configuration (h.binding ref).requested), h) := by
  rw [settle, Run.run_get_bind]
  simp only [scope]
  rfl

lemma run_settle_transient (scope : (h.binding ref).scope = .transient) :
    (settle ref produced).run h = some (.ok ⟨⟩, h) := by
  rw [settle, Run.run_get_bind]
  simp only [scope]
  rfl

lemma run_settle_singleton (scope : (h.binding ref).scope = .singleton) :
    (settle ref produced).run h = some (.ok ⟨⟩, h.hold ref produced) := by
  rw [settle, Run.run_get_bind]
  simp only [scope]
  rfl

end

lemma settles_of_run {x : Run Value} {r : Except HostError Value}
    (run : (x >>= fun produced => settle ref produced >>= fun _ => pure produced).run h
      = some (r, h')) :
    ∃ r₁ h₁, x.run h = some (r₁, h₁) ∧ Settles ref h₁ r h' := by
  rcases outcome : x.run h with _ | ⟨error | produced, h₁⟩
  · rw [Run.run_bind, outcome] at run
    cases run
  · rw [Run.run_bind_of_error outcome] at run
    cases run
    exact ⟨_, _, rfl, .failed error⟩
  · rw [Run.run_bind_of_ok outcome] at run
    refine ⟨_, _, rfl, ?_⟩
    cases scope : (h₁.binding ref).scope with
    | unset =>
      rw [Run.run_bind_of_error (run_settle_unset scope)] at run
      cases run
      exact .failed _
    | transient =>
      rw [Run.run_bind_of_ok (run_settle_transient scope)] at run
      cases run
      exact .transient scope
    | singleton =>
      rw [Run.run_bind_of_ok (run_settle_singleton scope)] at run
      cases run
      exact .singleton scope

/-- The ways in which a resolution ends: nothing has happened, or an instance was to be made. -/
lemma resolve_cases {r : Except HostError Value}
    (run : (e.next.resolve c ty).run h = some (r, h')) :
    (h' = h ∧ ∀ value, r = .ok value → ∃ ref, h.bindingFor? c ty = some ref ∧
      (h.binding ref).resolved = true ∧ (h.binding ref).held.getD .null = value) ∨
    ∃ ref r₁ h₁ h₂, h.bindingFor? c ty = some ref ∧
      (h.container c).depth < maxResolveDepth ∧ (h.binding ref).resolved = false ∧
      (h.binding ref).producing = false ∧
      (e.make c ty (h.binding ref)).run (h.enterProduction c ref) = some (r₁, h₁) ∧
      Settles ref h₁ r h₂ ∧ h' = h₂.leaveProduction c ref := by
  rcases Nat.lt_or_ge (h.container c).depth maxResolveDepth with room | deep
  · cases found : h.bindingFor? c ty with
    | none =>
      rw [run_resolve_of_notFound room found] at run
      cases run
      exact .inl ⟨rfl, nofun⟩
    | some ref =>
      cases resolved : (h.binding ref).resolved with
      | true =>
        rw [run_resolve_of_resolved room found resolved rfl] at run
        split at run
        · cases run
          refine .inl ⟨rfl, fun value same => ?_⟩
          cases same
          exact ⟨ref, rfl, resolved, rfl⟩
        · cases run
          exact .inl ⟨rfl, nofun⟩
      | false =>
        cases producing : (h.binding ref).producing with
        | true =>
          rw [run_resolve_of_producing room found resolved producing] at run
          cases run
          exact .inl ⟨rfl, nofun⟩
        | false =>
          rw [run_resolve_of_idle room found resolved producing, Option.map_eq_some_iff] at run
          obtain ⟨⟨r, h₂⟩, run, same⟩ := run
          cases same
          obtain ⟨r₁, h₁, made, settled⟩ := settles_of_run run
          exact .inr ⟨ref, r₁, h₁, h₂, rfl, room, resolved, producing, made, settled, rfl⟩
  · rw [run_resolve_of_tooDeep deep] at run
    cases run
    exact .inl ⟨rfl, nofun⟩

end Engine
end Weaver
