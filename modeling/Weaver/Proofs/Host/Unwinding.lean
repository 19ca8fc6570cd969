import Weaver.Proofs.Engine.Bodies
import Weaver.Proofs.Engine.Unwinding
import Weaver.Proofs.Host.Sessions

/-!
# Hosts between operations

Every exit unwinds what was opened, so nothing is active on a host between the operations of a
session, and nothing that has failed before stands in the way of what comes next.

Three things live here:

* `Host.Tidy`, that whatever a host is asked to do ends, and that no exit on the way is untidy;
* `Host.Idle`, the hosts that nothing is active on, and what a resolution comes to on them;
* `Host.unwinding`, for a host after any operations.
-/

namespace Weaver

open Host

/-- Whatever an engine does, at any depth, it unwinds what it has opened. -/
structure Engine.Unwinds (e : Engine) : Prop where
  resolve (h : Host) (c : ContainerRef) (ty : String) :
    Run.ObeysAt Unwound h (e.resolve c ty)
  tryResolve (h : Host) (c : ContainerRef) (ty : String) :
    Run.ObeysAt Unwound h (e.tryResolve c ty)
  inject (h : Host) (c : ContainerRef) (value : Value) :
    Run.ObeysAt Unwound h (e.inject c value)
  tryInject (h : Host) (c : ContainerRef) (value : Value) :
    Run.ObeysAt Unwound h (e.inject c value).orNone
  invoke (h : Host) (owner method : String) (args : List Value) :
    Run.ObeysAt Unwound h (e.invoke owner method args)
  runHooks (h : Host) (hooks : List MethodHandle) :
    Run.ObeysAt Unwound h (Host.runHooks e hooks)

lemma Engine.Obeys.unwinds {e : Engine} (obeys : e.Obeys Unwound) : e.Unwinds where
  resolve := obeys.resolve
  tryResolve _ c ty := obeys.tryResolve discipline_unwound.toRule c ty
  inject _ c value := obeys.inject discipline_unwound.toRule c value
  tryInject _ c value :=
    discipline_unwound.toRule.orNone (obeys.inject discipline_unwound.toRule c value)
  invoke _ owner method args := obeys.invoke discipline_unwound.toRule owner method args
  runHooks _ hooks := obeys.runHooks discipline_unwound.toRule hooks

namespace Host

variable {h h' : Host}

/-- An operation ends, as its code does on an engine that gets stuck over an untidy exit, and all is
unwound then. -/
def EndsTidily {α : Type} (h : Host) (operation : Run α) (code : Engine → Run α) : Prop :=
  ∃ r h', operation.run h = some (r, h') ∧ (code (Engine.tidy h.capacity)).run h = some (r, h') ∧
    h.Unwound h'

/-- All code of a host ends tidily. -/
lemma endsTidily {α : Type} (h : Host) (code : Engine → Run α)
    (agree : ∀ {k e e' h}, Engine.Agree k e e' → Run.AgreeAt k h (code e) (code e')) :
    h.EndsTidily (withEngine code) code := by
  obtain ⟨r, h', run, tidy, history⟩ :=
    h.exists_run_of_agree (Engine.agree_tidy h.capacity) code agree
  exact ⟨r, h', run, tidy, history.unwound⟩

/-- Whatever a host is asked to do ends tidily. -/
structure Tidy (h : Host) : Prop where
  resolve (c : ContainerRef) (ty : String) : h.EndsTidily (Host.resolve c ty) (·.resolve c ty)
  tryResolve (c : ContainerRef) (ty : String) :
    h.EndsTidily (Host.tryResolve c ty) (·.tryResolve c ty)
  inject (c : ContainerRef) (value : Value) :
    h.EndsTidily (Host.inject c value) (·.inject c value)
  tryInject (c : ContainerRef) (value : Value) :
    h.EndsTidily (Host.tryInject c value) fun e => return (← (e.inject c value).orNone).isSome
  invoke (owner method : String) (args : List Value) :
    h.EndsTidily (Host.invoke owner method args) (·.invoke owner method args)
  construct (ty : String) (ctor : Uuid) (args : List Value) :
    h.EndsTidily (Host.construct ty ctor args) (·.construct ty ctor args)
  /-- The hooks of a load run when the types of the module are there. -/
  runHooks (m : Module) (hooks : List MethodHandle) :
    (h.addModule m).EndsTidily (withEngine fun e => Host.runHooks e hooks)
      fun e => Host.runHooks e hooks
  load (m : Module) : ∃ r h', (Host.load m).run h = some (r, h') ∧ h.Unwound h'

lemma tidy (h : Host) : h.Tidy where
  resolve c ty := h.endsTidily _ fun agree => agree.resolve _ c ty
  tryResolve c ty := h.endsTidily _ fun agree => agree.tryResolve c ty
  inject c value := h.endsTidily _ fun agree => agree.inject c value
  tryInject c value := h.endsTidily _ fun agree => .bind (.orNone (agree.inject c value))
    fun _ _ => .pure _
  invoke owner method args := h.endsTidily _ fun agree => agree.invoke owner method args
  construct ty ctor args := h.endsTidily _ fun agree => agree.construct ty ctor args
  runHooks m hooks := (h.addModule m).endsTidily _ fun agree => agree.runHooks hooks
  load m := by
    rcases run_load m h with ⟨e, refused⟩ | ⟨_, -, -, _, h', -, history, _, ended⟩
    · exact ⟨_, h, refused, .refl h⟩
    · have unwound := history.unwound
      exact ⟨_, h', ended, unwound.callDepth, unwound.depth, unwound.producing⟩

/-- No call and no resolution is active, and no instance is being made. -/
structure Idle (h : Host) : Prop where
  callDepth : h.callDepth = 0
  depth (c : ContainerRef) : (h.container c).depth = 0
  producing (ref : BindingRef) : (h.binding ref).producing = false

lemma idle_new (config : HostConfig) : (Host.new config).Idle :=
  ⟨rfl, fun _ => rfl, fun _ => rfl⟩

lemma Idle.unwound (idle : h.Idle) (unwound : h.Unwound h') : h'.Idle where
  callDepth := unwound.callDepth.trans idle.callDepth
  depth c := (unwound.depth c).trans (idle.depth c)
  producing ref := (unwound.producing ref).trans (idle.producing ref)

/-- What an operation does before any code runs leaves a host idle. -/
lemma Idle.opens {op : Operation} (idle : h.Idle) (opens : op.Opens h h') : h'.Idle := by
  cases opens with
  | nothing => exact idle
  | addContainer =>
    refine ⟨idle.callDepth, fun c => ?_, idle.producing⟩
    rw [container_addContainer]
    exact idle.depth c
  | bind _ c ty => exact idle.unwound (.of_change (.bind c ty))
  | configure _ ref step => exact idle.unwound (.of_change (.configure ref step))
  | load | keep | takeOutput => exact ⟨idle.callDepth, idle.depth, idle.producing⟩

/-- An operation leaves a host idle, whatever it ends in. -/
lemma Idle.perform {op : Operation} {r : Except HostError Unit} (idle : h.Idle)
    (run : op.perform.run h = some (r, h')) : h'.Idle := by
  obtain ⟨h₁, opens, unwound⟩ := Operation.exists_opens discipline_unwound.law run
  exact (idle.opens opens).unwound unwound

/-- What a resolution comes to if neither a limit nor a mark stands in its way: nothing is bound, the
binding has its answer, or an instance is made. -/
def unhindered (h : Host) (c : ContainerRef) (ty : String) :
    Option (Except HostError Value × Host) :=
  match h.bindingFor? c ty with
  | none => some (.error (.notFound ty), h)
  | some ref =>
    if (h.binding ref).resolved then
      let value := (h.binding ref).held.getD .null
      some (if h.isInstance value ty then .ok value else .error (.cast ty (h.typeName value)), h)
    else
      ((Engine.unlimited.make c ty (h.binding ref) >>= fun produced =>
          Engine.settle ref produced >>= fun _ => pure produced).run
        (h.enterProduction c ref)).map fun (r, h') => (r, h'.leaveProduction c ref)

lemma Idle.run_resolve (idle : h.Idle) (c : ContainerRef) (ty : String) :
    (resolve c ty).run h = h.unhindered c ty := by
  have room : (h.container c).depth < maxResolveDepth := by
    rw [idle.depth]
    exact Nat.succ_pos _
  rw [resolve_eq, unhindered]
  cases found : h.bindingFor? c ty with
  | none => exact Engine.run_resolve_of_notFound room found
  | some ref =>
    dsimp only
    split
    next resolved => exact Engine.run_resolve_of_resolved room found resolved rfl
    next unresolved =>
      exact Engine.run_resolve_of_idle room found (by simpa using unresolved) (idle.producing ref)

/-- What it means for a host that every exit unwinds. -/
structure Unwinding (h : Host) : Prop where
  /-- Nothing is active between operations. -/
  idle : h.Idle
  /-- In every state that the host reaches, in the middle of runs included, whatever is called for
  ends tidily. -/
  exits {h₁ : Host} : h.Reaches h₁ → h₁.Tidy
  /-- That is so as well if other code stands in the place of recipes, and unwinds what it opens
  itself. -/
  embedded {code : Engine → Embedding} :
    (∀ e : Engine, e.Obeys Unwound → (code e).Obeys Unwound) →
      ∀ level, (Engine.ofLevelWith code level).Unwinds
  /-- So no limit stands in the way of a call, -/
  calls {owner : LoadedType} {method : Method} {args : List Value} : args.length = method.arity →
    (Engine.unlimited.call owner method args).run h
      = (Run.between enterCall leaveCall (Engine.unlimited.execute ⟨owner, method, args⟩)).run h
  /-- and neither a limit nor a mark in the way of a resolution. -/
  resolves (c : ContainerRef) (ty : String) :
    (Host.resolve c ty).run h = h.unhindered c ty

/-- Every exit unwinds: after any operations whatever, any of which may have failed. -/
theorem unwinding {config : HostConfig} {kind : Host → Operation → Prop}
    (session : Session kind (Host.new config) h) : h.Unwinding := by
  have idle : h.Idle := session.keeps Idle (idle_new config) fun _ run idle => idle.perform run
  exact
    { idle
      exits := fun {h₁} _ => h₁.tidy
      embedded := fun acts level =>
        (Engine.obeys_ofLevelWith discipline_unwound acts level).unwinds
      calls := fun arity => Engine.run_call_unlimited arity (by
        rw [idle.callDepth]
        exact Nat.succ_pos _)
      resolves := idle.run_resolve }

/-- A host with a container that has a binding for integers, made by resolving an integer. -/
def knot : Host :=
  (Host.new {}).addContainer.2.declareWith ⟨0⟩ intType [.fromFactory (.resolve intType), .asSingleton]

/-- A resolution of an integer from it is a cycle, and nothing is left of it that would stand in the
way of another one. -/
theorem unwinding_knot : ∃ h, Session (fun _ _ => True) (Host.new {}) h ∧ h.Unwinding ∧
    (resolve ⟨0⟩ intType).run knot
      = some (.error (.execution (.dependencyCycle intType intType)), h) ∧
    ∃ h', (resolve ⟨0⟩ intType).run
        (h.configureStep ⟨0⟩ (.fromFactory (.give (.fixed (.int 7))))) = some (.ok (.int 7), h') := by
  obtain ⟨h, cycle, h', answer⟩ : ∃ h, (resolve ⟨0⟩ intType).run knot
        = some (.error (.execution (.dependencyCycle intType intType)), h) ∧
      ∃ h', (resolve ⟨0⟩ intType).run
        (h.configureStep ⟨0⟩ (.fromFactory (.give (.fixed (.int 7))))) = some (.ok (.int 7), h') :=
    ⟨_, rfl, _, rfl⟩
  have performed : (Operation.resolve ⟨0⟩ intType).perform.run knot
      = some (.error (.execution (.dependencyCycle intType intType)), h) :=
    Run.run_bind_of_error cycle
  have made : Session (fun _ _ => True) (Host.new {}) (Host.new {}).addContainer.2 :=
    .step (.refl _) .addContainer trivial rfl
  have bound : Session (fun _ _ => True) (Host.new {}) knot :=
    ((made.step (.bind ⟨0⟩ intType) trivial rfl).step
      (.configure ⟨0⟩ (.fromFactory (.resolve intType))) trivial rfl).step
      (.configure ⟨0⟩ .asSingleton) trivial rfl
  have session := bound.step _ trivial performed
  exact ⟨h, session, unwinding session, cycle, h', answer⟩

end Host
end Weaver
