import Weaver.Host.Text
import Weaver.Proofs.Host.LifeCycle
import Weaver.Proofs.Host.Loading

/-!
# Scripts of embedding code

What embedding code does with a host, one line after the other, and what it is told each time. It
keeps the handles of bindings in variables, through which it configures and inspects them.

Three things live here:

* `Operation.answer`, what an operation gives back;
* `Line` and `Desk.run`, lines of a script and the answers to them, and that every script comes to
  its end;
* `Desk.Sound`, by which handles and containers refer to bindings that exist.
-/

namespace Weaver
namespace Host

/-! ## Answers -/

/-- What embedding code is told. -/
inductive Answer where
  | done
  | value (value : Value)
  | found (value : Option Value)
  | flag (truth : Bool)
  | count (n : ℕ)
  | text (text : String)
  | lines (lines : List String)
  | report (report : LoadReport)
  | binding (b : Binding)

/-- Carries out an operation and gives what embedding code is told. -/
def Operation.answer : Operation → Run Answer
  | addContainer => do
    let (c, h) := (← get).addContainer
    set h
    return .value (.container c)
  | bind c ty => modify (fun h => (h.bind c ty).2) >>= fun _ => return .done
  | configure ref step => modify (fun h => h.configureStep ref step) >>= fun _ => return .done
  | load m => Host.load m >>= fun report => return .report report
  | resolve c ty => Host.resolve c ty >>= fun value => return .value value
  | tryResolve c ty => Host.tryResolve c ty >>= fun value => return .found value
  | inject c value => Host.inject c value >>= fun _ => return .done
  | tryInject c value => Host.tryInject c value >>= fun filled => return .flag filled
  | invoke owner method args => Host.invoke owner method args >>= fun value => return .found value
  | registerFactory ty factory => Run.registerFactory ty factory >>= fun _ => return .done
  | registerInjector ty injector => Run.registerInjector ty injector >>= fun _ => return .done
  | keep name value => modify (fun h => h.keep name value) >>= fun _ => return .done
  | takeOutput => do
    let output := (← get).output
    modify fun h => { h with output := [] }
    return .lines output

variable {h h' : Host}

/-- What an answer is made of has come out of the run. -/
lemma exists_run_of_answer {α : Type} {x : Run α} {f : α → Answer} {r : Except HostError Answer}
    (run : (x >>= fun a => pure (f a)).run h = some (r, h')) :
    ∃ r', x.run h = some (r', h') ∧ r = r'.map f := by
  rcases outcome : x.run h with _ | ⟨e | a, h₁⟩
  · rw [Run.run_bind, outcome] at run
    cases run
  · rw [Run.run_bind_of_error outcome] at run
    cases run
    exact ⟨_, rfl, rfl⟩
  · rw [Run.run_bind_of_ok outcome] at run
    cases run
    exact ⟨_, rfl, rfl⟩

/-- An operation does the same whatever becomes of its answer. -/
lemma Operation.exists_perform_of_answer {op : Operation} {r : Except HostError Answer}
    (run : op.answer.run h = some (r, h')) : ∃ r', op.perform.run h = some (r', h') := by
  have dropped {α : Type} {x : Run α} {f : α → Answer}
      (run : (x >>= fun a => pure (f a)).run h = some (r, h')) :
      ∃ r', (x >>= fun _ => pure ()).run h = some (r', h') := by
    obtain ⟨r', run, -⟩ := exists_run_of_answer run
    cases r' with
    | error e => exact ⟨_, Run.run_bind_of_error run⟩
    | ok a => exact ⟨_, Run.run_bind_of_ok run⟩
  cases op with
  | load m => exact dropped run
  | resolve c ty => exact dropped run
  | tryResolve c ty => exact dropped run
  | tryInject c value => exact dropped run
  | invoke owner method args => exact dropped run
  | inject c value =>
    obtain ⟨r', run, -⟩ := exists_run_of_answer run
    exact ⟨r', run⟩
  | registerFactory ty factory =>
    obtain ⟨r', run, -⟩ := exists_run_of_answer run
    exact ⟨r', run⟩
  | registerInjector ty injector =>
    obtain ⟨r', run, -⟩ := exists_run_of_answer run
    exact ⟨r', run⟩
  | _ =>
    cases run
    exact ⟨_, rfl⟩

/-- Every operation comes to its end. -/
lemma Operation.exists_run_answer (op : Operation) (h : Host) :
    ∃ r h', op.answer.run h = some (r, h') := by
  have answered {α : Type} {x : Run α} {f : α → Answer} (ends : ∃ r h', x.run h = some (r, h')) :
      ∃ r h', (x >>= fun a => pure (f a)).run h = some (r, h') := by
    obtain ⟨r, h', run⟩ := ends
    cases r with
    | error e => exact ⟨_, _, Run.run_bind_of_error run⟩
    | ok a => exact ⟨_, _, Run.run_bind_of_ok run⟩
  have engine {α : Type} (code : Engine → Run α)
      (agree : ∀ {k e e' h}, Engine.Agree k e e' → Run.AgreeAt k h (code e) (code e')) :
      ∃ r h', (withEngine code).run h = some (r, h') := by
    obtain ⟨r, h', run, -⟩ := Engine.history_of_unlimited code agree h
    exact ⟨r, h', by rw [Engine.withEngine_eq code agree, run]⟩
  cases op with
  | load m =>
    refine answered ?_
    rcases run_load m h with ⟨e, run⟩ | ⟨hooks, -, -, r, h', -, -, report, run⟩
    · exact ⟨_, _, run⟩
    · exact ⟨_, _, run⟩
  | resolve c ty => exact answered (engine _ fun agree => agree.resolve _ c ty)
  | tryResolve c ty => exact answered (engine _ fun agree => agree.tryResolve c ty)
  | inject c value => exact answered (engine _ fun agree => agree.inject c value)
  | tryInject c value =>
    exact answered (engine _ fun agree => .bind (.orNone (agree.inject c value)) fun _ _ => .pure _)
  | invoke owner method args =>
    exact answered (engine _ fun agree => agree.invoke owner method args)
  | registerFactory ty factory =>
    refine answered ?_
    have agree := Run.AgreeAt.registerFactory (k := h.slack + 1) (h := h) ty factory
    obtain ⟨r, h', run⟩ := agree.ends (Nat.lt_succ_self _)
    exact ⟨r, h', run⟩
  | registerInjector ty injector =>
    refine answered ?_
    have agree := Run.AgreeAt.registerInjector (k := h.slack + 1) (h := h) ty injector
    obtain ⟨r, h', run⟩ := agree.ends (Nat.lt_succ_self _)
    exact ⟨r, h', run⟩
  | _ => exact ⟨_, _, rfl⟩

/-! ## Lines -/

/-- What a configuration call takes is made, without the call. -/
def prepareStep (h : Host) : BindingStep → Host
  | .madeAs _ => h
  | .fromInstance source => (h.obtain source).2
  | .fromFactory _ => h.addCounter.2
  | .asSingleton => h
  | .asTransient => h

/-- A line of a script. Bindings are named by the variables that hold their handles. -/
inductive Line where
  /-- Binds a type and puts the handle into a variable. -/
  | bind (handle : String) (c : ContainerRef) (ty : String)
  | configure (handle : String) (step : BindingStep)
  /-- Makes what a configuration call takes, without the call. -/
  | prepare (step : BindingStep)
  /-- Asks for the state of a binding. -/
  | inspect (handle : String)
  /-- Asks for the number of bindings of a type. -/
  | bindingsFor (c : ContainerRef) (ty : String)
  /-- Asks for the text of a container. -/
  | describe (c : ContainerRef)
  | idle
  /-- Any operation that takes no handle. -/
  | operate (op : Operation) (plain : ∀ ref step, op ≠ .configure ref step)

/-- A host with the variables of embedding code, the latest first. -/
@[ext]
structure Desk where
  host : Host
  handles : List (String × BindingRef) := []

namespace Desk

/-- The binding that a variable refers to. -/
def handle? (s : Desk) (handle : String) : Option BindingRef :=
  (s.handles.find? (·.1 == handle)).map (·.2)

lemma handle?_cons (host : Host) (entry : String × BindingRef)
    (handles : List (String × BindingRef)) (handle : String) :
    handle? ⟨host, entry :: handles⟩ handle
      = if entry.1 = handle then some entry.2 else handle? ⟨host, handles⟩ handle := by
  rw [handle?, List.find?_cons]
  by_cases own : entry.1 = handle
  · rw [if_pos own, own, beq_self_eq_true]
    rfl
  · rw [if_neg own, beq_false_of_ne own]
    rfl

/-- Carries out a line and gives what embedding code is told. A variable without a handle is good
for nothing. -/
def answer (s : Desk) : Line → Run Answer
  | .bind _ c ty => (Operation.bind c ty).answer
  | .configure handle step =>
    match s.handle? handle with
    | some ref => (Operation.configure ref step).answer
    | none => pure .done
  | .prepare step => modify (fun h => h.prepareStep step) >>= fun _ => return .done
  | .inspect handle =>
    match s.handle? handle with
    | some ref => return .binding ((← get).binding ref)
    | none => pure .done
  | .bindingsFor c ty => return .count ((← get).bindingsFor c ty).length
  | .describe c => return .text ((← get).describeContainer c)
  | .idle => pure .done
  | .operate op _ => op.answer

/-- The variables after a line. -/
def handlesAfter (s : Desk) : Line → List (String × BindingRef)
  | .bind handle c ty => (handle, (s.host.bind c ty).1) :: s.handles
  | _ => s.handles

/-- The answer to a line, and what the desk is like then. -/
def perform (s : Desk) (line : Line) : Option (Except HostError Answer × Desk) :=
  ((s.answer line).run s.host).map fun (r, host) => (r, { host, handles := s.handlesAfter line })

/-- The answers to the lines of a script, and what the desk is like in the end. -/
def run (s : Desk) : List Line → Option (List (Except HostError Answer) × Desk)
  | [] => some ([], s)
  | line :: rest => do
    let (r, s₁) ← s.perform line
    let (answers, s₂) ← s₁.run rest
    return (r :: answers, s₂)

variable {s s' : Desk} {line : Line} {r : Except HostError Answer}

lemma perform_eq_some_iff : s.perform line = some (r, s') ↔
    (s.answer line).run s.host = some (r, s'.host) ∧ s'.handles = s.handlesAfter line := by
  rw [perform, Option.map_eq_some_iff]
  constructor
  · rintro ⟨⟨r, host⟩, run, same⟩
    cases same
    exact ⟨run, rfl⟩
  · rintro ⟨run, same⟩
    exact ⟨(r, s'.host), run, by rw [← same]⟩

/-- Every line comes to its end. -/
lemma exists_perform (s : Desk) (line : Line) : ∃ r s', s.perform line = some (r, s') := by
  obtain ⟨r, host, run⟩ : ∃ r host, (s.answer line).run s.host = some (r, host) := by
    cases line with
    | bind _ c ty => exact ⟨_, _, rfl⟩
    | configure handle step =>
      rw [answer]
      cases s.handle? handle with
      | none => exact ⟨_, _, rfl⟩
      | some ref => exact ⟨_, _, rfl⟩
    | inspect handle =>
      rw [answer]
      cases s.handle? handle with
      | none => exact ⟨_, _, rfl⟩
      | some ref => exact ⟨_, _, rfl⟩
    | operate op plain => exact op.exists_run_answer s.host
    | _ => exact ⟨_, _, rfl⟩
  exact ⟨r, ⟨host, s.handlesAfter line⟩, perform_eq_some_iff.2 ⟨run, rfl⟩⟩

lemma run_cons {rest : List Line} {answers : List (Except HostError Answer)} :
    s.run (line :: rest) = some (answers, s') ↔ ∃ r s₁ later,
      s.perform line = some (r, s₁) ∧ s₁.run rest = some (later, s') ∧ answers = r :: later := by
  rw [run, Option.bind_eq_bind, Option.bind_eq_some_iff]
  constructor
  · rintro ⟨⟨r, s₁⟩, first, run⟩
    obtain ⟨⟨later, s₂⟩, run, same⟩ := Option.bind_eq_some_iff.1 run
    cases same
    exact ⟨r, s₁, later, first, run, rfl⟩
  · rintro ⟨r, s₁, later, first, run, rfl⟩
    exact ⟨(r, s₁), first, Option.bind_eq_some_iff.2 ⟨(later, s'), run, rfl⟩⟩

/-- Every script comes to its end. -/
theorem exists_run (s : Desk) (lines : List Line) :
    ∃ answers s', s.run lines = some (answers, s') := by
  induction lines generalizing s with
  | nil => exact ⟨[], s, rfl⟩
  | cons line rest ih =>
    obtain ⟨r, s₁, first⟩ := s.exists_perform line
    obtain ⟨later, s₂, run⟩ := ih s₁
    exact ⟨_, s₂, run_cons.2 ⟨r, s₁, later, first, run, rfl⟩⟩

/-! ## Sound desks -/

/-- A desk without variables. -/
def new (config : HostConfig) : Desk := { host := Host.new config }

/-- Handles and containers refer to bindings that exist. -/
structure Sound (s : Desk) : Prop where
  coherent : s.host.Coherent
  handles : ∀ entry ∈ s.handles, entry.2.index < s.host.bindings.size

lemma sound_new (config : HostConfig) : (new config).Sound :=
  ⟨coherent_new config, nofun⟩

lemma Sound.valid (sound : s.Sound) {handle : String} {ref : BindingRef}
    (known : s.handle? handle = some ref) : ref.index < s.host.bindings.size := by
  obtain ⟨entry, first, rfl⟩ := Option.map_eq_some_iff.1 known
  exact sound.handles entry (List.mem_of_find?_eq_some first)

/-- What a line does to the host is an operation, or leaves bindings and containers alone. -/
lemma exists_operation (run : (s.answer line).run s.host = some (r, h')) :
    (∃ op : Operation, ∃ r', op.perform.run s.host = some (r', h')) ∨
      h'.bindings = s.host.bindings ∧ h'.containers = s.host.containers := by
  cases line with
  | bind _ c ty =>
    exact .inl ⟨.bind c ty, Operation.exists_perform_of_answer run⟩
  | configure handle step =>
    rw [answer] at run
    cases known : s.handle? handle with
    | none =>
      rw [known] at run
      cases run
      exact .inr ⟨rfl, rfl⟩
    | some ref =>
      rw [known] at run
      exact .inl ⟨_, Operation.exists_perform_of_answer run⟩
  | prepare step =>
    cases run
    cases step with
    | fromInstance source => cases source <;> exact .inr ⟨rfl, rfl⟩
    | _ => exact .inr ⟨rfl, rfl⟩
  | inspect handle =>
    rw [answer] at run
    cases known : s.handle? handle with
    | none =>
      rw [known] at run
      cases run
      exact .inr ⟨rfl, rfl⟩
    | some ref =>
      rw [known] at run
      cases run
      exact .inr ⟨rfl, rfl⟩
  | operate op plain => exact .inl ⟨_, Operation.exists_perform_of_answer run⟩
  | _ =>
    cases run
    exact .inr ⟨rfl, rfl⟩

lemma Sound.perform (sound : s.Sound) (performed : s.perform line = some (r, s')) : s'.Sound := by
  obtain ⟨run, handles⟩ := perform_eq_some_iff.1 performed
  obtain ⟨coherent, grown⟩ : s'.host.Coherent ∧ s.host.bindings.size ≤ s'.host.bindings.size := by
    rcases exists_operation run with ⟨op, r', run⟩ | ⟨bindings, containers⟩
    · have moves := (lifeCycle_of_coherent sound.coherent).leads run
      exact ⟨moves.coherent sound.coherent, moves.size_le⟩
    · exact ⟨sound.coherent.of_eq bindings containers, by rw [bindings]⟩
  refine ⟨coherent, fun entry listed => ?_⟩
  have old (listed : entry ∈ s.handles) : entry.2.index < s'.host.bindings.size :=
    (sound.handles entry listed).trans_le grown
  rw [handles] at listed
  cases line with
  | bind handle c ty =>
    rcases List.mem_cons.1 listed with rfl | listed
    · have bound : (s.host.bind c ty).2 = s'.host := congrArg Prod.snd (Option.some.inj run)
      show s.host.bindings.size < _
      rw [← bound, bindings_bind, Array.size_push]
      exact Nat.lt_succ_self _
    · exact old listed
  | _ => exact old listed

theorem Sound.run {lines : List Line} {answers : List (Except HostError Answer)} (sound : s.Sound)
    (ran : s.run lines = some (answers, s')) : s'.Sound := by
  induction lines generalizing s answers with
  | nil =>
    cases ran
    exact sound
  | cons line rest ih =>
    obtain ⟨r, s₁, later, first, ran, -⟩ := run_cons.1 ran
    exact ih (sound.perform first) ran

end Desk

end Host
end Weaver
