import Weaver.Proofs.Engine.Moments
import Weaver.Proofs.Engine.Seclusion
import Weaver.Proofs.Host.Evolution
import Weaver.Proofs.Injection.Exactness

/-!
# Injected answers

A resolution fills the instance that it makes by the injector of the type that was asked for. What a
binding of singletons has come to hold is the answer from then on, for whatever type it is asked for
through the supertypes, and is not filled again. So an answer has been filled by the injector of the
type that it is asked for, unless the binding has come to hold it by a resolution for another type,
or at a time at which there was no such injector.

Three things live here:

* `Host.Performs`, runs of operations that configure no resolved binding, and `Host.Passes`, by
  which such a run passes a moment on its way;
* `Host.Spares`, by which a binding does not come to answer with an object as long as a run passes
  no moment at which it should;
* `Host.passes_of_resolve`, which moments have been passed when a resolution answers, and
  `Host.exists_uninjected`, two answers without injection.
-/

namespace Weaver

/-! ## Moments of interest -/

/-- The injector of the type has completed on the object. -/
def Made.Injects (made : Made) (ty : String) (injector : Injector) (o : ObjectRef) : Prop :=
  made.ty = ty ∧ made.injector = some injector ∧ made.value = .object o

instance (made : Made) (ty : String) (handle : MethodHandle) (o : ObjectRef) :
    Decidable (made.Injects ty (.woven handle) o) :=
  have : Decidable (made.injector = some (.woven handle)) :=
    match made.injector with
    | some (.woven own) => decidable_of_iff (own = handle) (by simp)
    | some (.supplied _) | some (.introspected _ _) | none => .isFalse nofun
  inferInstanceAs (Decidable (_ ∧ _ ∧ _))

/-- The binding is to hold the object, which was made for another type, or without an injector. -/
def Made.Withholds (made : Made) (ty : String) (ref : BindingRef) (o : ObjectRef) : Prop :=
  made.ref = ref ∧ made.scope = .singleton ∧ made.value = .object o ∧
    (made.ty ≠ ty ∨ made.injector = none)

namespace Host

/-! ## Runs of operations -/

/-- An operation whose code is run by an engine. Load hooks resolve nothing, so loading is the same
with every engine. -/
def Operation.performOn (e : Engine) : Operation → Run Unit
  | .resolve c ty => e.resolve c ty >>= fun _ => pure ()
  | .tryResolve c ty => e.tryResolve c ty >>= fun _ => pure ()
  | .inject c value => e.inject c value
  | .tryInject c value => (e.inject c value).orNone >>= fun _ => pure ()
  | .invoke owner method args => e.invoke owner method args >>= fun _ => pure ()
  | op => op.perform

/-- Operations one after the other, whatever they end in, whose code is run by an engine. -/
def performAllOn (e : Engine) : List Operation → Run Unit
  | [] => pure ()
  | op :: rest => do
    let _ ← (op.performOn e).attempt
    performAllOn e rest

/-- Operations one after the other, whatever they end in, lead from one host to the other. No
binding is configured that is resolved. -/
inductive Performs : Host → List Operation → Host → Prop where
  | nil (h : Host) : Performs h [] h
  | cons {h h₁ h₂ : Host} {op : Operation} {rest : List Operation} {r : Except HostError Unit}
      (early : ∀ ref step, op = .configure ref step → (h.binding ref).resolved = false)
      (run : op.perform.run h = some (r, h₁)) (later : Performs h₁ rest h₂) :
      Performs h (op :: rest) h₂

/-- Operations pass a moment of a kind on their way from a host: if they give up at such moments,
they do not come to their end, however many levels there are. -/
def Passes (h : Host) (ops : List Operation) (event : Made → Prop) : Prop :=
  ∀ (_ : DecidablePred event) (n : ℕ), (performAllOn (Engine.untilLevel event n) ops).run h = none

/-- Whether an operation configures no resolved binding. -/
def Operation.isEarly (h : Host) : Operation → Bool
  | .configure ref _ => !(h.binding ref).resolved
  | _ => true

/-- Where operations lead that configure no resolved binding. -/
def performs? (h : Host) : List Operation → Option Host
  | [] => some h
  | op :: rest => do
    let (_, h₁) ← op.perform.run h
    if op.isEarly h then performs? h₁ rest else none

section Agreement

variable {n : ℕ} {h h' : Host} {op : Operation} {ops : List Operation}

lemma performs_of_performs? (leads : h.performs? ops = some h') : Performs h ops h' := by
  induction ops generalizing h with
  | nil =>
    cases leads
    exact .nil _
  | cons op rest ih =>
    obtain ⟨⟨r, h₁⟩, run, leads⟩ := Option.bind_eq_some_iff.1 leads
    rw [Option.ite_none_right_eq_some] at leads
    obtain ⟨early, leads⟩ := leads
    refine .cons ?_ run (ih leads)
    rintro ref step rfl
    simpa [Operation.isEarly] using early

lemma Performs.append {more : List Operation} {h₁ : Host} (performs : Performs h ops h₁)
    (later : Performs h₁ more h') : Performs h (ops ++ more) h' := by
  induction performs with
  | nil => exact later
  | cons early run _ ih => exact .cons early run (ih later)

lemma performAllOn_append (e : Engine) (ops more : List Operation) :
    performAllOn e (ops ++ more) = performAllOn e ops >>= fun _ => performAllOn e more := by
  induction ops with
  | nil => rw [List.nil_append, performAllOn, pure_bind]
  | cons op rest ih => rw [List.cons_append, performAllOn, performAllOn, ih, bind_assoc]

lemma Operation.performOn_unlimited (op : Operation) :
    op.performOn Engine.unlimited = op.perform := by
  cases op with
  | tryResolve c ty =>
    rw [performOn, perform, Host.tryResolve, Engine.withEngine_eq _ fun agree =>
      agree.tryResolve c ty]
  | inject c value => rw [performOn, perform, Engine.inject_unlimited]
  | tryInject c value =>
    have whole : Host.tryInject c value
        = (Engine.unlimited.inject c value).orNone >>= fun done => pure done.isSome :=
      Engine.withEngine_eq (fun e => (e.inject c value).orNone >>= fun done => pure done.isSome)
        fun agree => .bind (agree.inject c value).orNone fun _ _ => .pure _
    rw [performOn, perform, whole, bind_assoc]
    rfl
  | invoke owner method args => rw [performOn, perform, Engine.invoke_unlimited]
  | _ => rfl

/-- An operation runs no code by its engine, or it agrees over engines that agree. -/
lemma Operation.performOn_cases (op : Operation) :
    (∀ e, op.performOn e = op.perform) ∨
      ∀ {k e e' h}, Engine.Agree k e e' → Run.AgreeAt k h (op.performOn e) (op.performOn e') := by
  cases op with
  | resolve c ty => exact .inr fun agree => .bind (agree.resolve _ c ty) fun _ _ => .pure _
  | tryResolve c ty => exact .inr fun agree => .bind (agree.tryResolve c ty) fun _ _ => .pure _
  | inject c value => exact .inr fun agree => agree.inject c value
  | tryInject c value =>
    exact .inr fun agree => .bind (agree.inject c value).orNone fun _ _ => .pure _
  | invoke owner method args =>
    exact .inr fun agree => .bind (agree.invoke owner method args) fun _ _ => .pure _
  | _ => exact .inl fun _ => rfl

/-- An operation that ends without giving up ends as it does. -/
lemma Operation.run_perform_of_until {event : Made → Prop} [DecidablePred event]
    {r : Except HostError Unit}
    (run : (op.performOn (Engine.untilLevel event n)).run h = some (r, h')) :
    op.perform.run h = some (r, h') := by
  rcases op.performOn_cases with alone | agrees
  · rwa [alone] at run
  · rw [← performOn_unlimited]
    exact ((agrees (Engine.agree_untilLevel event n)).same run).1

/-- With enough levels, an operation ends as it does. -/
lemma Operation.run_performOn_ofLevel (room : h.slack < n) :
    (op.performOn (Engine.ofLevel n)).run h = op.perform.run h := by
  rcases op.performOn_cases with alone | agrees
  · rw [alone]
  · obtain ⟨r, h', run, run', -⟩ := (agrees (Engine.agree_unlimited n)).exists_run room
    rw [run, ← run', performOn_unlimited]

/-- With enough levels, operations come to their end. -/
lemma Performs.exists_run_ofLevel (performs : Performs h ops h') :
    ∃ n, ∀ m, n ≤ m → (performAllOn (Engine.ofLevel m) ops).run h = some (.ok ⟨⟩, h') := by
  induction performs with
  | nil h => exact ⟨0, fun _ _ => rfl⟩
  | @cons h h₁ h₂ op rest r early run later ih =>
    -- enough for this operation, and for those after it
    obtain ⟨n, ends⟩ := ih
    refine ⟨max n (h.slack + 1), fun m enough => ?_⟩
    rw [performAllOn, Run.run_bind, Run.run_attempt,
      Operation.run_performOn_ofLevel (Nat.lt_of_succ_le (le_of_max_le_right enough)), run]
    exact ends m (le_of_max_le_left enough)

/-- Operations only pass moments of a kind if there is one. -/
lemma Performs.exists_of_passes {event : Made → Prop} (performs : Performs h ops h')
    (passes : h.Passes ops event) : ∃ made, event made := by
  by_contra none
  -- engines that never give up are as any, and those come to the end
  obtain rfl : event = fun _ => False := funext fun made => eq_false fun holds => none ⟨made, holds⟩
  obtain ⟨n, ends⟩ := performs.exists_run_ofLevel
  have given := passes inferInstance n
  rw [Engine.untilLevel_never, ends n le_rfl] at given
  cases given

end Agreement

/-! ## Bindings that do not answer with an object -/

/-- The binding is resolved and answers with the object. -/
def Answers (h : Host) (ref : BindingRef) (o : ObjectRef) : Prop :=
  (h.binding ref).resolved = true ∧ (h.binding ref).held = some (.object o)

section Answers

variable {h h' : Host} {ref ref' : BindingRef} {o : ObjectRef} {c : ContainerRef} {ty : String}

lemma answers_of_bindings (bindings : h'.bindings = h.bindings) (answers : h'.Answers ref o) :
    h.Answers ref o := by
  rwa [Answers, binding, bindings] at answers

lemma answers_of_markProducing {flag : Bool} (answers : (h.markProducing ref' flag).Answers ref o) :
    h.Answers ref o := by
  rw [Answers, markProducing, binding_updateBinding] at answers
  split at answers <;> exact answers

lemma answers_of_declareWith {steps : List BindingStep}
    (answers : (h.declareWith c ty steps).Answers ref o) : h.Answers ref o := by
  have resolved := answers.1
  rw [resolved_declareWith] at resolved
  have same := (tame_declareWith h c ty steps).frame ref (lt_size_of_resolved resolved)
    (by rw [resolved, Bool.or_true])
  rwa [Answers, same] at answers

lemma answers_of_hold {value : Value} (answers : (h.hold ref' value).Answers ref o) :
    h.Answers ref o ∨ ref' = ref ∧ value = .object o := by
  rw [Answers, hold, binding_updateBinding] at answers
  split at answers
  next same => exact .inr ⟨same.1, Option.some.inj answers.2⟩
  · exact .inl answers

lemma answers_of_enterProduction (answers : (h.enterProduction c ref').Answers ref o) :
    h.Answers ref o :=
  answers_of_markProducing (h := h.enterResolution c) answers

lemma answers_of_leaveProduction (answers : (h.leaveProduction c ref').Answers ref o) :
    h.Answers ref o :=
  answers_of_markProducing answers

lemma answers_of_getD (resolved : (h.binding ref).resolved = true)
    (held : (h.binding ref).held.getD .null = .object o) : h.Answers ref o := by
  refine ⟨resolved, ?_⟩
  cases kept : (h.binding ref).held with
  | none =>
    rw [kept] at held
    cases held
  | some value =>
    rw [kept] at held
    exact congrArg some held

end Answers

/-! ## Runs that do not give up -/

variable {ty : String} {injector : Injector} {ref : BindingRef} {o : ObjectRef} {h h' : Host}

/-- The type has no injector but this one. -/
def HasNoOther (h : Host) (ty : String) (injector : Injector) : Prop :=
  ∀ i, h.registry.injectors.find? ty = some i → i = injector

/-- What a run may have left of a host without giving up: the binding has not come to answer with
the object, unless the injector of the type turns out to be another one. -/
structure Spares (ty : String) (injector : Injector) (ref : BindingRef) (o : ObjectRef)
    (h h' : Host) : Prop where
  evolves : h.Evolves h'
  spares : h'.HasNoOther ty injector → h.registry.fallback = none → h'.Answers ref o →
    h.Answers ref o

lemma hasNoOther_of_find? (registered : h.registry.injectors.find? ty = some injector) :
    h.HasNoOther ty injector := by
  intro i other
  rw [registered] at other
  exact (Option.some.inj other).symm

lemma HasNoOther.of_evolves (evolves : h.Evolves h') (only : h'.HasNoOther ty injector) :
    h.HasNoOther ty injector :=
  fun i registered => only i (evolves.find?_injectors registered)

lemma rule_spares : Rule (Spares ty injector ref o) where
  refl h := ⟨.refl h, fun _ _ => id⟩
  trans first second := by
    refine ⟨first.evolves.trans second.evolves, fun only plain answers => ?_⟩
    refine first.spares (only.of_evolves second.evolves) plain (second.spares only ?_ answers)
    rw [first.evolves.fallback, plain]
  deed deed := ⟨.act (.deed deed), fun _ _ => answers_of_bindings deed.bindings⟩
  declare h c ty steps := ⟨law_evolves.declare h c ty steps, fun _ _ => answers_of_declareWith⟩
  call _ body := by
    refine ⟨((Evolves.act .enterCall).trans body.evolves).trans (.act .leaveCall), ?_⟩
    exact fun only plain answers => body.spares only plain answers

/-- Without a fallback, an injector is found if it is registered, and the host stays as it is. -/
lemma run_injectorOf?_of_plain (plain : h.registry.fallback = none) (ty : String) :
    (Run.injectorOf? ty).run h = some (.ok (h.registry.injectors.find? ty), h) := by
  rw [Run.injectorOf?, Run.run_get_bind]
  cases registered : h.registry.injectors.find? ty with
  | none =>
    simp only [registered, plain]
    rfl
  | some injector =>
    simp only [registered]
    rfl

/-- On a host without fallback, an instance has been filled by the injector that its type has when it
is made. -/
lemma not_event_of_makeUntil {event : Made → Prop} [DecidablePred event] {e : Engine}
    {c : ContainerRef} {b : Binding} {value : Value} (obeys : e.Obeys Evolves)
    (plain : h.registry.fallback = none)
    (run : (e.makeUntil event c ty ref b).run h = some (.ok value, h')) :
    ¬event ⟨ref, (h'.binding ref).scope, ty, h'.registry.injectors.find? ty, value⟩ := by
  obtain ⟨h₁, h₂, found, made, looked, filled, quiet⟩ := Engine.makeUntil_cases run
  have begun : h.Evolves h₁ := obeys.produce law_evolves.toRule c b made
  rw [run_injectorOf?_of_plain (begun.fallback.trans plain)] at looked
  cases looked
  rcases filled with ⟨none, rfl⟩ | ⟨i, found, injected⟩
  · exact quiet
  · have later : h₁.Evolves h' := obeys.runInjector law_evolves.toRule i value c injected
    rw [later.find?_injectors found, ← found]
    exact quiet

lemma evolves_untilLevel (event : Made → Prop) [DecidablePred event] (n : ℕ) :
    (Engine.untilLevel event n).Obeys Evolves :=
  Engine.obeys_untilLevel law_evolves.toRule
    (fun _ _ body settles _ => body.resolution settles) n

/-- The moments at which the binding comes to answer with the object, or the injector of the type has
completed on it. -/
def Decides (ty : String) (injector : Injector) (ref : BindingRef) (o : ObjectRef) (made : Made) :
    Prop :=
  made.Injects ty injector o ∨ made.Withholds ty ref o

/-- A run that has passed no such moment has not made the binding answer with the object. -/
lemma spares_untilLevel [DecidablePred (Decides ty injector ref o)] (n : ℕ) :
    (Engine.untilLevel (Decides ty injector ref o) n).Obeys (Spares ty injector ref o) := by
  refine Engine.obeys_untilLevel rule_spares (fun {e c ty' ref' r r₁ h h₁ h₂} obeys made body
    settles own => ⟨body.evolves.resolution settles, fun only plain answers => ?_⟩) n
  have evolves : e.Obeys Evolves :=
    ⟨fun _ _ _ _ _ _ run => (obeys.call _ _ _ _ run).evolves,
      fun _ _ _ _ _ run => (obeys.resolve _ _ _ run).evolves⟩
  -- before the resolution is settled, the binding does not answer with the object
  have before (only : h₁.HasNoOther ty injector) (answers : h₁.Answers ref o) :
      h.Answers ref o := answers_of_enterProduction (body.spares only plain answers)
  have answers := answers_of_leaveProduction answers
  rcases eq_or_eq_hold_of_settles settles with rfl | ⟨value, rfl, single, rfl⟩
  · exact before only answers
  have only : h₁.HasNoOther ty injector := only
  rcases answers_of_hold answers with answers | ⟨rfl, rfl⟩
  · exact before only answers
  · -- it would come to answer at this moment, which is one to give up at
    rw [own _ rfl] at made
    have inside : (h.enterProduction c ref').registry.fallback = none := plain
    refine absurd ?_ (not_event_of_makeUntil evolves inside made)
    by_cases other : ty' = ty
    · subst other
      cases registered : h₁.registry.injectors.find? ty' with
      | none => exact .inr ⟨rfl, single, rfl, .inr rfl⟩
      | some i => exact .inl ⟨rfl, congrArg some (only i registered), rfl⟩
    · exact .inr ⟨rfl, single, rfl, .inl other⟩

/-- Loading a module leaves the bindings alone. -/
lemma bindings_of_load {m : Module} {r : Except HostError LoadReport}
    (run : (load m).run h = some (r, h')) : h'.bindings = h.bindings := by
  rcases run_load m h with ⟨e, refused⟩ | ⟨hooks, -, -, r', h₁, hooked, -, report, loaded⟩
  · rw [refused] at run
    cases run
    rfl
  · rw [loaded] at run
    cases run
    exact (Engine.secluded_of_runHooks hooked).1.bindings

/-- An operation that has not given up has not made the binding answer with the object. -/
lemma Operation.spares [DecidablePred (Decides ty injector ref o)] {op : Operation} {n : ℕ}
    {r : Except HostError Unit}
    (early : ∀ ref step, op = .configure ref step → (h.binding ref).resolved = false)
    (run : (op.performOn (Engine.untilLevel (Decides ty injector ref o) n)).run h
      = some (r, h')) : Spares ty injector ref o h h' := by
  have evolves : h.Evolves h' := Operation.evolves (Operation.run_perform_of_until run)
  have obeys : (Engine.untilLevel (Decides ty injector ref o) n).Obeys (Spares ty injector ref o) :=
    spares_untilLevel n
  have rule : Rule (Spares ty injector ref o) := rule_spares
  cases op with
  | addContainer =>
    cases run
    exact ⟨evolves, fun _ _ => id⟩
  | bind c ty =>
    cases run
    refine ⟨evolves, fun _ _ answers => ?_⟩
    have declared : (h.declareWith c ty []).Answers ref o := answers
    exact answers_of_declareWith declared
  | configure ref' step =>
    cases run
    refine ⟨evolves, fun _ _ answers => ?_⟩
    have resolved := answers.1
    rw [resolved_configureStep] at resolved
    have other : ref' ≠ ref := by
      rintro rfl
      rw [early ref' step rfl] at resolved
      cases resolved
    rwa [Answers, binding_configureStep_of_ne other] at answers
  | load m =>
    obtain ⟨r, loaded⟩ := Run.exists_run_of_drop run
    exact ⟨evolves, fun _ _ => answers_of_bindings (bindings_of_load loaded)⟩
  | resolve c ty => exact rule.bind (obeys.resolve h c ty) (fun _ _ => rule.pure _) run
  | tryResolve c ty => exact rule.bind (obeys.tryResolve rule c ty) (fun _ _ => rule.pure _) run
  | inject c value => exact obeys.inject rule c value run
  | tryInject c value =>
    exact rule.bind (rule.orNone (obeys.inject rule c value)) (fun _ _ => rule.pure _) run
  | invoke owner method args =>
    exact rule.bind (obeys.invoke rule owner method args) (fun _ _ => rule.pure _) run
  | registerFactory ty factory => exact rule.registerFactory ty factory run
  | registerInjector ty injector => exact rule.registerInjector ty injector run
  | keep name value =>
    cases run
    exact ⟨evolves, fun _ _ => id⟩
  | takeOutput =>
    cases run
    exact ⟨evolves, fun _ _ => id⟩

lemma Performs.evolves {ops : List Operation} (performs : Performs h ops h') : h.Evolves h' := by
  induction performs with
  | nil h => exact .refl h
  | cons _ run _ ih => exact (Operation.evolves run).trans ih

/-- Operations that have not given up have come to their end, and have not made the binding answer
with the object. -/
lemma Performs.spares [DecidablePred (Decides ty injector ref o)] {ops : List Operation} {n : ℕ}
    {r : Except HostError Unit} {g : Host} (performs : Performs h ops h')
    (run : (performAllOn (Engine.untilLevel (Decides ty injector ref o) n) ops).run h
      = some (r, g)) : Spares ty injector ref o h h' := by
  induction performs with
  | nil h => exact rule_spares.refl h
  | @cons h h₁ h₂ op rest r' early ended later ih =>
    rw [performAllOn, Run.run_bind, Run.run_attempt] at run
    rcases outcome : (op.performOn (Engine.untilLevel (Decides ty injector ref o) n)).run h with
      _ | ⟨r₁, g₁⟩
    · rw [outcome] at run
      cases run
    · rw [outcome] at run
      -- the operation has ended as it does in the run without giving up
      have same := Operation.run_perform_of_until outcome
      rw [ended] at same
      cases same
      exact rule_spares.trans (Operation.spares early outcome) (ih run)

/-! ## Answers -/

variable {c : ContainerRef}

/-- A resolution that makes an instance passes the moment at which the injector of the type has
completed on it. -/
lemma passes_of_unresolved (plain : h.registry.fallback = none)
    (answered : (resolve c ty).run h = some (.ok (.object o), h'))
    (registered : h'.registry.injectors.find? ty = some injector)
    (found : h.bindingFor? c ty = some ref) (unresolved : (h.binding ref).resolved = false) :
    h.Passes [.resolve c ty] (·.Injects ty injector o) := by
  intro decidable n
  by_contra ends
  obtain ⟨⟨r, g⟩, run⟩ := Option.ne_none_iff_exists'.1 ends
  have agree := Engine.agree_untilLevel (fun made => made.Injects ty injector o) n
  obtain ⟨r, run⟩ := Run.exists_run_of_drop run
  rw [Run.run_attempt, Option.map_eq_some_iff] at run
  obtain ⟨⟨r, g⟩, run, same⟩ := run
  cases same
  obtain ⟨r, run⟩ := Run.exists_run_of_drop run
  -- the resolution ends as it does, and makes the object
  have whole := ((agree.resolve h c ty).same run).1.symm.trans answered
  cases whole
  cases n with
  | zero => cases run
  | succ n =>
    rcases Engine.resolveUntil_cases run with
      ⟨rfl, answers⟩ | ⟨ref', r₁, h₁, h₂, found', -, made, settles, own, rfl⟩
    · obtain ⟨ref', found', resolved, -⟩ := answers _ rfl
      rw [found] at found'
      cases found'
      rw [unresolved] at resolved
      cases resolved
    · rw [own _ rfl] at made
      have inside : (h.enterProduction c ref').registry.fallback = none := plain
      have same : h₁.registry = h₂.registry := by
        rcases eq_or_eq_hold_of_settles settles with rfl | ⟨value, -, -, rfl⟩ <;> rfl
      have known : h₁.registry.injectors.find? ty = some injector := by
        rw [same]
        exact registered
      exact not_event_of_makeUntil (evolves_untilLevel _ n) inside made ⟨rfl, known, rfl⟩

/-- If a binding answers with an object after some operations, they have passed the moment at which
the injector of the type has completed on it, or at which the binding was to hold it without. -/
lemma passes_of_answers {config : HostConfig} (plain : config.fallback = false)
    {ops : List Operation} (performs : Performs (Host.new config) ops h)
    (only : h.HasNoOther ty injector) (answers : h.Answers ref o) :
    (Host.new config).Passes ops (Decides ty injector ref o) := by
  intro decidable n
  by_contra ends
  obtain ⟨⟨r, g⟩, run⟩ := Option.ne_none_iff_exists'.1 ends
  have unused : (Host.new config).registry.fallback = none := by rw [Host.new, plain]; rfl
  -- at first no binding is resolved
  have first : ((Host.new config).binding ref).resolved = true :=
    ((performs.spares run).spares only unused answers).1
  have none : (Host.new config).binding ref = default := binding_of_size_le (Nat.zero_le _)
  rw [none] at first
  cases first

/-- Whenever a resolution answers with an object, and the type has an injector by then: if the
binding has made it just now, the injector has completed on it. If the binding held it before, an
earlier operation has passed the moment at which the injector of the type has completed on it, or at
which the binding was to hold it from then on without that. -/
theorem passes_of_resolve {config : HostConfig} (plain : config.fallback = false)
    {ops : List Operation} (performs : Performs (Host.new config) ops h)
    (answered : (resolve c ty).run h = some (.ok (.object o), h'))
    (registered : h'.registry.injectors.find? ty = some injector) :
    ∃ ref, h.bindingFor? c ty = some ref ∧
      ((h.binding ref).resolved = false →
        h.Passes [.resolve c ty] (·.Injects ty injector o)) ∧
      ((h.binding ref).resolved = true → (Host.new config).Passes ops
        fun made => made.Injects ty injector o ∨ made.Withholds ty ref o) := by
  have whole := answered
  rw [resolve_eq] at whole
  rcases Engine.resolve_cases whole with
    ⟨rfl, answers⟩ | ⟨ref, r₁, h₁, h₂, found, -, unresolved, -⟩
  · obtain ⟨ref, found, resolved, held⟩ := answers _ rfl
    refine ⟨ref, found, fun unresolved => ?_, fun _ => ?_⟩
    · rw [resolved] at unresolved
      cases unresolved
    · exact passes_of_answers plain performs (hasNoOther_of_find? registered)
        (answers_of_getD resolved held)
  · refine ⟨ref, found, fun _ => ?_, fun resolved => ?_⟩
    · have unused : h.registry.fallback = none := by
        rw [performs.evolves.fallback, Host.new, plain]
        rfl
      exact passes_of_unresolved unused answered registered found unresolved
    · rw [unresolved] at resolved
      cases resolved

/-! ### Rooms of an inn -/

/-- A module with a class that has a marked field, a class that extends it, and a class whose
constructor registers an injector for the latter. -/
def inn : Module :=
  { name := "Inn"
    references := [supportModule]
    types :=
      [(TypeDef.newClass (Uuid.numbered 1) "Inn.Room").addField
          (Field.injected (Uuid.numbered 2) "sign" stringType),
        ((TypeDef.newClass (Uuid.numbered 3) "Inn.Suite").extending "Inn.Room").addConstructor
          (((Method.newConstructor (Uuid.numbered 4)).mark .inject).addInstr .ret),
        ((TypeDef.newClass (Uuid.numbered 5) "Inn.Clerk").addMethod
            { Method.newStatic (Uuid.numbered 6) "Air" with
              visibility := .everywhere
              params := [⟨"suite", "Inn.Suite"⟩, ⟨"container", containerType⟩]
              body := [.loadConst (.text "aired"), .print, .ret] }).addConstructor
          (((Method.newConstructor (Uuid.numbered 7)).mark .inject).withBody
            [.loadMethod "Inn.Clerk" (Uuid.numbered 6), .register .injector "Inn.Suite",
              .ret])] }

/-- The module after its weave. -/
def wovenInn : Module := wovenBy {} inn

/-- Loads the module and binds a text and its classes in a container, each to one instance. The rooms
are suites. -/
def checkIn : List Operation :=
  [.load wovenInn, .addContainer,
    .bind ⟨0⟩ stringType, .configure ⟨0⟩ (.fromInstance (.fixed (.text "Garden"))),
    .bind ⟨0⟩ "Inn.Clerk", .configure ⟨1⟩ .asSingleton,
    .bind ⟨0⟩ "Inn.Room", .configure ⟨2⟩ (.madeAs "Inn.Suite"), .configure ⟨2⟩ .asSingleton]

/-- The identifiers that the weave draws. -/
def innIds : WeaveIds where
  entry
    | .factory, "Inn.Suite" => Uuid.numbered 100
    | .factory, _ => Uuid.numbered 101
    | .injector, _ => Uuid.numbered 102
  registrar := Uuid.numbered 103
  bake := Uuid.numbered 104

/-- The types of the module after its weave. -/
def innTypes : List TypeDef :=
  inn.types.map (Module.rewovenType innIds) ++ [inn.registrar {} innIds]

/-- The injector that the weave adds for rooms. -/
def roomInjector : Injector := .woven ⟨"Inn.Room", Uuid.numbered 102⟩

/-- The host after that. -/
def reception : Host :=
  { modules := ["Inn"]
    types := innTypes.map fun t => ⟨"Inn", t⟩
    registry :=
      { factories :=
          [("Inn.Suite", .woven ⟨"Inn.Suite", Uuid.numbered 100⟩),
            ("Inn.Clerk", .woven ⟨"Inn.Clerk", Uuid.numbered 101⟩)]
        injectors := [("Inn.Room", roomInjector)] }
    containers := #[{ bindings := [(stringType, ⟨0⟩), ("Inn.Clerk", ⟨1⟩), ("Inn.Room", ⟨2⟩)] }]
    bindings :=
      #[{ requested := stringType, concrete := stringType, scope := .singleton,
          held := some (.text "Garden") },
        { requested := "Inn.Clerk", concrete := "Inn.Clerk", scope := .singleton },
        { requested := "Inn.Room", concrete := "Inn.Suite", scope := .singleton }] }

/-- Loading does not look at the stamp. -/
lemma load_wovenInn : load wovenInn = load { inn with types := innTypes } := by
  -- the digest in the stamp need not be computed
  have same : { wovenInn with stamp := none } = { inn with types := innTypes } := by
    decide +kernel
  rw [← same]
  rfl

lemma performs_checkIn : Performs (Host.new {}) checkIn reception := by
  refine performs_of_performs? ?_
  simp only [checkIn, performs?, Operation.perform, load_wovenInn]
  rfl

/-- What a resolution answers with after operations, if it is an object whose type has an injector
of a module by then: whether the binding was resolved before, the object and the injector. -/
def answer? (h : Host) (ops : List Operation) (c : ContainerRef) (ty : String) :
    Option (Bool × ObjectRef × MethodHandle) := do
  let h₁ ← h.performs? ops
  let ref ← h₁.bindingFor? c ty
  let (r, h') ← (resolve c ty).run h₁
  match r, h'.registry.injectors.find? ty with
  | .ok (.object o), some (.woven handle) => return ((h₁.binding ref).resolved, o, handle)
  | _, _ => none

lemma exists_of_answer? {ops : List Operation} {held : Bool} {handle : MethodHandle}
    (answer : h.answer? ops c ty = some (held, o, handle)) :
    ∃ h₁ h' ref, Performs h ops h₁ ∧ h₁.bindingFor? c ty = some ref ∧
      (h₁.binding ref).resolved = held ∧ (resolve c ty).run h₁ = some (.ok (.object o), h') ∧
      h'.registry.injectors.find? ty = some (.woven handle) := by
  obtain ⟨h₁, performs, answer⟩ := Option.bind_eq_some_iff.1 answer
  obtain ⟨ref, found, answer⟩ := Option.bind_eq_some_iff.1 answer
  obtain ⟨⟨r, h'⟩, run, answer⟩ := Option.bind_eq_some_iff.1 answer
  dsimp only at answer
  split at answer
  next _ _ _ _ registered =>
    cases answer
    exact ⟨h₁, h', ref, performs_of_performs? performs, found, rfl, run, registered⟩
  next => cases answer

/-- A suite that is asked for as a room at first is filled at once, and has been filled when it is
asked for again. -/
theorem passes_inn :
    (∃ h h' o, Performs (Host.new {}) checkIn h ∧
      (resolve ⟨0⟩ "Inn.Room").run h = some (.ok (.object o), h') ∧
      h.Passes [.resolve ⟨0⟩ "Inn.Room"] (·.Injects "Inn.Room" roomInjector o)) ∧
    ∃ h h' o ref, Performs (Host.new {}) (checkIn ++ [.resolve ⟨0⟩ "Inn.Room"]) h ∧
      (resolve ⟨0⟩ "Inn.Room").run h = some (.ok (.object o), h') ∧
      h.bindingFor? ⟨0⟩ "Inn.Room" = some ref ∧
      (Host.new {}).Passes (checkIn ++ [.resolve ⟨0⟩ "Inn.Room"]) fun made =>
        made.Injects "Inn.Room" roomInjector o ∨ made.Withholds "Inn.Room" ref o := by
  have first : reception.answer? [] ⟨0⟩ "Inn.Room"
      = some (false, ⟨0⟩, ⟨"Inn.Room", Uuid.numbered 102⟩) := by
    decide +kernel
  have again : reception.answer? [.resolve ⟨0⟩ "Inn.Room"] ⟨0⟩ "Inn.Room"
      = some (true, ⟨0⟩, ⟨"Inn.Room", Uuid.numbered 102⟩) := by
    decide +kernel
  refine ⟨?_, ?_⟩
  · obtain ⟨h, h', ref, performs, found, unresolved, answered, registered⟩ := exists_of_answer? first
    have performs := performs_checkIn.append performs
    obtain ⟨ref', found', passes, -⟩ := passes_of_resolve rfl performs answered registered
    rw [List.append_nil] at performs
    rw [found] at found'
    cases found'
    exact ⟨h, h', _, performs, answered, passes unresolved⟩
  · obtain ⟨h, h', ref, performs, found, resolved, answered, registered⟩ := exists_of_answer? again
    have performs := performs_checkIn.append performs
    obtain ⟨ref', found', -, passes⟩ := passes_of_resolve rfl performs answered registered
    rw [found] at found'
    cases found'
    exact ⟨h, h', _, ref, performs, answered, found, passes resolved⟩

/-! ### Answers without injection -/

/-- After the operations, a resolution answers with an object. The type has an injector by then, but
neither they nor the resolution have passed a moment at which it has completed on the object. -/
def AnswersUninjected (h : Host) (ops : List Operation) (c : ContainerRef) (ty : String) : Prop :=
  ∃ h₁ h' o injector, Performs h ops h₁ ∧ (resolve c ty).run h₁ = some (.ok (.object o), h') ∧
    h'.registry.injectors.find? ty = some injector ∧
    ¬h.Passes (ops ++ [.resolve c ty]) (·.Injects ty injector o)

/-- The operations up to the reception run no code by the engine. -/
lemma run_performAllOn_checkIn (e : Engine) :
    (performAllOn e checkIn).run (Host.new {}) = some (.ok ⟨⟩, reception) := by
  simp only [checkIn, performAllOn, Operation.performOn, Operation.perform, load_wovenInn]
  rfl

/-- Without a moment at which the injector has completed on the answer, an engine that gives up at
such moments comes to the end. -/
lemma answersUninjected_of_answer? {ops : List Operation} {held : Bool} {handle : MethodHandle}
    (n : ℕ) (answer : reception.answer? ops ⟨0⟩ ty = some (held, o, handle))
    (ends : ((performAllOn (Engine.untilLevel (·.Injects ty (.woven handle) o) n)
      (ops ++ [.resolve ⟨0⟩ ty])).run reception).isSome = true) :
    (Host.new {}).AnswersUninjected (checkIn ++ ops) ⟨0⟩ ty := by
  obtain ⟨h, h', ref, performs, -, -, answered, registered⟩ := exists_of_answer? answer
  refine ⟨h, h', o, _, performs_checkIn.append performs, answered, registered, fun passes => ?_⟩
  have given := passes inferInstance n
  rw [List.append_assoc, performAllOn_append, Run.run_bind_of_ok (run_performAllOn_checkIn _)]
    at given
  rw [given] at ends
  cases ends

/-- A suite that was asked for as a suite is not filled when it is asked for as a room, although the
module was woven. Nor is it filled when it is asked for after an injector for suites was
registered. -/
theorem exists_uninjected :
    (∃ report supply', inn.weave {} lampIds = .ok (.woven report, wovenInn, supply')) ∧
    (Host.new {}).AnswersUninjected (checkIn ++ [.resolve ⟨0⟩ "Inn.Suite"]) ⟨0⟩ "Inn.Room" ∧
    (Host.new {}).AnswersUninjected
      (checkIn ++ [.resolve ⟨0⟩ "Inn.Suite", .resolve ⟨0⟩ "Inn.Clerk"]) ⟨0⟩ "Inn.Suite" := by
  have asRoom : reception.answer? [.resolve ⟨0⟩ "Inn.Suite"] ⟨0⟩ "Inn.Room"
      = some (true, ⟨0⟩, ⟨"Inn.Room", Uuid.numbered 102⟩) := by
    decide +kernel
  have afterwards : reception.answer? [.resolve ⟨0⟩ "Inn.Suite", .resolve ⟨0⟩ "Inn.Clerk"] ⟨0⟩
      "Inn.Suite" = some (true, ⟨0⟩, ⟨"Inn.Clerk", Uuid.numbered 6⟩) := by
    decide +kernel
  refine ⟨⟨_, _, rfl⟩, ?_, ?_⟩
  · exact answersUninjected_of_answer? 9 asRoom (by decide +kernel)
  · exact answersUninjected_of_answer? 9 afterwards (by decide +kernel)

end Host
end Weaver
