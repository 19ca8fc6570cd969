import Weaver.Proofs.Weave.Fallback

/-!
# Resolution by woven code and by introspection

Where a host with the woven module runs a synthesized factory, a host with the fallback reads the
constructor of the loaded type and resolves its parameters by itself; where one runs a synthesized
injector, the other fills the fields by itself. Both run the same constructors in the same order, and
they nest resolutions in the same way, but the woven host is one call deeper in each factory and
injector. So whatever ends well on the woven host ends well on the other one.

Three things live here:

* `Module.Serves`, by which an engine on the woven host is followed, one lemma for each function of
  the engine that takes part in a resolution, and `serves_ofLevel`, for engines of every level;
* `Request`, what embedding code asks for, and hosts with bindings that it has declared;
* `exists_answers_of_woven`, for hosts that have loaded the module and its weave.
-/

namespace Weaver

open Host Engine

namespace Module

variable {m : Module} {options : WeaveOptions} {ids : WeaveIds} {supply : IdSupply} {h g : Host}
  {e : Engine}

/-! ## Engines that are followed -/

/-- What an engine does on the woven host is followed: its calls and resolutions, and where it runs
synthesized factories and injectors, what introspection does in their place. -/
structure Serves (m : Module) (options : WeaveOptions) (ids : WeaveIds) (e : Engine) : Prop extends
    (m.introspecting options ids).Follows e unlimited where
  factory {h g : Host} {t : TypeDef} : (m.introspecting options ids).Match h g →
    t ∈ m.types → t.gets .factory = true → ∀ c,
    (m.introspecting options ids).FollowedAt h g
      (e.runFactory (.woven ⟨t.name, ids.entry .factory t.name⟩) c)
      (unlimited.runFactory (.introspected t.name) c)
  injector {h g : Host} {t : TypeDef} : (m.introspecting options ids).Match h g →
    t ∈ m.types → t.gets .injector = true → ∀ value c,
    (m.introspecting options ids).FollowedAt h g
      (e.runInjector (.woven ⟨t.name, ids.entry .injector t.name⟩) value c)
      (unlimited.runInjector (.introspected t.name (t.markedFields.map fun f => (f.name, f.ty)))
        value c)

section Next

variable (serves : m.Serves options ids e) (sound : (m.introspecting options ids).Sound)
  (names : m.Unambiguous) (proper : m.Introspectable) (new : supply.NewTo m)
  (drawn : ids.inOrder m = supply.next m.idsNeeded)
  (same : (m.introspecting options ids).Match h g)

include names same in
lemma find?_leading {t : TypeDef} (member : t ∈ m.types) :
    h.types.find? t.name = some ⟨m.name, rewovenType ids t⟩ := by
  rw [same.leading]
  exact find?_rewoven_of_some (find?_key_of_mem TypeDef.name names.types member)

include serves sound same in
/-- Where the woven host assembles an instance, introspection finds the same arguments and runs the
same constructor. -/
lemma Serves.constructFirst (c : ContainerRef) (ty : String) (ctor : Method) :
    (m.introspecting options ids).FollowedAt h g (e.assemble c ty ctor)
      (unlimited.constructFirst ty c [ctor]) := by
  intro value h' ok _
  rw [Engine.assemble, Run.run_bind_eq_ok_iff] at ok
  obtain ⟨values, h₁, resolved, constructed⟩ := ok
  obtain ⟨g₁, run₁, same₁⟩ := serves.toFollows.probe loud_introspecting same c ctor.params
    (some values) h₁ (Run.run_bind_of_ok resolved) trivial
  obtain ⟨g₂, run₂, same₂⟩ := serves.toFollows.construct sound same₁ ty ctor.id values value h'
    constructed trivial
  refine ⟨g₂, ?_, same₂⟩
  rw [Engine.constructFirst]
  exact (Run.run_bind_of_ok run₁).trans run₂

section Synthesized

include serves names new drawn same

include sound proper in
/-- A synthesized factory, one level up. -/
lemma Serves.factoryNext {t : TypeDef} (member : t ∈ m.types) (gets : t.gets .factory = true)
    (c : ContainerRef) :
    (m.introspecting options ids).FollowedAt h g
      (e.next.runFactory (.woven ⟨t.name, ids.entry .factory t.name⟩) c)
      (unlimited.runFactory (.introspected t.name) c) := by
  obtain ⟨ctor, own, hctor⟩ := proper.constructors t member (TypeDef.isInterface_of_gets gets)
  have marked : t.markedConstructor? = some ctor := by
    rw [TypeDef.markedConstructor?, own]
    simp [hctor]
  have unused := WeaveIds.entry_not_mem_ids new.toFreshFor drawn member gets
  have found := find?_leading names same member
  have method := TypeDef.member?_rewoven_factory _ (ids.entry .injector t.name) gets marked unused
  have declared := TypeDef.constructor?_rewoven_of_marked (ids.entry .factory t.name)
    (ids.entry .injector t.name) (names.constructors t member) gets marked
  -- the woven host calls the factory, which assembles an instance
  intro value h' ok _
  rw [Engine.runFactory, Run.run_bind_eq_ok_iff] at ok
  obtain ⟨result, h₁, invoked, ok⟩ := ok
  rw [run_invokeHandle found method] at invoked
  obtain ⟨-, -, h₂, executed, rfl⟩ := exists_execute_of_call invoked
  have assembled := (run_execute_factory (h := h.enterCall) serves.traced found declared rfl rfl).symm
    |>.trans executed
  rw [Run.run_bind_eq_ok_iff] at assembled
  obtain ⟨made, h₃, assembled, last⟩ := assembled
  cases last
  cases ok
  -- the other host does it by itself, one call less deep
  obtain ⟨g', run, same'⟩ := serves.constructFirst sound same.enterCall_left c t.name ctor value h₂
    assembled trivial
  have left := serves.traced.history (fun e => e.assemble c t.name ctor)
    (fun agree => .bind (.mapM (fun p h => agree.resolve h c p.ty) _)
      fun values _ => agree.construct _ _ values) assembled
  have right := traced_unlimited.history (fun e => e.constructFirst t.name c [ctor])
    (fun agree => agree.constructFirst _ c _) run
  refine ⟨g', ?_, same.leaveCall_left left.keeps right.keeps same'⟩
  have unwoven : g.typeDef? t.name = some t := by
    rw [typeDef?_eq same.following]
    exact find?_key_of_mem TypeDef.name names.types member
  rw [Engine.runFactory, Run.run_get_bind, unwoven]
  simp only [own, List.isEmpty_cons, Bool.false_eq_true, if_false]
  exact run

/-- A synthesized injector, one level up. -/
lemma Serves.injectorNext {t : TypeDef} (member : t ∈ m.types) (gets : t.gets .injector = true)
    (value : Value) (c : ContainerRef) :
    (m.introspecting options ids).FollowedAt h g
      (e.next.runInjector (.woven ⟨t.name, ids.entry .injector t.name⟩) value c)
      (unlimited.runInjector (.introspected t.name (t.markedFields.map fun f => (f.name, f.ty)))
        value c) := by
  have unused := WeaveIds.entry_not_mem_ids new.toFreshFor drawn member gets
  have apart := fun factory => WeaveIds.factory_ne_injector new.toFreshFor drawn member factory gets
  have found := find?_leading names same member
  have method := TypeDef.member?_rewoven_injector (ids.entry .factory t.name) _ gets unused apart
  obtain ⟨-, marked⟩ := TypeDef.gets_injector_iff.1 gets
  obtain ⟨field, rest, fields⟩ := List.exists_cons_of_ne_nil marked
  -- the woven host calls the injector, whose body fills the fields of an object
  intro u h' ok _
  rw [Engine.runInjector, Run.run_bind_eq_ok_iff] at ok
  obtain ⟨result, h₁, invoked, last⟩ := ok
  cases last
  rw [run_invokeHandle found method] at invoked
  obtain ⟨-, -, h₂, executed, rfl⟩ := exists_execute_of_call invoked
  obtain ⟨stack, body, -⟩ := run_execute_eq_ok_iff.1 executed
  have emitted : t.markedFields.flatMap (assignField t.name) ++ [.ret]
      = assignField t.name field ++ (rest.flatMap (assignField t.name) ++ [.ret]) := by
    rw [fields, List.flatMap_cons, List.append_assoc]
  have body : (e.runBody ⟨⟨m.name, rewovenType ids t⟩, _, [value, .container c]⟩ []
      (t.markedFields.flatMap (assignField t.name) ++ [.ret])).run h.enterCall
        = some (.ok stack, h₂) := body
  have first := body
  rw [emitted] at first
  obtain ⟨ref, -, -, -, rfl, -, -, -⟩ := of_assignField rfl first
  have filled := of_assignFields rfl body
  -- the other host does it by itself, one call less deep
  obtain ⟨g', run, same'⟩ := serves.toFollows.fillFields loud_introspecting same.enterCall_left
    t.name ref c _ ⟨⟩ h₂ filled trivial
  have left := serves.traced.history (fun e => e.fillFields t.name ref c _)
    (fun agree => agree.fillFields _ _ c _) filled
  have right := traced_unlimited.history (fun e => e.fillFields t.name ref c _)
    (fun agree => agree.fillFields _ _ c _) run
  exact ⟨g', run, same.leaveCall_left left.keeps right.keeps same'⟩

end Synthesized

/-! ### Resolutions -/

section Resolutions

include sound same in
lemma followedAt_checkInstance (value : Value) (ty : String) :
    (m.introspecting options ids).FollowedAt h g (checkInstance value ty)
      (checkInstance value ty) := by
  refine .get_bind ?_
  rw [same.isInstance sound]
  cases h.isInstance value ty with
  | false => exact .of_error rfl
  | true => exact .of_pure same rfl rfl

include same in
lemma followedAt_settle (ref : BindingRef) (produced : Value) :
    (m.introspecting options ids).FollowedAt h g (settle ref produced) (settle ref produced) := by
  refine .get_bind ?_
  have binding : g.binding ref = h.binding ref := by
    rw [Host.binding, Host.binding, bindings_eq same]
  dsimp only
  rw [binding]
  cases (h.binding ref).scope with
  | unset => exact .of_error rfl
  | singleton =>
    intro u h' ok _
    cases ok
    exact ⟨_, rfl, match_updateBinding same ref fun _ none => none⟩
  | transient => exact .of_pure same rfl rfl

include serves names same

/-- The factories that the hosts find for a type do the same. -/
lemma Serves.ofFactory (c : ContainerRef) (ty : String) :
    (m.introspecting options ids).FollowedAt h g
      (Run.factoryOf ty >>= fun factory => e.runFactory factory c)
      (Run.factoryOf ty >>= fun factory => unlimited.runFactory factory c) := by
  intro value h' ok _
  rw [Run.run_bind_eq_ok_iff] at ok
  obtain ⟨factory, h₁, found, ok⟩ := ok
  obtain ⟨rfl, t, member, gets, rfl, rfl⟩ := of_factoryOf same found
  obtain ⟨g₁, run₁, same₁⟩ := exists_run_factoryOf same names member gets
  obtain ⟨g₂, run₂, same₂⟩ := serves.factory same₁ member gets c value h' ok trivial
  exact ⟨g₂, (Run.run_bind_of_ok run₁).trans run₂, same₂⟩

lemma Serves.produce (c : ContainerRef) {b : Binding} (unsupplied : b.factory = none) :
    (m.introspecting options ids).FollowedAt h g (e.produce c b) (unlimited.produce c b) := by
  cases held : b.held with
  | some value =>
    simp only [Engine.produce, held]
    exact .of_pure same rfl rfl
  | none =>
    simp only [Engine.produce, held, unsupplied]
    exact serves.ofFactory names same c b.concrete

include sound proper

lemma Serves.resolveBinding (c : ContainerRef) (ty : String) (ref : BindingRef) :
    (m.introspecting options ids).FollowedAt h g (e.resolveBinding c ty ref)
      (unlimited.resolveBinding c ty ref) := by
  refine .get_bind ?_
  have binding : g.binding ref = h.binding ref := by
    rw [Host.binding, Host.binding, bindings_eq same]
  dsimp only
  rw [binding]
  -- both hosts decide by the same binding
  by_cases resolved : (h.binding ref).resolved
  · rw [if_pos resolved, if_pos resolved]
    exact .bind loud_introspecting (followedAt_checkInstance sound same _ ty) fun _ _ _ same =>
      .of_pure same rfl rfl
  rw [if_neg resolved, if_neg resolved]
  refine .check fun _ => ?_
  refine .between loud_introspecting
    (fun same => match_updateBinding same ref fun _ none => none) ?_
  have same := match_updateBinding same ref (f := fun b => { b with producing := true })
    fun _ none => none
  refine .bind loud_introspecting (serves.produce names same c (factory_binding ‹_› ref))
    fun produced _ _ same => ?_
  refine .bind loud_introspecting (followedAt_checkInstance sound same produced ty)
    fun _ _ _ same => ?_
  -- the injector is that of the requested type, and both hosts have it or neither
  refine followedAt_injectorOf? same names proper ty (fun _ same => ?_)
    fun t member gets named _ same => ?_
  · exact .bind loud_introspecting (followedAt_settle same ref produced) fun _ _ _ same =>
      .of_pure same rfl rfl
  · exact .bind loud_introspecting (serves.injector same member gets produced c)
      fun _ _ _ same => .bind loud_introspecting (followedAt_settle same ref produced)
        fun _ _ _ same => .of_pure same rfl rfl

lemma Serves.resolveNext (c : ContainerRef) (ty : String) :
    (m.introspecting options ids).FollowedAt h g (e.resolveNext c ty)
      (unlimited.resolveNext c ty) := by
  refine .get_bind ?_
  have depth : (g.container c).depth = (h.container c).depth := by
    rw [container, container, containers_eq same]
  rw [depth]
  refine .check fun _ => ?_
  refine .between loud_introspecting (fun same => match_updateContainer same c _) (.get_bind ?_)
  have same := match_updateContainer same c fun c => { c with depth := c.depth + 1 }
  rw [bindingFor?_eq same]
  cases (h.updateContainer c fun c => { c with depth := c.depth + 1 }).bindingFor? c ty with
  | none => exact .of_error rfl
  | some ref => exact serves.resolveBinding sound names proper same c ty ref

end Resolutions

end Next

/-! ### Every level -/

/-- Without levels, nothing is invoked. -/
lemma invokeHandle_ofLevel_zero {handle : MethodHandle} {args : List Value} {h' : Host}
    {result : Option Value} :
    ((ofLevel 0).invokeHandle handle args).run h ≠ some (.ok result, h') := by
  intro ok
  rw [Engine.invokeHandle, Run.run_get_bind] at ok
  split at ok
  · split at ok
    · cases ok
    · cases ok
  · cases ok

/-- Engines of every level are followed. -/
theorem serves_ofLevel (names : m.Unambiguous) (proper : m.Introspectable) (new : supply.NewTo m)
    (drawn : ids.inOrder m = supply.next m.idsNeeded) (n : ℕ) :
    m.Serves options ids (ofLevel n) := by
  have sound : (m.introspecting options ids).Sound := sound_introspecting names proper new drawn
  induction n with
  | zero =>
    refine { Pairing.follows_ofLevel_zero _ with factory := ?_, injector := ?_ }
    · intro h g t _ _ _ c value h' ok _
      rw [Engine.runFactory, Run.run_bind_eq_ok_iff] at ok
      obtain ⟨result, h₁, invoked, -⟩ := ok
      exact absurd invoked invokeHandle_ofLevel_zero
    · intro h g t _ _ _ value c u h' ok _
      rw [Engine.runInjector, Run.run_bind_eq_ok_iff] at ok
      obtain ⟨result, h₁, invoked, -⟩ := ok
      exact absurd invoked invokeHandle_ofLevel_zero
  | succ n ih =>
    refine { traced := traced_ofLevel (n + 1), call := ?_, resolve := ?_, factory := ?_, injector := ?_ }
    · intro h g t c t' c' same twin args
      rw [← next_unlimited]
      exact ih.toFollows.callNext sound same twin args
    · intro h g same c ty
      rw [← next_unlimited]
      exact ih.resolveNext sound names proper same c ty
    · intro h g t same member gets c
      exact ih.factoryNext sound names proper new drawn same member gets c
    · intro h g t same member gets value c
      exact ih.injectorNext names new drawn same member gets value c

/-- Filling the fields of an object is followed as well. -/
lemma Serves.inject (serves : m.Serves options ids e) (names : m.Unambiguous)
    (proper : m.Introspectable) (same : (m.introspecting options ids).Match h g)
    (c : ContainerRef) (value : Value) :
    (m.introspecting options ids).FollowedAt h g (e.inject c value) (unlimited.inject c value) := by
  cases value with
  | object ref =>
    refine .get_bind ?_
    rw [same.object]
    exact followedAt_injectorOf? same names proper _ (fun _ same => .of_pure same rfl rfl)
      fun t member gets _ _ same => serves.injector same member gets (.object ref) c
  | _ => exact .of_pure same rfl rfl

end Module

/-! ## Requests of embedding code -/

/-- What embedding code asks a container for. -/
inductive Request where
  /-- To resolve a type. -/
  | resolve (ty : String)
  /-- To fill the fields of an object. -/
  | inject (value : Value)

/-- Answers a request: with the instance of a type, or with nothing but filled fields. -/
def Request.answer (c : ContainerRef) : Request → Run (Option Value)
  | .resolve ty => do
    let value ← Host.resolve c ty
    return some value
  | .inject value => do
    Host.inject c value
    return none

/-- A step in the configuration of a binding that brings no recipe along. -/
def BindingStep.isPlain : BindingStep → Bool
  | .madeAs _ | .asSingleton | .asTransient | .fromInstance (.fixed _) => true
  | _ => false

/-- Declares bindings in a container, each with the steps of its configuration. -/
def Host.declare (h : Host) (c : ContainerRef) (bindings : List (String × List BindingStep)) :
    Host :=
  bindings.foldl (fun h b => (h.bind c b.1).2.configure (h.bind c b.1).1 b.2) h

namespace Module

variable {m : Module} {options : WeaveOptions} {ids : WeaveIds} {supply : IdSupply} {h g : Host}

lemma followedAt_answer (names : m.Unambiguous) (proper : m.Introspectable) (new : supply.NewTo m)
    (drawn : ids.inOrder m = supply.next m.idsNeeded)
    (same : (m.introspecting options ids).Match h g) (c : ContainerRef) (request : Request) :
    (m.introspecting options ids).FollowedAt h g (request.answer c) (request.answer c) := by
  -- the host's own operations have the levels of the host
  have serves : m.Serves options ids (ofLevel h.levels) := serves_ofLevel names proper new drawn _
  cases request with
  | resolve ty =>
    have own : (m.introspecting options ids).FollowedAt h g (Host.resolve c ty)
        (Host.resolve c ty) := by
      intro value h' ok quiet
      rw [Host.resolve, run_withEngine] at ok
      exact serves.resolve same c ty value h' ok quiet
    exact own.map some
  | inject value =>
    have own : (m.introspecting options ids).FollowedAt h g (Host.inject c value)
        (Host.inject c value) := by
      intro u h' ok quiet
      rw [Host.inject, run_withEngine] at ok
      rw [inject_unlimited]
      exact serves.inject names proper same c value u h' ok quiet
    exact own.map fun _ => none

/-- The hosts match when nothing but the modules has been loaded. -/
lemma match_loaded {config config' : HostConfig} (alone : config.fallback = false)
    (introspects : config'.fallback = true) :
    (m.introspecting options ids).Match
      (((Host.new config).addModule (m.rewoven options ids)).afterBake (ids.entries m .factory)
        (ids.entries m .injector))
      ((Host.new config').addModule m) where
  leading := rfl
  following := rfl
  objects := rfl
  output := rfl
  callDepth := le_rfl
  wired :=
    { registry := by
        simp only [wiring, afterBake, addModule, Host.new, alone, Bool.false_eq_true, if_false]
        rfl
      containers := rfl
      bindings := rfl
      unsupplied := fun b none => absurd none (Array.not_mem_empty b)
      factories := rfl
      injectors := rfl
      fallback := by simp only [wiring, addModule, Host.new, introspects, if_true]
      cachedFactories := fun none => by cases none
      cachedInjectors := fun none => by cases none }

section Declarations

variable (same : (m.introspecting options ids).Match h g)
include same

lemma match_addContainer :
    (m.introspecting options ids).Match h.addContainer.2 g.addContainer.2 :=
  { same with
    wired :=
      { same.wired with
        containers := congrArg (·.push {}) (containers_eq same) } }

lemma match_bind (c : ContainerRef) (ty : String) :
    (m.introspecting options ids).Match (h.bind c ty).2 (g.bind c ty).2 := by
  let added : Binding := { requested := ty, concrete := ty }
  have pushed : (m.introspecting options ids).Match
      { h with bindings := h.bindings.push added } { g with bindings := g.bindings.push added } :=
    { same with
      wired :=
        { same.wired with
          bindings := congrArg (·.push added) (bindings_eq same)
          unsupplied := by
            intro b member
            rcases Array.mem_push.1 member with old | rfl
            · exact same.wired.unsupplied b old
            · rfl } }
  -- the container refers to the new binding by the number of those before it
  have size : g.bindings.size = h.bindings.size := by rw [bindings_eq same]
  have bound := match_updateContainer pushed c
    fun c => { c with bindings := c.bindings ++ [(ty, ⟨h.bindings.size⟩)] }
  unfold Host.bind
  dsimp only
  rw [size]
  exact bound

lemma match_configure (ref : BindingRef) {steps : List BindingStep}
    (plain : ∀ step ∈ steps, step.isPlain = true) :
    (m.introspecting options ids).Match (h.configure ref steps) (g.configure ref steps) := by
  induction steps generalizing h g with
  | nil => exact same
  | cons step rest ih =>
    have first : (m.introspecting options ids).Match (h.configureStep ref step)
        (g.configureStep ref step) := by
      have hstep := plain step List.mem_cons_self
      cases step with
      | madeAs concrete => exact match_updateBinding same ref fun _ none => none
      | asSingleton => exact match_updateBinding same ref fun _ none => none
      | asTransient => exact match_updateBinding same ref fun _ none => none
      | fromFactory recipe => cases hstep
      | fromInstance source =>
        cases source with
        | fixed value => exact match_updateBinding same ref fun _ none => none
        | fresh ty => cases hstep
        | kept name => cases hstep
    exact ih first fun step hstep => plain step (List.mem_cons_of_mem _ hstep)

lemma match_declare (c : ContainerRef) {bindings : List (String × List BindingStep)}
    (plain : ∀ b ∈ bindings, ∀ step ∈ b.2, step.isPlain = true) :
    (m.introspecting options ids).Match (h.declare c bindings) (g.declare c bindings) := by
  induction bindings generalizing h g with
  | nil => exact same
  | cons b rest ih =>
    have ref : (g.bind c b.1).1 = (h.bind c b.1).1 := by
      show (⟨g.bindings.size⟩ : BindingRef) = ⟨h.bindings.size⟩
      rw [bindings_eq same]
    have first : (m.introspecting options ids).Match
        ((h.bind c b.1).2.configure (h.bind c b.1).1 b.2)
        ((g.bind c b.1).2.configure (g.bind c b.1).1 b.2) := by
      rw [ref]
      exact match_configure (match_bind same c b.1) _ (plain b List.mem_cons_self)
    exact ih first fun b hb => plain b (List.mem_cons_of_mem _ hb)

end Declarations

end Module

/-- Woven resolution refines the introspection fallback. One host has loaded the woven module, runs
the registrar's hook and has no fallback; another has loaded the module itself and introspects. Each
has a container with the same bindings. Whatever requests end well on the first host, one after the
other, end well on the second: with the same instances, the same objects and the same output. A
request may name what an earlier one has answered, since the answers are the same. -/
theorem exists_answers_of_woven {m m' : Module} {options : WeaveOptions}
    {supply supply' : IdSupply} {report : WeaveReport} {config config' : HostConfig}
    {h h' g : Host} {loadReport loadReport' : LoadReport}
    {bindings : List (String × List BindingStep)} {c : ContainerRef} {requests : List Request}
    {answers : List (Option Value)} (names : m.Unambiguous) (hooks : m.NoLoadHooks)
    (proper : m.Introspectable) (new : supply.NewTo m)
    (woven : m.weave options supply = .ok (.woven report, m', supply'))
    (alone : config.fallback = false)
    (runs : config.mode.runs (loadHook options.editorOnly) = true)
    (introspects : config'.fallback = true)
    (loaded : (load m').run (Host.new config) = some (.ok loadReport, h))
    (loaded' : (load m).run (Host.new config') = some (.ok loadReport', g))
    (plain : ∀ b ∈ bindings, ∀ step ∈ b.2, step.isPlain = true)
    (ok : (requests.mapM (Request.answer c)).run (h.addContainer.2.declare c bindings)
      = some (.ok answers, h')) :
    ∃ g', (requests.mapM (Request.answer c)).run (g.addContainer.2.declare c bindings)
        = some (.ok answers, g') ∧
      g'.objects = h'.objects ∧ g'.output = h'.output := by
  obtain ⟨ids, drawn⟩ := exists_weaveIds names.types supply
  obtain ⟨rfl, -, -⟩ := eq_rewoven_of_weave names drawn woven
  have same : (m.introspecting options ids).Match h g := by
    rw [load_of_noLoadHooks hooks loaded', load_rewoven_of_noLoadHooks hooks loaded]
    rw [show (Host.new config).config.mode.runs (loadHook options.editorOnly) = true from runs]
    exact Module.match_loaded alone introspects
  -- from here on, only the container and its bindings matter
  have declared := Module.match_declare (Module.match_addContainer same) c plain
  have followed := declared.mapM Module.loud_introspecting
    (fun request same => Module.followedAt_answer names proper new drawn same c request) requests
  obtain ⟨g', run, same'⟩ := followed answers h' ok trivial
  exact ⟨g', run, same'.objects, same'.output⟩

/-! ### An example -/

/-- A module with one class, whose constructor takes a number and whose marked field is for the
container. -/
def socket : Module :=
  { name := "Socket"
    references := [supportModule]
    types :=
      [{ TypeDef.newClass (Uuid.numbered 1) "Socket.Plug" with
          fields :=
            [Field.injected (Uuid.numbered 2) "home" containerType,
              { id := Uuid.numbered 3, name := "volts", ty := intType }]
          constructors :=
            [(Method.assigning (Uuid.numbered 4) "Socket.Plug"
              [⟨"volts", intType⟩]).mark .inject] }] }

lemma socket_unambiguous : socket.Unambiguous :=
  ⟨by decide, by decide, by decide⟩

lemma socket_introspectable : socket.Introspectable where
  constructors t member _ := by
    rw [List.mem_singleton.1 member]
    exact ⟨_, rfl, by decide⟩
  fields := by decide
  bodies := by decide

lemma socket_new : lampIds.NewTo socket where
  distinct := by decide
  unused := by decide
  unreferenced := by decide

/-- The example module after its weave. -/
def wovenSocket : Module :=
  match socket.weave {} lampIds with
  | .ok (_, m, _) => m
  | .error _ => socket

/-- A player that has loaded the woven example module. -/
def socketPlayer : Host :=
  match (load wovenSocket).run (Host.new {}) with
  | some (_, h) => h
  | none => Host.new {}

/-- Bindings for a plug, for its number and for its container. -/
def socketBindings : List (String × List BindingStep) :=
  [(objectType, [.madeAs "Socket.Plug", .asTransient]),
    (intType, [.fromInstance (.fixed (.int 230))]),
    (containerType, [.fromInstance (.fixed (.container ⟨0⟩))])]

/-- Makes a plug and then fills its marked field. -/
def socketRequests : List Request :=
  [.resolve objectType, .inject (.object ⟨0⟩)]

lemma exists_answers_socketPlayer :
    ∃ answers h', (socketRequests.mapM (Request.answer ⟨0⟩)).run
      (socketPlayer.addContainer.2.declare ⟨0⟩ socketBindings) = some (.ok answers, h') := by
  have ends : ((socketRequests.mapM (Request.answer ⟨0⟩)).run
      (socketPlayer.addContainer.2.declare ⟨0⟩ socketBindings)).any (fun r => r.1.isOk) = true := by
    decide +kernel
  obtain ⟨⟨r, h'⟩, run, ok⟩ := (Option.any_eq_true _ _).1 ends
  cases r with
  | ok answers => exact ⟨answers, h', run⟩
  | error e => cases ok

/-- A player with the woven module and a player that introspects answer in the same way. -/
theorem socket_answers :
    socket.Unambiguous ∧ socket.NoLoadHooks ∧ socket.Introspectable ∧ lampIds.NewTo socket ∧
    (∀ b ∈ socketBindings, ∀ step ∈ b.2, step.isPlain = true) ∧
    ∃ report supply' loadReport loadReport' h' g answers,
      socket.weave {} lampIds = .ok (.woven report, wovenSocket, supply') ∧
      (load wovenSocket).run (Host.new {}) = some (.ok loadReport, socketPlayer) ∧
      (load socket).run (Host.new { fallback := true }) = some (.ok loadReport', g) ∧
      (socketRequests.mapM (Request.answer ⟨0⟩)).run
        (socketPlayer.addContainer.2.declare ⟨0⟩ socketBindings) = some (.ok answers, h') ∧
      ∃ g', (socketRequests.mapM (Request.answer ⟨0⟩)).run
          (g.addContainer.2.declare ⟨0⟩ socketBindings) = some (.ok answers, g') ∧
        g'.objects = h'.objects ∧ g'.output = h'.output := by
  have hooks : socket.NoLoadHooks := by decide
  have plain : ∀ b ∈ socketBindings, ∀ step ∈ b.2, step.isPlain = true := by decide
  obtain ⟨report, supply', woven⟩ : ∃ report supply',
      socket.weave {} lampIds = .ok (.woven report, wovenSocket, supply') := ⟨_, _, rfl⟩
  obtain ⟨loadReport, loaded⟩ : ∃ loadReport,
      (load wovenSocket).run (Host.new {}) = some (.ok loadReport, socketPlayer) := ⟨_, rfl⟩
  obtain ⟨loadReport', g, loaded'⟩ : ∃ loadReport' g,
      (load socket).run (Host.new { fallback := true }) = some (.ok loadReport', g) := ⟨_, _, rfl⟩
  obtain ⟨answers, h', ok⟩ := exists_answers_socketPlayer
  refine ⟨socket_unambiguous, hooks, socket_introspectable, socket_new, plain, report, supply',
    loadReport, loadReport', h', g, answers, woven, loaded, loaded', ok, ?_⟩
  exact exists_answers_of_woven socket_unambiguous hooks socket_introspectable socket_new woven rfl rfl
    rfl loaded loaded' plain ok

end Weaver
