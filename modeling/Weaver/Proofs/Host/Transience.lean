import Weaver.Proofs.Engine.Making
import Weaver.Proofs.Host.Ancestry
import Weaver.Proofs.Host.Sessions
import Weaver.Proofs.Host.TypeSoundness
import Weaver.Proofs.Injection.Exactness

/-!
# Transient bindings

A transient binding has a new instance made for every resolution, unless it holds an answer from the
time when it was a singleton: what a binding is resolved to outlasts its scope.

Three things live here:

* `Host.Unsupplied`, the bindings that were given neither an instance nor a factory, and that they
  stay so in sessions that give them none;
* `Host.MakesAnew` and `Host.makesAnew_of_transient`, for bindings that are not resolved;
* `Host.exists_answersStale`, for one that was resolved as a singleton before, and for a factory
  that a module registers besides those of its weave.
-/

namespace Weaver
namespace Host

variable {h h' : Host} {ref : BindingRef}

/-! ## Bindings without supplies -/

/-- The step gives a binding an instance or a factory. -/
def BindingStep.Supplies : BindingStep → Prop
  | .fromInstance _ => True
  | .fromFactory _ => True
  | .madeAs _ => False
  | .asSingleton => False
  | .asTransient => False

/-- A binding that was given neither an instance nor a factory holds nothing but its answer. -/
structure Unsupplied (h : Host) (ref : BindingRef) : Prop where
  valid : ref.index < h.bindings.size
  factory : (h.binding ref).factory = none
  held : (h.binding ref).resolved = false → (h.binding ref).held = none

lemma unsupplied_bind (h : Host) (c : ContainerRef) (ty : String) :
    (h.bind c ty).2.Unsupplied (h.bind c ty).1 := by
  have valid : (h.bind c ty).1.index < (h.bind c ty).2.bindings.size := by
    rw [bindings_bind, Array.size_push]
    exact Nat.lt_succ_self _
  rcases @binding_bind_of_le h (h.bind c ty).1 (Nat.le_refl _) c ty with same | same
  · exact ⟨valid, by rw [same]; rfl, fun _ => by rw [same]; rfl⟩
  · exact ⟨valid, by rw [same], fun _ => by rw [same]⟩

/-- What a change of its binding does not touch, or sets together. -/
lemma Unsupplied.updateBinding (before : h.Unsupplied ref) (ref' : BindingRef)
    {f : Binding → Binding} (factory : (f (h.binding ref)).factory = (h.binding ref).factory)
    (held : (f (h.binding ref)).resolved = false →
      (h.binding ref).resolved = false ∧ (f (h.binding ref)).held = (h.binding ref).held) :
    (h.updateBinding ref' f).Unsupplied ref := by
  have valid : ref.index < (h.updateBinding ref' f).bindings.size := by
    rw [size_updateBinding]
    exact before.valid
  by_cases same : ref' = ref
  · subst same
    have made := binding_updateBinding_self before.valid f
    refine ⟨valid, by rw [made, factory, before.factory], fun unresolved => ?_⟩
    rw [made] at unresolved ⊢
    obtain ⟨unresolved, same⟩ := held unresolved
    rw [same, before.held unresolved]
  · have other := binding_updateBinding_of_ne same h f
    exact ⟨valid, by rw [other, before.factory], by rw [other]; exact before.held⟩

lemma Unsupplied.of_bindings (before : h.Unsupplied ref) (same : h'.bindings = h.bindings) :
    h'.Unsupplied ref := by
  have still : h'.binding ref = h.binding ref := by rw [binding, binding, same]
  exact ⟨same ▸ before.valid, by rw [still, before.factory], by rw [still]; exact before.held⟩

/-- Moves that may not supply a binding leave it without supplies. -/
lemma Move.unsupplied {may : BindingRef → BindingStep → Prop} (move : Move may h h')
    (plain : ∀ step, may ref step → ¬BindingStep.Supplies step) (before : h.Unsupplied ref) :
    h'.Unsupplied ref := by
  cases move with
  | change change bindings containers => exact before.of_bindings bindings
  | markProducing ref' producing => exact before.updateBinding ref' rfl fun same => ⟨same, rfl⟩
  | hold value unresolved producing scope => exact before.updateBinding _ rfl nofun
  | bind c ty =>
    have still := binding_bind_of_lt before.valid c ty
    refine ⟨?_, by rw [still, before.factory], by rw [still]; exact before.held⟩
    rw [bindings_bind, Array.size_push]
    exact Nat.lt_succ_of_lt before.valid
  | @configure ref' step allowed =>
    by_cases same : ref' = ref
    · subst same
      have plain := plain step allowed
      cases step with
      | fromInstance source => exact absurd trivial plain
      | fromFactory recipe => exact absurd trivial plain
      | _ => exact before.updateBinding ref' rfl fun same => ⟨same, rfl⟩
    · have other := binding_configureStep_of_ne (h := h) same step
      refine ⟨?_, by rw [other, before.factory], by rw [other]; exact before.held⟩
      rw [size_configureStep]
      exact before.valid
  | _ => exact before.of_bindings rfl

lemma Moves.unsupplied {may : BindingRef → BindingStep → Prop} (moves : Moves may h h')
    (plain : ∀ step, may ref step → ¬BindingStep.Supplies step) (before : h.Unsupplied ref) :
    h'.Unsupplied ref := by
  induction moves with
  | refl => exact before
  | tail _ move ih => exact move.unsupplied plain ih

/-! ## Sessions -/

/-- The values that an operation hands to a host exist. -/
def Genuine (h : Host) (op : Operation) : Prop := h.KnowsAll op.values

/-- Besides, the operation gives a binding neither an instance nor a factory. -/
def GenuineSparing (ref : BindingRef) (h : Host) (op : Operation) : Prop :=
  h.Genuine op ∧ ∀ step, op = .configure ref step → ¬BindingStep.Supplies step

lemma Session.leads (session : Session Genuine h h') (valid : h.Valid) : h.Leads h' :=
  session.keeps h.Leads (.refl h) fun {_ _ op _} genuine run leads =>
    leads.trans (op.soundAt genuine (leads.valid valid) run).1

lemma Session.genuine (session : Session (GenuineSparing ref) h h') : Session Genuine h h' :=
  session.keeps (Session Genuine h) (.refl h) fun {_ _ op _} fits run before =>
    before.step op fits.1 run

lemma Session.trans {kind : Host → Operation → Prop} {h₁ h₂ h₃ : Host}
    (first : Session kind h₁ h₂) (second : Session kind h₂ h₃) : Session kind h₁ h₃ :=
  second.keeps (Session kind h₁) first fun {_ _ op _} fits run before => before.step op fits run

/-- A session that gives a binding no supplies leaves it without. -/
lemma Session.unsupplied (session : Session (GenuineSparing ref) h h') (coherent : h.Coherent)
    (before : h.Unsupplied ref) : h'.Unsupplied ref := by
  have both : h'.Coherent ∧ h'.Unsupplied ref := by
    refine session.keeps (fun h => h.Coherent ∧ h.Unsupplied ref) ⟨coherent, before⟩ ?_
    rintro h h' op r ⟨-, plain⟩ run ⟨coherent, before⟩
    have moves := (lifeCycle_of_coherent coherent).leads run
    refine ⟨moves.coherent coherent, moves.unsupplied (fun step may => ?_) before⟩
    rcases may with own | new
    · exact plain step own
    · exact absurd before.valid (Nat.not_lt_of_le new)
  exact both.2

/-! ## New instances -/

/-- What comes of a resolution that has a new instance made. -/
structure MakesAnew (config : HostConfig) (h : Host) (c : ContainerRef) (ref : BindingRef)
    (value : Value) (h' : Host) : Prop where
  /-- The factory of the concrete type is looked up and gives the instance. -/
  produces : ∃ factory h₁ h₂,
    (Run.factoryOf (h.binding ref).concrete).run (h.enterProduction c ref)
      = some (.ok factory, h₁) ∧
    (Engine.unlimited.runFactory factory c).run h₁ = some (.ok value, h₂)
  /-- The instance is an object that has not been there before. -/
  made : value.MadeBetween h h'
  /-- So no resolution that came before has given it. -/
  differs {h₁ h₂ : Host} {c' : ContainerRef} {ty' : String} {value' : Value} :
    Session Genuine (Host.new config) h₁ → (resolve c' ty').run h₁ = some (.ok value', h₂) →
      Session Genuine h₂ h → value ≠ value'
  /-- The binding does not keep it. -/
  binding : h'.binding ref = h.binding ref

/-- A resolution that ends well through a transient binding which is not resolved has a value made,
and leaves the binding as it was. -/
lemma exists_make_of_transient {c : ContainerRef} {ty : String} {value : Value}
    (coherent : h.Coherent) (found : h.bindingFor? c ty = some ref)
    (transient : (h.binding ref).scope = .transient)
    (unresolved : (h.binding ref).resolved = false)
    (run : (resolve c ty).run h = some (.ok value, h')) :
    ∃ h₁, (Engine.unlimited.make c ty (h.binding ref)).run (h.enterProduction c ref)
      = some (.ok value, h₁) ∧
      h' = h₁.leaveProduction c ref ∧ h'.binding ref = h.binding ref := by
  rw [resolve_eq] at run
  rcases Nat.lt_or_ge (h.container c).depth maxResolveDepth with room | deep
  · cases producing : (h.binding ref).producing with
    | true =>
      rw [Engine.run_resolve_of_producing room found unresolved producing] at run
      cases run
    | false =>
      rw [Engine.run_resolve_of_idle room found unresolved producing,
        Option.map_eq_some_iff] at run
      obtain ⟨⟨r, h₂⟩, run, same⟩ := run
      cases same
      rw [Run.run_bind_eq_ok_iff] at run
      obtain ⟨produced, h₁, made, run⟩ := run
      -- the binding has the scope that it had before, and so does not keep the instance
      have body : Course (h.enterProduction c ref) h₁ :=
        (Engine.obeys_unlimited law_course).make law_course.toRule _ made
      obtain ⟨valid, still⟩ := (body.tame (coherent_enterProduction coherent c ref))
        |>.binding_of_enterProduction (coherent.valid_of_found found)
      have scope : (h₁.binding ref).scope = .transient := by rw [still, transient]
      rw [Run.run_bind_of_ok (Engine.run_settle_transient scope)] at run
      cases run
      refine ⟨_, made, rfl, ?_⟩
      rw [binding_leaveProduction_self valid, still, ← producing]
  · rw [Engine.run_resolve_of_tooDeep deep] at run
    cases run

/-- What is done with an instance that a factory has given: it is checked and filled. -/
lemma history_of_make {c : ContainerRef} {ty : String} {b : Binding} {value : Value}
    (made : (Engine.unlimited.make c ty b).run h = some (.ok value, h')) :
    ∃ h₁, (Engine.unlimited.produce c b).run h = some (.ok value, h₁) ∧ History h₁ h' := by
  have rule := discipline_history.toRule
  rw [Engine.make, Run.run_bind_eq_ok_iff] at made
  obtain ⟨produced, h₁, produces, made⟩ := made
  rw [Run.run_bind_eq_ok_iff] at made
  obtain ⟨u, h₂, checked, made⟩ := made
  rw [Run.run_bind_eq_ok_iff] at made
  obtain ⟨injector, h₃, looked, made⟩ := made
  have before : History h₁ h₃ :=
    (Engine.Obeys.checkInstance rule.toBaseRule produced ty checked).trans
      (rule.injectorOf? ty looked)
  cases injector with
  | none =>
    cases made
    exact ⟨_, produces, before⟩
  | some injector =>
    rw [Run.run_bind_eq_ok_iff] at made
    obtain ⟨u, h₄, filled, made⟩ := made
    have after := Engine.obeys_history.runInjector rule injector produced c filled
    cases made
    exact ⟨_, produces, before.trans after⟩

/-- Transient means a new production every time, as long as the binding was not resolved before: for
a binding that was given neither an instance nor a factory of its own, where nothing but synthesized
factories is registered. -/
theorem makesAnew_of_transient {config : HostConfig} {h₀ : Host} {c₀ c : ContainerRef}
    {ty₀ ty : String} {value : Value} (before : Session Genuine (Host.new config) h₀)
    (after : Session (GenuineSparing (h₀.bind c₀ ty₀).1) (h₀.bind c₀ ty₀).2 h)
    (synthesized : h.OnlySynthesized) (governs : h.Governs c ty (h₀.bind c₀ ty₀).1)
    (transient : (h.binding (h₀.bind c₀ ty₀).1).scope = .transient)
    (unresolved : (h.binding (h₀.bind c₀ ty₀).1).resolved = false)
    (run : (resolve c ty).run h = some (.ok value, h')) :
    MakesAnew config h c (h₀.bind c₀ ty₀).1 value h' := by
  have bound : Session Genuine (Host.new config) (h₀.bind c₀ ty₀).2 :=
    before.step (.bind c₀ ty₀) (knowsAll_nil h₀) rfl
  have whole : Session Genuine (Host.new config) h := bound.trans after.genuine
  have coherent : h.Coherent :=
    (whole.comesTo (coherent_new config)).coherent (coherent_new config)
  have unsupplied := after.unsupplied
    ((bound.comesTo (coherent_new config)).coherent (coherent_new config))
    (unsupplied_bind h₀ c₀ ty₀)
  obtain ⟨h₃, made, rfl, still⟩ := exists_make_of_transient coherent
    (bindingFor?_eq_some_iff.2 governs) transient unresolved run
  obtain ⟨h₂, produced, filled⟩ := history_of_make made
  -- with nothing held and no factory of its own, the binding asks for the factory of its type
  rw [Engine.produce, unsupplied.held unresolved, unsupplied.factory, Run.run_bind_eq_ok_iff]
    at produced
  obtain ⟨factory, h₁, looked, produced⟩ := produced
  have fresh : value.MadeBetween h (h₃.leaveProduction c (h₀.bind c₀ ty₀).1) := by
    have fit : (h.enterProduction c (h₀.bind c₀ ty₀).1).CachesFit := by
      have fit := whole.evolves.cachesFit (cachesFit_new config)
      exact ⟨fit.factories, fit.injectors⟩
    have fallback := whole.evolves.fallback_cases
    have before : History (h.enterProduction c (h₀.bind c₀ ty₀).1) h₁ :=
      discipline_history.toRule.factoryOf _ looked
    have either : h₁.IsSynthesized factory ∨
        factory = .introspected (h.binding (h₀.bind c₀ ty₀).1).concrete := by
      refine (Engine.registered_or_introspected_of_factoryOf fit fallback looked).imp_left
        fun registered => ?_
      obtain ⟨handle, target, x, woven, found, member, added⟩ := synthesized _ _ registered
      exact ⟨handle, target, x, woven, by rw [before.keeps.types]; exact found, member, added⟩
    obtain ⟨object, same, new, there⟩ :=
      (Engine.madeBetween_of_runFactory either produced).history before filled
    exact ⟨object, same, new, there⟩
  refine ⟨⟨factory, h₁, h₂, looked, produced⟩, fresh, ?_, still⟩
  intro h₄ h₅ c' ty' value' earlier given later same
  -- whatever was given before is a value that the host has by now
  have valid : h₄.Valid := (earlier.leads (valid_new config)).valid (valid_new config)
  obtain ⟨leads, fits⟩ := Engine.sound_unlimited.resolve h₄ c' ty' valid given
  have known : h.Knows value' :=
    (fits value' rfl).known.lead (later.leads (leads.valid valid))
  obtain ⟨object, rfl, new, -⟩ := fresh
  rw [← same] at known
  exact absurd known (Nat.not_lt_of_le new)

/-! ### A room with lamps -/

/-- Carries out operations one after the other. -/
def performAll? (h : Host) : List Operation → Option Host
  | [] => some h
  | op :: rest =>
    match op.perform.run h with
    | some (_, h₁) => h₁.performAll? rest
    | none => none

lemma session_of_performAll? {kind : Host → Operation → Prop} {ops : List Operation}
    (fits : ∀ op ∈ ops, ∀ h, kind h op) (run : h.performAll? ops = some h') :
    Session kind h h' := by
  induction ops generalizing h with
  | nil =>
    cases run
    exact .refl _
  | cons op rest ih =>
    rw [performAll?] at run
    split at run
    · next r h₁ performed =>
      have first : Session kind h h₁ :=
        (Session.refl h).step op (fits op List.mem_cons_self h) performed
      exact first.trans (ih (fun op later => fits op (List.mem_cons_of_mem _ later)) run)
    · cases run

/-- The operation binds, configures without supplies, resolves, or loads what a weave has made of a
module. -/
def Plain (_ : Host) : Operation → Prop
  | .load m => ∃ m₀ options supply report supply',
      Module.weave m₀ options supply = .ok (.woven report, m, supply')
  | .configure _ step => ¬BindingStep.Supplies step
  | .addContainer | .bind _ _ | .resolve _ _ => True
  | _ => False

lemma session_addContainer_playerOf {kind : Host → Operation → Prop} {m : Module}
    {report : LoadReport} (loads : kind (Host.new {}) (.load m)) (adds : ∀ h, kind h .addContainer)
    (loaded : (load m).run (Host.new {}) = some (.ok report, playerOf m)) :
    Session kind (Host.new {}) (playerOf m).addContainer.2 := by
  have performed : (Operation.load m).perform.run (Host.new {}) = some (.ok ⟨⟩, playerOf m) := by
    rw [Operation.perform, Run.run_bind, loaded]
    rfl
  exact ((Session.refl _).step (.load m) loads performed).step .addContainer (adds _) rfl

/-- A host with the woven example module and a container. -/
def lampRoom : Host := (playerOf wovenLamp).addContainer.2

lemma session_lampRoom {kind : Host → Operation → Prop}
    (loads : kind (Host.new {}) (.load wovenLamp)) (adds : ∀ h, kind h .addContainer) :
    Session kind (Host.new {}) lampRoom := by
  obtain ⟨report, loaded⟩ : ∃ report,
      (load wovenLamp).run (Host.new {}) = some (.ok report, playerOf wovenLamp) := ⟨_, rfl⟩
  exact session_addContainer_playerOf loads adds loaded

/-- Two factories are registered in the room, and the weave has added both of them. -/
lemma onlySynthesized_of_lampRoom (types : h.types = lampRoom.types)
    (factories : h.registry.factories = lampRoom.registry.factories) : h.OnlySynthesized := by
  obtain ⟨report, supply', woven⟩ := exists_weave_lamp
  have added (i : ℕ) {t t' : TypeDef} {x : Method} (old : lamp.types[i]? = some t)
      (new : wovenLamp.types[i]? = some t') (member : x ∈ t'.methods.drop t.methods.length) :
      x.AddedTo t' :=
    ⟨lamp, wovenLamp, {}, lampIds, supply', report, i, t, woven, old, new, member⟩
  have two : lampRoom.registry.factories =
      [("Lamp.Bulb", .woven ⟨"Lamp.Bulb", lampIds.ids 0⟩),
        ("Lamp.Desk", .woven ⟨"Lamp.Desk", lampIds.ids 1⟩)] := rfl
  have bulb : ∃ t t' x, lamp.types[1]? = some t ∧ wovenLamp.types[1]? = some t' ∧
      x ∈ t'.methods.drop t.methods.length ∧
      lampRoom.types.find? "Lamp.Bulb" = some ⟨"Lamp", t'⟩ ∧ t'.member? (lampIds.ids 0) = some x :=
    ⟨_, _, _, rfl, rfl, List.mem_cons_self, rfl, rfl⟩
  have desk : ∃ t t' x, lamp.types[2]? = some t ∧ wovenLamp.types[2]? = some t' ∧
      x ∈ t'.methods.drop t.methods.length ∧
      lampRoom.types.find? "Lamp.Desk" = some ⟨"Lamp", t'⟩ ∧ t'.member? (lampIds.ids 1) = some x :=
    ⟨_, _, _, rfl, rfl, List.mem_cons_self, rfl, rfl⟩
  intro ty factory registered
  rw [factories, two] at registered
  obtain ⟨entry, first, rfl⟩ := Option.map_eq_some_iff.1 registered
  rcases List.mem_cons.1 (List.mem_of_find?_eq_some first) with rfl | other
  · obtain ⟨t, t', x, old, new, member, found, named⟩ := bulb
    exact ⟨_, _, x, rfl, types ▸ found, named, added 1 old new member⟩
  · cases List.mem_singleton.1 other
    obtain ⟨t, t', x, old, new, member, found, named⟩ := desk
    exact ⟨_, _, x, rfl, types ▸ found, named, added 2 old new member⟩

/-- What is asked for again is another bulb. -/
theorem makesAnew_lampRoom :
    Session Genuine (Host.new {}) lampRoom ∧
    ∃ h value h', Session (GenuineSparing (lampRoom.bind ⟨0⟩ objectType).1)
        (lampRoom.bind ⟨0⟩ objectType).2 h ∧
      h.OnlySynthesized ∧ h.Governs ⟨0⟩ objectType (lampRoom.bind ⟨0⟩ objectType).1 ∧
      (h.binding (lampRoom.bind ⟨0⟩ objectType).1).scope = .transient ∧
      (h.binding (lampRoom.bind ⟨0⟩ objectType).1).resolved = false ∧
      (resolve ⟨0⟩ objectType).run h = some (.ok value, h') ∧
      MakesAnew {} h ⟨0⟩ (lampRoom.bind ⟨0⟩ objectType).1 value h' := by
  have before : Session Genuine (Host.new {}) lampRoom :=
    session_lampRoom (knowsAll_nil _) fun _ => knowsAll_nil _
  obtain ⟨h, asked, types, factories, found, transient, unresolved, value, h', run⟩ :
      ∃ h, (lampRoom.bind ⟨0⟩ objectType).2.performAll?
          [.configure ⟨0⟩ (.madeAs "Lamp.Bulb"), .configure ⟨0⟩ .asTransient,
            .resolve ⟨0⟩ objectType] = some h ∧
        h.types = lampRoom.types ∧ h.registry.factories = lampRoom.registry.factories ∧
        h.bindingFor? ⟨0⟩ objectType = some (lampRoom.bind ⟨0⟩ objectType).1 ∧
        (h.binding (lampRoom.bind ⟨0⟩ objectType).1).scope = .transient ∧
        (h.binding (lampRoom.bind ⟨0⟩ objectType).1).resolved = false ∧
        ∃ value h', (resolve ⟨0⟩ objectType).run h = some (.ok value, h') := by
    refine ⟨_, rfl, ?_⟩
    exact ⟨rfl, rfl, rfl, rfl, rfl, _, _, rfl⟩
  have after : Session (GenuineSparing (lampRoom.bind ⟨0⟩ objectType).1)
      (lampRoom.bind ⟨0⟩ objectType).2 h := by
    refine session_of_performAll? (fun op listed h => ?_) asked
    simp only [List.mem_cons, List.not_mem_nil, or_false] at listed
    rcases listed with rfl | rfl | rfl
    · exact ⟨knowsAll_nil h, fun step same => by cases same; exact id⟩
    · exact ⟨knowsAll_nil h, fun step same => by cases same; exact id⟩
    · exact ⟨knowsAll_nil h, nofun⟩
  have synthesized := onlySynthesized_of_lampRoom types factories
  have governs := bindingFor?_eq_some_iff.1 found
  exact ⟨before, h, value, h', after, synthesized, governs, transient, unresolved, run,
    makesAnew_of_transient before after synthesized governs transient unresolved run⟩

/-! ### Old instances -/

/-- A module with a class that registers its own factory, which makes nothing. -/
def den : Module :=
  { name := "Den"
    references := [supportModule]
    types :=
      [(((TypeDef.newClass (Uuid.numbered 1) "Den.Cat").addField
            (Field.injected (Uuid.numbered 2) "name" stringType)).addMethod
          { Method.newStatic (Uuid.numbered 3) "Paint" with
            visibility := .everywhere
            params := [⟨"container", containerType⟩]
            returnType := some objectType
            body := [.loadConst (.text "a cat"), .ret] }).addMethod
          (((Method.newStatic (Uuid.numbered 4) "Enlist").mark .runtimeLoadHook).withBody
            [.loadMethod "Den.Cat" (Uuid.numbered 3), .register .factory "Den.Cat", .ret])] }

/-- The module after its weave. -/
def wovenDen : Module := wovenBy {} den

/-- A host with that module and a container. -/
def catDen : Host := (playerOf wovenDen).addContainer.2

/-- The binding governs the type and is transient, and a resolution through it ends well with a
value that it has not made. -/
def AnswersStale (h : Host) (c : ContainerRef) (ty : String) (ref : BindingRef) : Prop :=
  h.Governs c ty ref ∧ (h.binding ref).scope = .transient ∧
    ∃ value h', (resolve c ty).run h = some (.ok value, h') ∧ ¬value.MadeBetween h h'

/-- A binding that was resolved while it was a singleton answers with what it holds when it is
transient. One that is not resolved answers with what a factory has that a module registers besides
those of its weave. -/
theorem exists_answersStale :
    (∃ h, Session Plain (Host.new {}) h ∧ h.OnlySynthesized ∧
      h.AnswersStale ⟨0⟩ objectType ⟨0⟩) ∧
    ∃ h, Session Plain (Host.new {}) h ∧ (h.binding ⟨0⟩).resolved = false ∧
      h.AnswersStale ⟨0⟩ objectType ⟨0⟩ := by
  constructor
  · obtain ⟨report, supply', woven⟩ := exists_weave_lamp
    have before : Session Plain (Host.new {}) lampRoom :=
      session_lampRoom ⟨_, _, _, _, _, woven⟩ fun _ => trivial
    obtain ⟨h, asked, types, factories, found, transient, there, h', run⟩ :
        ∃ h, lampRoom.performAll?
            [.bind ⟨0⟩ objectType, .configure ⟨0⟩ (.madeAs "Lamp.Bulb"),
              .configure ⟨0⟩ .asSingleton, .resolve ⟨0⟩ objectType,
              .configure ⟨0⟩ .asTransient] = some h ∧
          h.types = lampRoom.types ∧ h.registry.factories = lampRoom.registry.factories ∧
          h.bindingFor? ⟨0⟩ objectType = some ⟨0⟩ ∧ (h.binding ⟨0⟩).scope = .transient ∧
          0 < h.objects.size ∧
          ∃ h', (resolve ⟨0⟩ objectType).run h = some (.ok (.object ⟨0⟩), h') := by
      refine ⟨_, rfl, ?_⟩
      exact ⟨rfl, rfl, rfl, rfl, Nat.zero_lt_one, _, rfl⟩
    have after : Session Plain lampRoom h := by
      refine session_of_performAll? (fun op listed h => ?_) asked
      simp only [List.mem_cons, List.not_mem_nil, or_false] at listed
      rcases listed with rfl | rfl | rfl | rfl | rfl
      all_goals simp [Plain, BindingStep.Supplies]
    refine ⟨h, before.trans after, onlySynthesized_of_lampRoom types factories,
      bindingFor?_eq_some_iff.1 found, transient, _, h', run, ?_⟩
    rintro ⟨o, same, new, -⟩
    cases same
    exact Nat.not_lt_of_le new there
  · obtain ⟨report, supply', woven⟩ : ∃ report supply',
        den.weave {} lampIds = .ok (.woven report, wovenDen, supply') := ⟨_, _, rfl⟩
    obtain ⟨report, loaded⟩ : ∃ report,
        (load wovenDen).run (Host.new {}) = some (.ok report, playerOf wovenDen) := ⟨_, rfl⟩
    have before : Session Plain (Host.new {}) catDen :=
      session_addContainer_playerOf ⟨_, _, _, _, _, woven⟩ (fun _ => trivial) loaded
    obtain ⟨h, asked, found, transient, unresolved, h', run⟩ :
        ∃ h, catDen.performAll?
            [.bind ⟨0⟩ objectType, .configure ⟨0⟩ (.madeAs "Den.Cat"),
              .configure ⟨0⟩ .asTransient] = some h ∧
          h.bindingFor? ⟨0⟩ objectType = some ⟨0⟩ ∧ (h.binding ⟨0⟩).scope = .transient ∧
          (h.binding ⟨0⟩).resolved = false ∧
          ∃ h', (resolve ⟨0⟩ objectType).run h = some (.ok (.text "a cat"), h') := by
      refine ⟨_, rfl, ?_⟩
      exact ⟨rfl, rfl, rfl, _, rfl⟩
    have after : Session Plain catDen h := by
      refine session_of_performAll? (fun op listed h => ?_) asked
      simp only [List.mem_cons, List.not_mem_nil, or_false] at listed
      rcases listed with rfl | rfl | rfl
      all_goals simp [Plain, BindingStep.Supplies]
    refine ⟨h, before.trans after, unresolved, bindingFor?_eq_some_iff.1 found, transient, _, h',
      run, ?_⟩
    rintro ⟨o, same, -⟩
    cases same

end Host
end Weaver
