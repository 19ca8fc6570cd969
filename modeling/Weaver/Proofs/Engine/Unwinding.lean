import Weaver.Proofs.Engine.Confined
import Weaver.Proofs.Engine.Embedding
import Weaver.Proofs.Host.LifeCycle

/-!
# Every exit unwinds

Calls count up a counter of the host, resolutions one of their container, and a binding is marked
while an instance is made for it. All of this is taken back when what it was for has ended, well or
in an error that was raised at whatever depth: or else an error that is caught would make later calls
fail.

Three things live here:

* `Host.Unwound`, by which counters and marks are as before, and that histories unwind;
* `Engine.tidy`, engines that check this at every exit from a call or a resolution and get stuck
  over it, and over a counter at zero that is to be counted down; `Engine.agree_tidy`, by which they
  never get stuck;
* `Engine.obeys_ofLevelWith`, by which exits unwind whatever embedding code stands in the place of
  recipes, as long as it unwinds what it opens itself.
-/

namespace Weaver

open Host

namespace Host

variable {h h' : Host}

/-! ## Counters and marks -/

/-- The second host has the counters and marks of the first. -/
structure Unwound (h h' : Host) : Prop where
  callDepth : h'.callDepth = h.callDepth
  depth (c : ContainerRef) : (h'.container c).depth = (h.container c).depth
  producing (ref : BindingRef) : (h'.binding ref).producing = (h.binding ref).producing

/-- Beyond the containers and bindings that there are, nothing is active. -/
lemma unwound_iff : h.Unwound h' ↔ h'.callDepth = h.callDepth ∧
    (∀ i < max h.containers.size h'.containers.size,
      (h'.container ⟨i⟩).depth = (h.container ⟨i⟩).depth) ∧
    ∀ i < max h.bindings.size h'.bindings.size,
      (h'.binding ⟨i⟩).producing = (h.binding ⟨i⟩).producing := by
  constructor
  · intro unwound
    exact ⟨unwound.callDepth, fun i _ => unwound.depth ⟨i⟩, fun i _ => unwound.producing ⟨i⟩⟩
  · rintro ⟨callDepth, depth, producing⟩
    refine ⟨callDepth, fun ⟨i⟩ => ?_, fun ⟨i⟩ => ?_⟩
    · by_cases there : i < max h.containers.size h'.containers.size
      · exact depth i there
      · have beyond := Nat.max_le.1 (Nat.le_of_not_lt there)
        rw [container_of_size_le beyond.1, container_of_size_le beyond.2]
    · by_cases there : i < max h.bindings.size h'.bindings.size
      · exact producing i there
      · have beyond := Nat.max_le.1 (Nat.le_of_not_lt there)
        rw [binding_of_size_le beyond.1, binding_of_size_le beyond.2]

instance (h h' : Host) : Decidable (h.Unwound h') :=
  decidable_of_iff _ unwound_iff.symm

lemma producing_updateBinding {f : Binding → Binding} (keeps : ∀ b, (f b).producing = b.producing)
    (h : Host) (ref ref' : BindingRef) :
    ((h.updateBinding ref f).binding ref').producing = (h.binding ref').producing := by
  rw [binding_updateBinding]
  split
  · exact keeps _
  · rfl

lemma producing_configureStep (h : Host) (ref ref' : BindingRef) (step : BindingStep) :
    ((h.configureStep ref step).binding ref').producing = (h.binding ref').producing := by
  cases step with
  | fromInstance source =>
    have same : (h.obtain source).2.bindings = h.bindings := by cases source <;> rfl
    refine (producing_updateBinding (by exact fun _ => rfl) (h.obtain source).2 ref ref').trans ?_
    rw [binding, binding, same]
  | fromFactory recipe =>
    exact producing_updateBinding (by exact fun _ => rfl) h.addCounter.2 ref ref'
  | _ => exact producing_updateBinding (by exact fun _ => rfl) h ref ref'

lemma producing_bind (h : Host) (c : ContainerRef) (ty : String) (ref : BindingRef) :
    ((h.bind c ty).2.binding ref).producing = (h.binding ref).producing := by
  rcases Nat.lt_or_ge ref.index h.bindings.size with old | new
  · rw [binding_bind_of_lt old]
  · rw [binding_of_size_le new]
    rcases binding_bind_of_le new c ty with same | same
    · rw [same]
    · rw [same]
      rfl

namespace Unwound

lemma refl (h : Host) : h.Unwound h :=
  ⟨rfl, fun _ => rfl, fun _ => rfl⟩

lemma trans {h₁ h₂ h₃ : Host} (first : h₁.Unwound h₂) (second : h₂.Unwound h₃) : h₁.Unwound h₃ where
  callDepth := second.callDepth.trans first.callDepth
  depth c := (second.depth c).trans (first.depth c)
  producing ref := (second.producing ref).trans (first.producing ref)

/-- No single change touches counters or marks. -/
lemma of_change (change : Change h h') : h.Unwound h' where
  callDepth := change.keeps.callDepth
  depth := change.keeps.depth
  producing ref := by
    cases change with
    | store stored =>
      obtain ⟨-, rfl⟩ := setDeclared?_eq_some_iff.1 stored
      rfl
    | bind c ty => exact producing_bind h c ty ref
    | configure ref' step => exact producing_configureStep h ref' ref step
    | hold ref' value => exact producing_updateBinding (by exact fun _ => rfl) h ref' ref
    | _ => rfl

/-- A call is unwound if its body is. -/
lemma call (body : h.enterCall.Unwound h') : h.Unwound h'.leaveCall where
  callDepth := by rw [leaveCall, body.callDepth, enterCall, Nat.add_sub_cancel]
  depth := body.depth
  producing := body.producing

/-- A resolution is unwound if what happens inside it is. -/
lemma resolution {c : ContainerRef} (body : (h.enterResolution c).Unwound h') :
    h.Unwound (h'.leaveResolution c) where
  callDepth := body.callDepth
  depth c' := by
    have inside := body.depth c'
    rw [leaveResolution, container_updateContainer]
    by_cases same : c = c'
    · subst same
      by_cases valid : c.index < h.containers.size
      · rw [Engine.container_enterResolution_self valid] at inside
        -- a container with an active resolution is one of the host
        have there : c.index < h'.containers.size := by
          by_contra beyond
          rw [container_of_size_le (Nat.le_of_not_lt beyond)] at inside
          cases inside
        rw [if_pos ⟨rfl, there⟩]
        dsimp only
        rw [inside, Nat.add_sub_cancel]
      · rw [enterResolution, updateContainer_eq_self valid,
          container_of_size_le (Nat.le_of_not_lt valid)] at inside
        rw [container_of_size_le (Nat.le_of_not_lt valid)]
        split
        · dsimp only
          rw [inside]
          rfl
        · exact inside
    · rw [enterResolution, container_updateContainer, if_neg fun both => same both.1] at inside
      rw [if_neg fun both => same both.1]
      exact inside
  producing := body.producing

/-- The making of an instance is unwound if the binding was not marked before. -/
lemma production {ref : BindingRef} (idle : (h.binding ref).producing = false)
    (body : (h.markProducing ref true).Unwound h') : h.Unwound (h'.markProducing ref false) where
  callDepth := body.callDepth
  depth := body.depth
  producing ref' := by
    by_cases same : ref = ref'
    · subst same
      rw [idle]
      by_cases valid : ref.index < h'.bindings.size
      · rw [markProducing, binding_updateBinding_self valid]
      · rw [binding_of_size_le (by rw [markProducing, size_updateBinding]; exact not_lt.1 valid)]
        rfl
    · rw [markProducing, binding_updateBinding_of_ne same, body.producing, markProducing,
        binding_updateBinding_of_ne same]

end Unwound

/-- Every history unwinds what it opens. -/
theorem History.unwound (history : History h h') : h.Unwound h' := by
  induction history with
  | refl h => exact .refl h
  | change change => exact .of_change change
  | trans _ _ first second => exact first.trans second
  | call _ _ body => exact body.call
  | resolution _ _ _ body => exact body.resolution
  | production _ idle _ body => exact body.production idle

end Host

/-! ## Engines that check their exits -/

namespace Run

variable {α : Type} {k : ℕ} {h h' : Host} {x y : Run α}

/-- Runs code, and gets stuck if it has not unwound when it ends. -/
def tidily (x : Run α) : Run α := do
  let h ← get
  let r ← x.attempt
  if h.Unwound (← get) then ofExcept r else exhausted

lemma run_tidily_eq_some_iff {r : Except HostError α} :
    x.tidily.run h = some (r, h') ↔ x.run h = some (r, h') ∧ h.Unwound h' := by
  rw [tidily, run_get_bind, run_bind, run_attempt]
  rcases x.run h with _ | ⟨r₁, h₁⟩
  · simp
  · show ((if h.Unwound h₁ then (ofExcept r₁ : Run α) else exhausted).run h₁ = _) ↔ _
    split
    next unwound =>
      rw [run_ofExcept]
      refine ⟨fun same => ⟨same, ?_⟩, And.left⟩
      cases same
      exact unwound
    next broken =>
      refine ⟨nofun, fun ⟨same, unwound⟩ => ?_⟩
      cases same
      exact absurd unwound broken

/-- What takes a history has unwound when it ends. -/
lemma AgreeAt.tidily (agree : AgreeAt k h x y) : AgreeAt k h x.tidily y where
  same run := agree.same (run_tidily_eq_some_iff.1 run).1
  ends room := by
    obtain ⟨r, h', run⟩ := agree.ends room
    exact ⟨r, h', run_tidily_eq_some_iff.2 ⟨run, (agree.same run).2.unwound⟩⟩

end Run

namespace Engine

/-- The engine that may have `n` bodies open at a time, of calls and resolutions together. It gets
stuck over a call or a resolution that has not unwound when it ends, and over a body that leaves no
counter to be counted down. -/
def tidy : ℕ → Engine
  | 0 => ⟨callBy fun _ => Run.exhausted, resolveBy fun _ _ _ => Run.exhausted⟩
  | n + 1 =>
    { call := fun owner method args => Run.tidily
        (callBy (fun f => Run.within (fun h => 0 < h.callDepth) ((tidy n).execute f))
          owner method args)
      resolve := fun c ty => Run.tidily
        (resolveBy (fun c ty ref => Run.within (fun h => 0 < (h.container c).depth)
          ((tidy n).resolveBinding c ty ref)) c ty) }

/-- A tidy engine ends as the engine without levels does wherever the counters leave room for no
more bodies than it may have open: no exit is ever untidy. -/
theorem agree_tidy (n : ℕ) : Agree (n + 1) (tidy n) unlimited := by
  induction n with
  | zero =>
    rw [← next_unlimited, tidy]
    exact agree_next (fun _ _ _ => .exhausted) fun _ _ _ _ _ _ => .exhausted
  | succ n ih =>
    have bodies : Agree (n + 1 + 1)
        ⟨callBy fun f => Run.within (fun h => 0 < h.callDepth) ((tidy n).execute f),
          resolveBy fun c ty ref => Run.within (fun h => 0 < (h.container c).depth)
            ((tidy n).resolveBinding c ty ref)⟩ unlimited.next := by
      refine agree_next (fun f h room => ?_) fun c ty ref h valid room => ?_
      · have counts : 0 < h.enterCall.callDepth := Nat.succ_pos _
        refine .within counts (fun history => ?_) (ih.execute f)
        rw [history.keeps.callDepth]
        exact counts
      · have counts : 0 < ((h.enterResolution c).container c).depth := by
          rw [container_enterResolution_self valid]
          exact Nat.succ_pos _
        refine .within counts (fun history => ?_) (ih.resolveBinding c ty ref)
        rw [history.keeps.depth]
        exact counts
    rw [← next_unlimited, tidy]
    exact ⟨fun h owner method args => (bodies.call h owner method args).tidily,
      fun h c ty => (bodies.resolve h c ty).tidily⟩

end Engine

/-! ## Embedding code -/

/-- Rules for the code of modules that also permit resolutions and the making of instances if they
permit what happens inside, and bindings to hold answers. -/
structure Host.BaseDiscipline (R : Host → Host → Prop) : Prop extends Host.BaseRule R where
  resolution {h h' : Host} {c : ContainerRef} : (h.container c).depth < maxResolveDepth →
    R (h.enterResolution c) h' → R h (h'.leaveResolution c)
  production {h h' : Host} {ref : BindingRef} : (h.binding ref).producing = false →
    R (h.markProducing ref true) h' → R h (h'.markProducing ref false)
  hold (h : Host) (ref : BindingRef) (value : Value) : R h (h.hold ref value)

/-- Rules for all code that permit this. -/
structure Host.Discipline (R : Host → Host → Prop) : Prop
  extends Host.Rule R, Host.BaseDiscipline R

instance {R : Host → Host → Prop} : Coe (Discipline R) (BaseDiscipline R) :=
  ⟨Discipline.toBaseDiscipline⟩

lemma Host.discipline_unwound : Discipline Unwound where
  refl := .refl
  trans := .trans
  deed deed := .of_change deed.change
  declare _ c ty steps := ((History.change (.bind c ty)).trans (.configure _ steps)).unwound
  call _ body := body.call
  resolution _ body := body.resolution
  production idle body := body.production idle
  hold _ ref value := .of_change (.hold ref value)

lemma Host.discipline_history : Discipline History where
  refl := .refl
  trans := .trans
  deed deed := .change deed.change
  declare _ c ty steps := .trans (.change (.bind c ty)) (.configure _ steps)
  call := .call
  resolution := .resolution _
  production := .production _
  hold _ ref value := .change (.hold ref value)

/-- What permits the parts of a resolution permits it as a whole. -/
lemma Host.Discipline.law {R : Host → Host → Prop} (discipline : Discipline R) : Law R where
  toRule := discipline.toRule
  resolution {h h₁ h₂ c ty ref r} _ room _ idle body settles _ := by
    have settled : R h₁ h₂ := by
      rcases eq_or_eq_hold_of_settles settles with rfl | ⟨value, -, -, rfl⟩
      · exact discipline.refl _
      · exact discipline.hold h₁ ref value
    have idle : ((h.enterResolution c).binding ref).producing = false := idle
    exact discipline.resolution room (discipline.production idle (discipline.trans body settled))

/-- Embedding code that obeys a rule. -/
structure Embedding.Obeys (R : Host → Host → Prop) (code : Embedding) : Prop where
  factory (h : Host) (factory : SuppliedFactory) (c : ContainerRef) :
    Run.ObeysAt R h (code.factory factory c)
  injector (h : Host) (injector : SuppliedInjector) (instance_ : Value) (c : ContainerRef) :
    Run.ObeysAt R h (code.injector injector instance_ c)

namespace Engine.Obeys

open Run (ObeysAt)

variable {R : Host → Host → Prop} {e : Engine} {code : Embedding} {h : Host}

/-- A bracket that a rule permits around what obeys it. -/
lemma between {α : Type} {enter leave : Host → Host} {x : Run α}
    (permits : ∀ {h'}, R (enter h) h' → R h (leave h')) (obeys : ObeysAt R (enter h) x) :
    ObeysAt R h (Run.between enter leave x) := by
  intro r h' run
  rw [Run.run_between, Option.map_eq_some_iff] at run
  obtain ⟨⟨r, h'⟩, run, same⟩ := run
  cases same
  exact permits (obeys run)

variable (discipline : BaseDiscipline R) (obeys : e.Obeys R) (acts : code.Obeys R)
include discipline

omit obeys in
lemma settle (ref : BindingRef) (produced : Value) : ObeysAt R h (Engine.settle ref produced) := by
  refine .get_bind ?_
  dsimp only
  split
  · exact discipline.toBaseRule.throw _
  · show ObeysAt R h (modify (·.hold ref produced))
    exact .modify (discipline.hold h ref produced)
  · exact discipline.toBaseRule.pure _

include obeys acts

lemma runFactoryWith (factory : Factory) (c : ContainerRef) :
    ObeysAt R h (e.runFactoryWith code factory c) := by
  cases factory with
  | supplied factory => exact acts.factory h factory c
  | woven handle => exact obeys.runOwnFactory discipline.toBaseRule (.woven handle) c nofun
  | introspected ty => exact obeys.runOwnFactory discipline.toBaseRule (.introspected ty) c nofun

lemma runInjectorWith (injector : Injector) (instance_ : Value) (c : ContainerRef) :
    ObeysAt R h (e.runInjectorWith code injector instance_ c) := by
  cases injector with
  | supplied injector => exact acts.injector h injector instance_ c
  | woven handle => exact obeys.runOwnInjector discipline.toBaseRule (.woven handle) instance_ c nofun
  | introspected owner fields =>
    exact obeys.runOwnInjector discipline.toBaseRule (.introspected owner fields) instance_ c nofun

lemma produceWith (c : ContainerRef) (b : Binding) : ObeysAt R h (e.produceWith code c b) := by
  unfold Engine.produceWith
  split
  · exact discipline.toBaseRule.pure _
  · exact acts.factory h _ c
  · exact discipline.toBaseRule.bind (discipline.toBaseRule.factoryOf _) fun factory _ =>
      obeys.runFactoryWith discipline acts factory c

lemma resolveBindingWith (c : ContainerRef) (ty : String) (ref : BindingRef) :
    ObeysAt R h (e.resolveBindingWith code c ty ref) := by
  have rule := discipline.toBaseRule
  refine .get_bind ?_
  dsimp only
  split
  · exact rule.bind (Obeys.checkInstance rule _ ty) fun _ _ => rule.pure _
  refine rule.check fun idle => ?_
  refine between (discipline.production (by simpa using idle)) ?_
  refine rule.bind (obeys.produceWith discipline acts c _) fun produced _ =>
    rule.bind (Obeys.checkInstance rule produced ty) fun _ _ =>
    rule.bind (rule.injectorOf? ty) fun injector _ => ?_
  cases injector with
  | none => exact rule.bind (settle discipline ref produced) fun _ _ => rule.pure _
  | some injector =>
    exact rule.bind (obeys.runInjectorWith discipline acts injector produced c) fun _ _ =>
      rule.bind (settle discipline ref produced) fun _ _ => rule.pure _

/-- One level up, with embedding code that obeys the rule. -/
lemma nextWith : (e.nextWith code).Obeys R where
  call _ owner method args := obeys.callNext discipline.toBaseRule owner method args
  resolve h c ty := by
    refine .get_bind (discipline.toBaseRule.check fun room =>
      between (discipline.resolution (Nat.lt_of_not_le room)) (.get_bind ?_))
    cases (h.enterResolution c).bindingFor? c ty with
    | none => exact discipline.toBaseRule.throw _
    | some ref => exact obeys.resolveBindingWith discipline acts c ty ref

end Engine.Obeys

/-- Whatever the engine without levels does is a history. -/
lemma Engine.obeys_history : unlimited.Obeys History :=
  obeys_unlimited discipline_history.law

/-- Engines of every level obey a rule, whatever embedding code does with an engine that obeys it. -/
theorem Engine.obeys_ofLevelWith {R : Host → Host → Prop} (discipline : BaseDiscipline R)
    {code : Engine → Embedding} (acts : ∀ e : Engine, e.Obeys R → (code e).Obeys R) (level : ℕ) :
    (ofLevelWith code level).Obeys R := by
  induction level with
  | zero => exact ⟨fun _ _ _ _ => .exhausted, fun _ _ _ => .exhausted⟩
  | succ level ih => exact ih.nextWith discipline (acts _ ih)

end Weaver
