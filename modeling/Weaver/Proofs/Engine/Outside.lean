import Weaver.Proofs.Engine.Embedding
import Weaver.Proofs.Host.Privacy

/-!
# Runs outside of a type

Whether a run comes to a method of a type cannot be seen from how it ends. So let it give up there:
the engines of this file do what any engine does, but where a method of the type is about to run, or
embedding code would store into one of its private fields, they act as if their levels were used up.
A run that ends with such an engine ends as it does without, and has stayed outside of the type.

Three things live here:

* `Engine.executeOutside` and `Engine.sparing`, the two places where a run gives up;
* `Engine.outsideLevel`, the engines that give up there, and `Engine.agree_outsideLevel`, by which
  what ends with them ends as it does without;
* `Demand`, what embedding code asks of a host, and its answers from outside of a type.
-/

namespace Weaver

open Host

/-! ## Embedding code that spares private fields -/

/-- The step stores into no private field of the type. -/
def InjectorStep.Spares (t : TypeDef) : InjectorStep → Prop
  | .run _ => True
  | .assign owner field _ => t.Shows owner field

instance (t : TypeDef) : DecidablePred (InjectorStep.Spares t)
  | .run _ => .isTrue trivial
  | .assign owner field _ => inferInstanceAs (Decidable (t.Shows owner field))

namespace Engine

/-! ## Engines that give up -/

section

variable (t : TypeDef) (e : Engine)

/-- Runs a method, unless it is one of the type. -/
def executeOutside (f : Frame) : Run (Option Value) :=
  if f.owner.definition.name = t.name then Run.exhausted else e.execute f

/-- Calls a member, unless the number of arguments is wrong or too many calls are active. -/
def callOutside (owner : LoadedType) (method : Method) (args : List Value) :
    Run (Option Value) := do
  if args.length ≠ method.arity then
    Run.fault (.wrongArgumentCount owner.definition.name method.name method.arity args.length)
  if maxCallDepth ≤ (← get).callDepth then
    Run.fault (.callTooDeep owner.definition.name method.name)
  Run.between enterCall leaveCall (e.executeOutside t ⟨owner, method, args⟩)

/-- Recipes, followed on an engine, but for injectors with steps that store into private fields of
the type. -/
def sparing : Embedding where
  factory := e.recipes.factory
  injector injector instance_ c :=
    if ∀ step ∈ injector.steps, step.Spares t then e.recipes.injector injector instance_ c
    else Run.exhausted

/-- The engine of a level that stays outside of the type. -/
def outsideLevel : ℕ → Engine
  | 0 => ofLevel 0
  | level + 1 => ⟨(outsideLevel level).callOutside t,
      (outsideLevel level).resolveNextWith ((outsideLevel level).sparing t)⟩

/-- Fills the fields of an object by the injector of its type, over an embedding. -/
def injectWith (code : Embedding) (c : ContainerRef) (instance_ : Value) : Run Unit := do
  let .object ref := instance_ | return
  match ← Run.injectorOf? ((← get).object ref).ty with
  | some injector => e.runInjectorWith code injector instance_ c
  | none => return

end

/-- Factories store nothing by themselves, and are left alone. -/
lemma produceWith_sparing (t : TypeDef) (e : Engine) (c : ContainerRef) (b : Binding) :
    e.produceWith (e.sparing t) c b = e.produce c b := by
  have left (factory : Factory) :
      e.runFactoryWith (e.sparing t) factory c = e.runFactory factory c := by
    cases factory <;> rfl
  unfold produceWith produce
  simp only [left]
  rfl

/-! ## Runs that end as they do without -/

namespace Agree

open Run (AgreeAt)

variable {e e' : Engine} {t : TypeDef} {c : ContainerRef} {h : Host} (agree : Agree 0 e e')
include agree

/-- Where the first run gives up, nothing is asked of the second. -/
lemma sparing : (e.sparing t).Agree e' where
  factory _ factory c := agree.runSuppliedFactory factory c
  injector h injector instance_ c := by
    refine ⟨fun run => ?_, fun room => absurd room (Nat.not_lt_zero _)⟩
    rw [Engine.sparing] at run
    dsimp only at run
    split at run
    · exact (agree.runInjector (.supplied injector) instance_ c).same run
    · cases run

lemma callOutside (owner : LoadedType) (method : Method) (args : List Value) :
    AgreeAt 0 h (e.callOutside t owner method args) (e'.callNext owner method args) := by
  refine .check fun _ => .get_bind ?_
  by_cases room : maxCallDepth ≤ h.callDepth
  · exact .check fun free => absurd room free
  refine .check fun _ => .between (k := 0) (fun none => absurd none (Nat.not_lt_zero _))
    (.call (Nat.lt_of_not_le room)) ?_
  refine ⟨fun run => ?_, fun none => absurd none (Nat.not_lt_zero _)⟩
  rw [executeOutside] at run
  split at run
  · cases run
  · exact (agree.execute _).same run

lemma injectWith (instance_ : Value) :
    AgreeAt 0 h (e.injectWith (e.sparing t) c instance_) (e'.inject c instance_) := by
  cases instance_ with
  | object ref =>
    refine .get_bind (.bind (.injectorOf? _) fun injector h' => ?_)
    cases injector with
    | none => exact .pure _
    | some injector => exact agree.runInjectorWith agree.sparing injector _
  | _ => exact .pure _

end Agree

/-- What ends outside of a type ends as it does anywhere. -/
theorem agree_outsideLevel (t : TypeDef) (n : ℕ) : Agree 0 (outsideLevel t n) unlimited := by
  induction n with
  | zero => exact agree_unlimited 0
  | succ n ih =>
    rw [← next_unlimited]
    exact ⟨fun _ => ih.callOutside, fun _ _ _ => ih.resolveNextWith ih.sparing⟩

end Engine

/-! ## Demands of embedding code -/

/-- What embedding code demands of a host. -/
inductive Demand where
  | invoke (owner method : String) (args : List Value)
  | resolve (c : ContainerRef) (ty : String)
  | inject (c : ContainerRef) (instance_ : Value)

namespace Demand

/-- What the host answers: a result, if there is one. -/
def answer : Demand → Run (Option Value)
  | invoke owner method args => Host.invoke owner method args
  | resolve c ty => some <$> Host.resolve c ty
  | inject c instance_ => (fun _ => none) <$> Host.inject c instance_

/-- The answer from outside of a type, on a number of levels. -/
def answerOutside (t : TypeDef) (n : ℕ) : Demand → Run (Option Value)
  | invoke owner method args => (Engine.outsideLevel t n).invoke owner method args
  | resolve c ty => some <$> (Engine.outsideLevel t n).resolve c ty
  | inject c instance_ => (fun _ => none) <$> (Engine.outsideLevel t n).injectWith
      ((Engine.outsideLevel t n).sparing t) c instance_

/-- The demand is answered and leaves a host, and on the way to it no method of the type is run, and
no injector of embedding code that stores into a private field of the type. -/
def EndsOutside (demand : Demand) (t : TypeDef) (h : Host) (r : Except HostError (Option Value))
    (h' : Host) : Prop :=
  ∃ n, (demand.answerOutside t n).run h = some (r, h')

/-- What a host answers from outside of a type is what it answers. -/
theorem EndsOutside.answer {demand : Demand} {t : TypeDef} {h h' : Host}
    {r : Except HostError (Option Value)} (ends : demand.EndsOutside t h r h') :
    demand.answer.run h = some (r, h') := by
  obtain ⟨n, run⟩ := ends
  have agree := Engine.agree_outsideLevel t n
  have mapped {α : Type} {x y : Run α} {f : α → Option Value} (agree : Run.AgreeAt 0 h x y)
      (run : (f <$> x).run h = some (r, h')) : (f <$> y).run h = some (r, h') := by
    rw [map_eq_pure_bind] at run ⊢
    exact ((Run.AgreeAt.bind agree fun _ _ => .pure _).same run).1
  cases demand with
  | invoke owner method args =>
    rw [Demand.answer, Engine.invoke_unlimited]
    exact ((agree.invoke owner method args).same run).1
  | resolve c ty => exact mapped (agree.resolve h c ty) run
  | inject c instance_ =>
    rw [Demand.answer, Engine.inject_unlimited]
    exact mapped (agree.injectWith instance_) run

end Demand

end Weaver
