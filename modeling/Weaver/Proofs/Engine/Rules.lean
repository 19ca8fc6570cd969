import Mathlib.Tactic.Common
import Weaver.Host.Load
import Weaver.Proofs.Host.History
import Weaver.Proofs.Host.Outcome

/-!
# Rules that all code obeys

A rule relates the host before a run to the host after it. If a rule permits every single change
that code makes by itself, permits changes one after the other, and is not broken by a call around
them, then it is obeyed by whatever code does apart from resolving. Resolutions are left to the
engine, so that a rule can say more about them than that some bracket is opened and closed.

Three things live here:

* `Host.Deed`, a single change that leaves containers and bindings alone. What it puts into a cache
  of the registry is what the fallback supplies at that time;
* `Host.BaseRule`, `Host.Rule` and `Run.ObeysAt`, what it takes to be a rule, for the code of modules
  and for all code, and to obey it;
* one lemma for each function of the engine, by which it obeys a rule if the engine does.
-/

namespace Weaver

open Host

/-! ## Deeds -/

/-- The factory that the fallback of a host supplies for a type. -/
def Host.suppliedFactory? (h : Host) (ty : String) : Option Factory :=
  match h.registry.fallback with
  | none => none
  | some .introspection => Run.introspectedFactory? h ty
  | some (.listed factories _) => (factories.find? ty).map .supplied

/-- The injector that the fallback of a host supplies for a type. -/
def Host.suppliedInjector? (h : Host) (ty : String) : Option Injector :=
  match h.registry.fallback with
  | none => none
  | some .introspection => Run.introspectedInjector? h ty
  | some (.listed _ injectors) => (injectors.find? ty).map .supplied

/-- A change that leaves containers and bindings alone. Only what the fallback supplies is cached. -/
inductive Host.Deed (h : Host) : Host → Prop where
  | allocate (object : HeapObject) : Deed h (h.allocate object).2
  | store {ref : ObjectRef} {owner name : String} {value : Value} {h' : Host}
      (stored : h.setDeclared? ref owner name value = some h') : Deed h h'
  | print (line : String) : Deed h { h with output := h.output ++ [line] }
  | note (line : String) : Deed h { h with log := h.log ++ [line] }
  | count (counter : CounterRef) :
      Deed h { h with counters := h.counters.modify counter.index (· + 1) }
  | registerFactory {ty : String} {factory : Factory} {registry : Registry}
      (added : h.registry.addFactory ty factory = .ok registry) : Deed h { h with registry }
  | registerInjector {ty : String} {injector : Injector} {registry : Registry}
      (added : h.registry.addInjector ty injector = .ok registry) : Deed h { h with registry }
  | cacheFactory {ty : String} {factory : Factory}
      (supplied : h.suppliedFactory? ty = some factory) :
      Deed h { h with registry := h.registry.cacheFactory ty factory }
  | cacheInjector {ty : String} {injector : Injector}
      (supplied : h.suppliedInjector? ty = some injector) :
      Deed h { h with registry := h.registry.cacheInjector ty injector }

namespace Host.Deed

variable {h h' : Host}

lemma change (deed : Deed h h') : Change h h' := by
  cases deed with
  | allocate object => exact .allocate object
  | store stored => exact .store stored
  | print line => exact .print line
  | note line => exact .note line
  | count counter => exact .count counter
  | registerFactory added => exact .registerFactory added
  | registerInjector added => exact .registerInjector added
  | cacheFactory => exact .cacheFactory _ _
  | cacheInjector => exact .cacheInjector _ _

lemma bindings (deed : Deed h h') : h'.bindings = h.bindings := by
  cases deed with
  | store stored =>
    obtain ⟨-, rfl⟩ := setDeclared?_eq_some_iff.1 stored
    rfl
  | _ => rfl

lemma containers (deed : Deed h h') : h'.containers = h.containers := by
  cases deed with
  | store stored =>
    obtain ⟨-, rfl⟩ := setDeclared?_eq_some_iff.1 stored
    rfl
  | _ => rfl

end Host.Deed

/-! ## Rules -/

/-- A new binding of a container, configured step by step. -/
def Host.declareWith (h : Host) (c : ContainerRef) (ty : String) (steps : List BindingStep) :
    Host :=
  (h.bind c ty).2.configure (h.bind c ty).1 steps

/-- What relations have to permit for the code of modules to obey them: that nothing happens, that
one thing happens after the other, deeds, and calls. -/
structure Host.BaseRule (R : Host → Host → Prop) : Prop where
  refl (h : Host) : R h h
  trans {h₁ h₂ h₃ : Host} : R h₁ h₂ → R h₂ h₃ → R h₁ h₃
  deed {h h' : Host} : Deed h h' → R h h'
  call {h h' : Host} : h.callDepth < maxCallDepth → R h.enterCall h' → R h h'.leaveCall

/-- What relations have to permit for all code to obey them. Recipes also add bindings. -/
structure Host.Rule (R : Host → Host → Prop) : Prop extends Host.BaseRule R where
  declare (h : Host) (c : ContainerRef) (ty : String) (steps : List BindingStep) :
    R h (h.declareWith c ty steps)

instance {R : Host → Host → Prop} : Coe (Rule R) (BaseRule R) := ⟨Rule.toBaseRule⟩

/-- Wherever the run ends from a host, the rule permits it. -/
def Run.ObeysAt (R : Host → Host → Prop) {α : Type} (h : Host) (x : Run α) : Prop :=
  ∀ ⦃r : Except HostError α⦄ ⦃h' : Host⦄, x.run h = some (r, h') → R h h'

/-- An engine whose calls and resolutions obey a rule. -/
structure Engine.Obeys (R : Host → Host → Prop) (e : Engine) : Prop where
  call (h : Host) (owner : LoadedType) (method : Method) (args : List Value) :
    Run.ObeysAt R h (e.call owner method args)
  resolve (h : Host) (c : ContainerRef) (ty : String) : Run.ObeysAt R h (e.resolve c ty)

/-! ## Pieces -/

section

variable {R : Host → Host → Prop} {α β : Type} {h h' : Host} {x : Run α} {f : α → Run β}

namespace Run.ObeysAt

lemma of_run {r : Except HostError α} (run : x.run h = some (r, h')) (permitted : R h h') :
    ObeysAt R h x := by
  intro r₁ h₁ run₁
  rw [run] at run₁
  cases run₁
  exact permitted

lemma exhausted : ObeysAt R h (Run.exhausted : Run α) := by
  intro r h' run
  cases run

lemma get_bind {f : Host → Run β} (next : ObeysAt R h (f h)) : ObeysAt R h (get >>= f) :=
  fun _ _ run => next run

lemma modify {u : Host → Host} (permitted : R h (u h)) :
    ObeysAt R h (modify u : Run PUnit) :=
  of_run rfl permitted

lemma attempt (obeys : ObeysAt R h x) : ObeysAt R h x.attempt := by
  intro r h' run
  rw [Run.run_attempt, Option.map_eq_some_iff] at run
  obtain ⟨⟨r, h'⟩, run, same⟩ := run
  cases same
  exact obeys run

end Run.ObeysAt

namespace Host.BaseRule

open Run (ObeysAt)

variable (rule : BaseRule R)
include rule

lemma pure (a : α) : ObeysAt R h (Pure.pure a : Run α) := .of_run rfl (rule.refl h)

lemma throw (e : HostError) : ObeysAt R h (throw e : Run α) := .of_run rfl (rule.refl h)

lemma fault (cause : ExecutionFault) : ObeysAt R h (Run.fault cause : Run α) := rule.throw _

lemma bind (first : ObeysAt R h x) (second : ∀ a h', ObeysAt R h' (f a)) :
    ObeysAt R h (x >>= f) := by
  intro r h₂ run
  rcases outcome : x.run h with _ | ⟨_ | a, h₁⟩
  · rw [Run.run_bind, outcome] at run
    cases run
  · rw [Run.run_bind_of_error outcome] at run
    cases run
    exact first outcome
  · rw [Run.run_bind_of_ok outcome] at run
    exact rule.trans (first outcome) (second a h₁ run)

lemma bind_of_ok {a : α} (run : x.run h = some (.ok a, h')) (permitted : R h h')
    (next : ObeysAt R h' (f a)) : ObeysAt R h (x >>= f) := by
  intro r h₂ ended
  rw [Run.run_bind_of_ok run] at ended
  exact rule.trans permitted (next ended)

lemma set_bind {f : PUnit → Run β} (permitted : R h h') (next : ObeysAt R h' (f ⟨⟩)) :
    ObeysAt R h (set h' >>= f) :=
  fun _ _ run => rule.trans permitted (next run)

/-- A check that code makes before it goes on. -/
lemma check {γ : Type} {p : Prop} [Decidable p] {cause : ExecutionFault} {f : γ → Run α}
    (next : ¬p → ObeysAt R h x) : ObeysAt R h (if p then Run.fault cause >>= f else x) := by
  split
  · exact .of_run rfl (rule.refl h)
  next passed => exact next passed

lemma ofExcept (e : Except HostError α) : ObeysAt R h (Run.ofExcept e) := by
  cases e with
  | error e => exact rule.throw e
  | ok a => exact rule.pure a

lemma orNone (obeys : ObeysAt R h x) : ObeysAt R h x.orNone := by
  refine rule.bind (obeys.attempt) fun r h' => ?_
  cases r with
  | ok a => exact rule.pure _
  | error e =>
    dsimp only
    split
    · exact rule.pure _
    · exact rule.throw e

/-! ## Code without recursion -/

lemma allocate (object : HeapObject) : ObeysAt R h (Run.allocate object) :=
  .get_bind (rule.set_bind (rule.deed (.allocate object)) (rule.pure _))

lemma instantiate (ty : String) : ObeysAt R h (Run.instantiate ty) :=
  .get_bind (rule.bind (rule.ofExcept _) fun _ _ => rule.allocate _)

lemma obtain (source : Source) : ObeysAt R h (Run.obtain source) := by
  cases source with
  | fixed value => exact .of_run rfl (rule.refl h)
  | fresh ty => exact .of_run rfl (rule.deed (.allocate { ty }))
  | kept name => exact .of_run rfl (rule.refl h)

lemma note (line : String) : ObeysAt R h (Run.note line) :=
  ObeysAt.modify (rule.deed (.note line))

lemma countCall (counter : CounterRef) : ObeysAt R h (Run.countCall counter) :=
  rule.bind (.modify (rule.deed (.count counter))) fun _ _ =>
    .get_bind (rule.pure _)

lemma registerFactory (ty : String) (factory : Factory) :
    ObeysAt R h (Run.registerFactory ty factory) := by
  refine .get_bind ?_
  cases added : h.registry.addFactory ty factory with
  | error e => exact .of_run rfl (rule.refl h)
  | ok registry => exact .of_run rfl (rule.deed (.registerFactory added))

lemma registerInjector (ty : String) (injector : Injector) :
    ObeysAt R h (Run.registerInjector ty injector) := by
  refine .get_bind ?_
  cases added : h.registry.addInjector ty injector with
  | error e => exact .of_run rfl (rule.refl h)
  | ok registry => exact .of_run rfl (rule.deed (.registerInjector added))

lemma registerWoven (kind : EntryKind) (ty : String) (handle : MethodHandle) :
    ObeysAt R h (Run.registerWoven kind ty handle) := by
  refine .get_bind ?_
  dsimp only
  cases h.types.find? handle.owner with
  | none => exact rule.fault _
  | some owner =>
  dsimp only
  cases owner.definition.method? handle.method with
  | none => exact rule.fault _
  | some method =>
  dsimp only
  cases h.types.find? ty with
  | none => exact rule.fault _
  | some target =>
  refine rule.check fun _ => rule.check fun _ => rule.check fun _ => ?_
  cases kind with
  | factory => exact rule.registerFactory ty _
  | injector => exact rule.registerInjector ty _

/-- What a fallback supplies it still supplies when it has noted that it was asked. -/
lemma exists_run_fallbackFactory? {fallback : Fallback}
    (used : h.registry.fallback = some fallback) (ty : String) :
    ∃ h', (Run.fallbackFactory? ty fallback).run h = some (.ok (h'.suppliedFactory? ty), h') ∧
      R h h' := by
  cases fallback with
  | introspection =>
    have supplied : h.suppliedFactory? ty = Run.introspectedFactory? h ty := by
      rw [suppliedFactory?, used]
    exact ⟨h, by rw [supplied]; rfl, rule.refl h⟩
  | listed factories injectors =>
    let h' : Host := { h with log := h.log ++ [s!"factory_for {ty}"] }
    have supplied : h'.suppliedFactory? ty = (factories.find? ty).map .supplied := by
      rw [suppliedFactory?, show h'.registry.fallback = _ from used]
    exact ⟨h', by rw [supplied]; rfl, rule.deed (.note _)⟩

lemma exists_run_fallbackInjector? {fallback : Fallback}
    (used : h.registry.fallback = some fallback) (ty : String) :
    ∃ h', (Run.fallbackInjector? ty fallback).run h = some (.ok (h'.suppliedInjector? ty), h') ∧
      R h h' := by
  cases fallback with
  | introspection =>
    have supplied : h.suppliedInjector? ty = Run.introspectedInjector? h ty := by
      rw [suppliedInjector?, used]
    exact ⟨h, by rw [supplied]; rfl, rule.refl h⟩
  | listed factories injectors =>
    let h' : Host := { h with log := h.log ++ [s!"injector_for {ty}"] }
    have supplied : h'.suppliedInjector? ty = (injectors.find? ty).map .supplied := by
      rw [suppliedInjector?, show h'.registry.fallback = _ from used]
    exact ⟨h', by rw [supplied]; rfl, rule.deed (.note _)⟩

lemma factoryOf (ty : String) : ObeysAt R h (Run.factoryOf ty) := by
  refine .get_bind ?_
  dsimp only
  split
  · exact rule.pure _
  · exact rule.throw _
  next used =>
  split
  · exact rule.pure _
  obtain ⟨h', run, permitted⟩ := rule.exists_run_fallbackFactory? used ty
  refine rule.bind_of_ok run permitted ?_
  cases supplied : h'.suppliedFactory? ty with
  | none => exact rule.throw _
  | some factory =>
    exact rule.bind (.modify (rule.deed (.cacheFactory supplied))) fun _ _ => rule.pure _

lemma injectorOf? (ty : String) : ObeysAt R h (Run.injectorOf? ty) := by
  refine .get_bind ?_
  dsimp only
  split
  · exact rule.pure _
  · exact rule.pure _
  next used =>
  split
  · exact rule.pure _
  obtain ⟨h', run, permitted⟩ := rule.exists_run_fallbackInjector? used ty
  refine rule.bind_of_ok run permitted ?_
  cases supplied : h'.suppliedInjector? ty with
  | none => exact rule.pure _
  | some injector =>
    exact rule.bind (.modify (rule.deed (.cacheInjector supplied))) fun _ _ => rule.pure _

/-! ### Frames -/

lemma lookup (f : Engine.Frame) (ty : String) : ObeysAt R h (f.lookup ty) := by
  refine .get_bind ?_
  dsimp only
  cases h.types.find? ty with
  | none => exact rule.fault _
  | some target => exact rule.check fun _ => rule.pure _

lemma checkMember (f : Engine.Frame) (target : LoadedType) (visibility : Visibility)
    (member : String) : ObeysAt R h (f.checkMember target visibility member) := by
  unfold Engine.Frame.checkMember
  split
  · exact rule.pure _
  · exact rule.fault _

lemma checkField (f : Engine.Frame) (target : LoadedType) (field : String) :
    ObeysAt R h (f.checkField target field) := by
  unfold Engine.Frame.checkField
  split
  · exact rule.checkMember f _ _ _
  · exact rule.fault _

lemma pop (f : Engine.Frame) (stack : List Value) : ObeysAt R h (f.pop stack) := by
  cases stack with
  | nil => exact rule.fault _
  | cons value stack => exact rule.pure _

lemma popObject (f : Engine.Frame) (stack : List Value) : ObeysAt R h (f.popObject stack) := by
  refine rule.bind (rule.pop f stack) fun ⟨value, stack⟩ h' => ?_
  cases value with
  | object ref => exact rule.pure _
  | _ => exact .get_bind (rule.fault _)

lemma popMany (f : Engine.Frame) (count : ℕ) (stack : List Value) :
    ObeysAt R h (f.popMany count stack) := by
  unfold Engine.Frame.popMany
  split
  · exact rule.fault _
  · exact rule.pure _

end Host.BaseRule

end

/-! ## Code over engines -/

namespace Engine.Obeys

open Run (ObeysAt)

variable {R : Host → Host → Prop} {e : Engine} {h : Host}

section Calls

variable (rule : BaseRule R) (obeys : e.Obeys R)
include rule obeys

lemma invoke (owner method : String) (args : List Value) :
    ObeysAt R h (e.invoke owner method args) := by
  refine .get_bind ?_
  cases h.types.find? owner with
  | none => exact rule.fault _
  | some target =>
  dsimp only
  cases target.definition.methodNamed? method with
  | none => exact rule.fault _
  | some callee => exact obeys.call h target callee args

lemma invokeHandle (handle : MethodHandle) (args : List Value) :
    ObeysAt R h (e.invokeHandle handle args) := by
  refine .get_bind ?_
  cases h.types.find? handle.owner with
  | none => exact rule.fault _
  | some target =>
  dsimp only
  cases target.definition.member? handle.method with
  | none => exact rule.fault _
  | some callee => exact obeys.call h target callee args

lemma construct (ty : String) (ctor : Uuid) (args : List Value) :
    ObeysAt R h (e.construct ty ctor args) := by
  refine .get_bind ?_
  dsimp only
  cases h.types.find? ty with
  | none => exact rule.fault _
  | some target =>
  refine rule.check fun _ => ?_
  cases target.definition.constructor? ctor with
  | none => exact rule.fault _
  | some callee =>
    exact rule.bind (rule.instantiate ty) fun object h' =>
      rule.bind (obeys.call h' _ _ _) fun _ _ => rule.pure _

lemma tryResolve (c : ContainerRef) (ty : String) : ObeysAt R h (e.tryResolve c ty) :=
  rule.orNone (obeys.resolve h c ty)

lemma probe (c : ContainerRef) (params : List Parameter) : ObeysAt R h (e.probe c params) := by
  induction params generalizing h with
  | nil => exact rule.pure _
  | cons p rest ih =>
    refine rule.bind (obeys.tryResolve rule c p.ty) fun value h' => ?_
    cases value with
    | none => exact rule.pure _
    | some value => exact rule.bind ih fun _ _ => rule.pure _

lemma constructFirst (ty : String) (c : ContainerRef) (ctors : List Method) :
    ObeysAt R h (e.constructFirst ty c ctors) := by
  induction ctors generalizing h with
  | nil => exact rule.throw _
  | cons ctor rest ih =>
    refine rule.bind (obeys.probe rule c ctor.params) fun args h' => ?_
    cases args with
    | none => exact ih
    | some args => exact obeys.construct rule ty ctor.id args

/-- The factory of a module builds an instance: a woven method does, or the code that stands in for
one. -/
lemma runOwnFactory (factory : Factory) (c : ContainerRef)
    (own : ∀ supplied, factory ≠ .supplied supplied) : ObeysAt R h (e.runFactory factory c) := by
  cases factory with
  | woven handle =>
    refine rule.bind (obeys.invokeHandle rule handle _) fun value h' => ?_
    cases value with
    | none => exact rule.fault _
    | some value => exact rule.pure _
  | supplied factory => exact absurd rfl (own factory)
  | introspected ty =>
    refine .get_bind ?_
    cases h.typeDef? ty with
    | none => exact rule.throw _
    | some t =>
      dsimp only
      split
      · exact rule.instantiate ty
      · exact obeys.constructFirst rule ty c _

lemma fillFields (owner : String) (ref : ObjectRef) (c : ContainerRef)
    (fields : List (String × String)) : ObeysAt R h (e.fillFields owner ref c fields) := by
  induction fields generalizing h with
  | nil => exact rule.pure _
  | cons field rest ih =>
    refine rule.bind (obeys.resolve h c field.2) fun value h' => .get_bind ?_
    dsimp only
    cases stored : h'.setDeclared? ref owner field.1 value with
    | none => exact rule.bind (rule.fault _) fun _ _ => ih
    | some h'' =>
      obtain ⟨-, rfl⟩ := setDeclared?_eq_some_iff.1 stored
      exact rule.set_bind (rule.deed (.store stored)) ih

/-- The injector of a module fills the fields of an instance, in either way. -/
lemma runOwnInjector (injector : Injector) (instance_ : Value) (c : ContainerRef)
    (own : ∀ supplied, injector ≠ .supplied supplied) :
    ObeysAt R h (e.runInjector injector instance_ c) := by
  cases injector with
  | woven handle =>
    exact rule.bind (obeys.invokeHandle rule handle _) fun _ _ => rule.pure _
  | supplied injector => exact absurd rfl (own injector)
  | introspected owner fields =>
    cases instance_ with
    | object ref => exact obeys.fillFields rule owner ref c fields
    | _ => exact .get_bind (rule.throw _)

lemma runHooks (hooks : List MethodHandle) : ObeysAt R h (Host.runHooks e hooks) := by
  induction hooks generalizing h with
  | nil => exact rule.pure _
  | cons hook rest ih => exact rule.bind (obeys.invokeHandle rule hook []) fun _ _ => ih

omit obeys in
lemma checkInstance (value : Value) (ty : String) :
    ObeysAt R h (Engine.checkInstance value ty) := by
  refine .get_bind ?_
  split
  · exact rule.throw _
  · exact rule.pure _

/-! ### Bodies -/

lemma step (f : Frame) (stack : List Value) (i : Instr) : ObeysAt R h (e.step f stack i) := by
  cases i with
  | loadArg index =>
    simp only [Engine.step]
    split
    · exact rule.pure _
    · exact rule.fault _
  | loadConst value => exact rule.pure _
  | loadField owner field =>
    refine rule.bind (rule.lookup f owner) fun target _ =>
      rule.bind (rule.checkField f target field) fun _ _ =>
      rule.bind (rule.popObject f stack) fun ⟨ref, stack⟩ h' => .get_bind ?_
    split
    · exact rule.pure _
    · exact rule.fault _
  | storeField owner field =>
    refine rule.bind (rule.lookup f owner) fun target _ =>
      rule.bind (rule.checkField f target field) fun _ _ =>
      rule.bind (rule.pop f stack) fun ⟨value, stack⟩ _ =>
      rule.bind (rule.popObject f stack) fun ⟨ref, stack⟩ h' => .get_bind ?_
    cases stored : h'.setDeclared? ref owner field value with
    | none => exact rule.fault _
    | some h'' =>
      obtain ⟨-, rfl⟩ := setDeclared?_eq_some_iff.1 stored
      exact rule.set_bind (rule.deed (.store stored)) (rule.pure _)
  | newObject owner ctor =>
    refine rule.bind (rule.lookup f owner) fun target _ => ?_
    cases target.definition.constructor? ctor with
    | none => exact rule.fault _
    | some callee =>
      exact rule.bind (rule.checkMember f target _ _) fun _ _ =>
        rule.bind (rule.popMany f _ stack) fun _ _ =>
        rule.bind (obeys.construct rule owner ctor _) fun _ _ => rule.pure _
  | call owner method =>
    refine rule.bind (rule.lookup f owner) fun target _ => ?_
    cases target.definition.member? method with
    | none => exact rule.fault _
    | some callee =>
      exact rule.bind (rule.checkMember f target _ _) fun _ _ =>
        rule.bind (rule.popMany f _ stack) fun _ _ =>
        rule.bind (obeys.call _ target callee _) fun _ _ => rule.pure _
  | loadMethod owner method =>
    refine rule.bind (rule.lookup f owner) fun target _ => ?_
    cases target.definition.method? method with
    | none => exact rule.fault _
    | some callee =>
      refine rule.check fun _ => ?_
      exact rule.bind (rule.checkMember f target _ _) fun _ _ => rule.pure _
  | resolve ty =>
    refine rule.bind (rule.pop f stack) fun ⟨value, stack⟩ h' => ?_
    cases value with
    | container c => exact rule.bind (obeys.resolve h' c ty) fun _ _ => rule.pure _
    | _ => exact rule.fault _
  | register kind ty =>
    refine rule.bind (rule.pop f stack) fun ⟨value, stack⟩ h' => ?_
    cases value with
    | method handle =>
      exact rule.bind (rule.registerWoven kind ty handle) fun _ _ => rule.pure _
    | _ => exact rule.fault _
  | upcast ty =>
    refine rule.bind (rule.pop f stack) fun ⟨value, _⟩ h' => .get_bind ?_
    exact rule.check fun _ => rule.pure _
  | print =>
    exact rule.bind (rule.pop f stack) fun _ _ => .get_bind
      (rule.bind (.modify (rule.deed (.print _))) fun _ _ => rule.pure _)
  | dup => exact rule.bind (rule.pop f stack) fun _ _ => rule.pure _
  | pop => exact rule.bind (rule.pop f stack) fun _ _ => rule.pure _
  | ret => exact rule.pure _

lemma runBody (f : Frame) (stack : List Value) (body : List Instr) :
    ObeysAt R h (e.runBody f stack body) := by
  induction body generalizing h stack with
  | nil =>
    rw [Engine.runBody]
    exact rule.pure _
  | cons i rest ih =>
    by_cases ret : i = .ret
    · subst ret
      rw [Engine.runBody]
      exact rule.pure _
    · rw [Engine.runBody] <;> try exact ret
      exact rule.bind (obeys.step rule f stack i) fun stack _ => ih stack

lemma execute (f : Frame) : ObeysAt R h (e.execute f) := by
  refine rule.bind (obeys.runBody rule f [] _) fun stack h' => ?_
  dsimp only
  split
  · exact rule.bind (rule.pop f stack) fun _ _ => rule.pure _
  · exact rule.pure _

/-! ### One level more -/

lemma callNext (owner : LoadedType) (method : Method) (args : List Value) :
    ObeysAt R h (e.callNext owner method args) := by
  refine rule.check fun _ => .get_bind ?_
  by_cases room : maxCallDepth ≤ h.callDepth
  · exact rule.check fun free => absurd room free
  · refine rule.check fun _ => ?_
    intro r h' run
    rw [Run.run_between, Option.map_eq_some_iff] at run
    obtain ⟨⟨r, h'⟩, run, same⟩ := run
    cases same
    exact rule.call (Nat.lt_of_not_le room) (obeys.execute rule _ run)

end Calls

/-! ### Recipes -/

mutual

lemma runRecipe (rule : Rule R) (obeys : e.Obeys R) (call : ℕ) (c : ContainerRef) :
    ∀ (recipe : Recipe) (h : Host), ObeysAt R h (e.runRecipe call c recipe)
  | .give source, _ => by
    rw [Engine.runRecipe]
    exact rule.obtain source
  | .instantiate ty, _ => by
    rw [Engine.runRecipe]
    exact rule.instantiate ty
  | .resolve ty, h => by
    rw [Engine.runRecipe]
    exact obeys.resolve h c ty
  | .tryResolve ty, _ => by
    rw [Engine.runRecipe]
    exact rule.bind (obeys.tryResolve rule c ty) fun _ _ => rule.pure _
  | .container, _ => by
    rw [Engine.runRecipe]
    exact rule.pure _
  | .count, _ => by
    rw [Engine.runRecipe]
    exact rule.pure _
  | .log line, _ => by
    rw [Engine.runRecipe]
    exact rule.bind (rule.note line) fun _ _ => rule.pure _
  | .invoke owner method, _ => by
    rw [Engine.runRecipe]
    exact rule.bind (obeys.invoke rule owner method _) fun _ _ => rule.pure _
  | .bind ty settings, h => by
    rw [Engine.runRecipe]
    exact .of_run rfl (rule.declare h c ty settings)
  | .fail error, _ => by
    rw [Engine.runRecipe]
    exact rule.throw error
  | .sequence recipes, h => by
    rw [Engine.runRecipe]
    exact obeys.runRecipes rule call c recipes .null h
  | .after calls error recipe, h => by
    rw [Engine.runRecipe]
    split
    · exact rule.throw error
    · exact obeys.runRecipe rule call c recipe h

lemma runRecipes (rule : Rule R) (obeys : e.Obeys R) (call : ℕ) (c : ContainerRef) :
    ∀ (recipes : List Recipe) (last : Value) (h : Host),
      ObeysAt R h (e.runRecipes call c last recipes)
  | [], _, _ => by
    rw [Engine.runRecipes]
    exact rule.pure _
  | recipe :: rest, _, h => by
    rw [Engine.runRecipes]
    exact rule.bind (obeys.runRecipe rule call c recipe h) fun value h' =>
      obeys.runRecipes rule call c rest value h'

end

section Entries

variable (rule : Rule R) (obeys : e.Obeys R)
include rule obeys

lemma runSuppliedFactory (factory : SuppliedFactory) (c : ContainerRef) :
    ObeysAt R h (e.runSuppliedFactory factory c) :=
  rule.bind (rule.countCall _) fun call h' => obeys.runRecipe rule call c _ h'

lemma runInjectorSteps (call : ℕ) (c : ContainerRef) (instance_ : Value)
    (steps : List InjectorStep) : ObeysAt R h (e.runInjectorSteps call c instance_ steps) := by
  induction steps generalizing h with
  | nil => exact rule.pure _
  | cons step rest ih =>
    cases step with
    | run recipe => exact rule.bind (obeys.runRecipe rule call c recipe h) fun _ _ => ih
    | assign owner field recipe =>
      unfold Engine.runInjectorSteps
      cases instance_ with
      | object ref =>
        refine rule.bind (obeys.runRecipe rule call c recipe h) fun value h' => .get_bind ?_
        dsimp only
        cases stored : h'.setDeclared? ref owner field value with
        | none => exact rule.bind (rule.note _) fun _ _ => ih
        | some h'' =>
          obtain ⟨-, rfl⟩ := setDeclared?_eq_some_iff.1 stored
          exact rule.set_bind (rule.deed (.store stored))
            (rule.bind (rule.note _) fun _ _ => ih)
      | _ => exact ih

lemma runFactory (factory : Factory) (c : ContainerRef) :
    ObeysAt R h (e.runFactory factory c) := by
  cases factory with
  | supplied factory => exact obeys.runSuppliedFactory rule factory c
  | _ => exact obeys.runOwnFactory rule _ c nofun

lemma runInjector (injector : Injector) (instance_ : Value) (c : ContainerRef) :
    ObeysAt R h (e.runInjector injector instance_ c) := by
  cases injector with
  | supplied injector =>
    exact rule.bind (rule.countCall _) fun call _ => obeys.runInjectorSteps rule call c instance_ _
  | _ => exact obeys.runOwnInjector rule _ instance_ c nofun

lemma inject (c : ContainerRef) (instance_ : Value) : ObeysAt R h (e.inject c instance_) := by
  cases instance_ with
  | object ref =>
    refine .get_bind (rule.bind (rule.injectorOf? _) fun injector h' => ?_)
    cases injector with
    | none => exact rule.pure _
    | some injector => exact obeys.runInjector rule injector _ c
  | _ => exact rule.pure _

lemma produce (c : ContainerRef) (b : Binding) : ObeysAt R h (e.produce c b) := by
  unfold Engine.produce
  split
  · exact rule.pure _
  · exact obeys.runSuppliedFactory rule _ c
  · exact rule.bind (rule.factoryOf _) fun factory _ => obeys.runFactory rule factory c

end Entries

end Engine.Obeys

end Weaver
