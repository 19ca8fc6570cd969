import Weaver.Proofs.Host.Validity
import Weaver.Proofs.Engine.Levels

/-!
# Code without a container

Load hooks are given nothing. All that such code can come by are the constants in its body and the
objects that it makes, and what it puts into their fields, so it never has a container to resolve
from. It runs woven code only: no binding is touched, nothing is resolved, and no error arises that
embedding code would have to raise.

Three things live here:

* `Value.Apart` and `Host.Secludes`, what such code comes by;
* `Run.SecludedAt`, with one lemma for each function of the engine that can be reached;
* `Engine.secluded_of_runHooks`, by which load hooks stay secluded.
-/

namespace Weaver

/-! ## What secluded code comes by -/

/-- A value that is no container, and no object before a given one. -/
def Value.Apart (n : ℕ) : Value → Prop
  | .container _ => False
  | .object ref => n ≤ ref.index
  | _ => True

/-- A value that is no container, and no object before a given one, in each place of a list. -/
def Value.AllApart (n : ℕ) (values : List Value) : Prop :=
  ∀ v ∈ values, v.Apart n

/-- What code that has started on a host, without a container and without an object, may have left
of it: containers and bindings are as they were, and no new object leads to them. -/
structure Host.Secludes (base h : Host) : Prop where
  size : base.objects.size ≤ h.objects.size
  slots (ref : ObjectRef) : base.objects.size ≤ ref.index →
    ∀ s ∈ (h.object ref).slots, s.value.Apart base.objects.size
  bindings : h.bindings = base.bindings
  containers : h.containers = base.containers

/-- The error of a module that is refused. -/
def HostError.IsRefusal (e : HostError) : Prop :=
  ∃ module fault, e = .load module fault

namespace Value

variable {n : ℕ}

lemma apart_defaultOf (n : ℕ) (ty : String) : (defaultOf ty).Apart n := by
  rw [defaultOf]
  split
  · trivial
  · split <;> trivial

lemma apart_ofConstant (n : ℕ) (constant : Constant) : (ofConstant constant).Apart n := by
  cases constant <;> trivial

lemma allApart_nil (n : ℕ) : AllApart n [] :=
  fun _ member => absurd member List.not_mem_nil

lemma allApart_cons {v : Value} {values : List Value} :
    AllApart n (v :: values) ↔ v.Apart n ∧ AllApart n values :=
  List.forall_mem_cons

end Value

namespace Host

variable {base h h' : Host}

/-- At first there are no new objects. -/
lemma secludes_self (h : Host) : h.Secludes h where
  size := le_rfl
  slots ref new s member := by
    have none : h.object ref = default := by
      simp [object, Array.getD_eq_getD_getElem?, Array.getElem?_eq_none new]
    rw [none] at member
    cases member
  bindings := rfl
  containers := rfl

namespace Secludes

lemma of_parts (secludes : base.Secludes h) (objects : h'.objects = h.objects)
    (bindings : h'.bindings = h.bindings) (containers : h'.containers = h.containers) :
    base.Secludes h' where
  size := by
    rw [objects]
    exact secludes.size
  slots ref new := by
    rw [object, objects]
    exact secludes.slots ref new
  bindings := bindings.trans secludes.bindings
  containers := containers.trans secludes.containers

lemma allocate (secludes : base.Secludes h) {o : HeapObject}
    (apart : ∀ s ∈ o.slots, s.value.Apart base.objects.size) :
    base.Secludes (h.allocate o).2 where
  size := secludes.size.trans (by simp [Host.allocate])
  slots ref new s member := by
    rcases mem_slots_allocate member with old | made
    · exact secludes.slots ref new s old
    · exact apart s made
  bindings := secludes.bindings
  containers := secludes.containers

lemma putDeclared (secludes : base.Secludes h) {value : Value}
    (apart : value.Apart base.objects.size) (ref : ObjectRef) (owner name : String) :
    base.Secludes (h.putDeclared ref owner name value) where
  size := secludes.size.trans (by simp [Host.putDeclared])
  slots ref' new s member := by
    rcases mem_slots_putDeclared member with old | stored
    · exact secludes.slots ref' new s old
    · rw [stored]
      exact apart
  bindings := secludes.bindings
  containers := secludes.containers

end Secludes

end Host

/-! ## Secluded runs -/

/-- A value with a property, or an error that is not that of a refused module. -/
def Run.Clear {α : Type} (good : α → Prop) : Except HostError α → Prop
  | .ok a => good a
  | .error e => ¬e.IsRefusal

/-- From a host that secluded code has left, the run leaves one again, and its outcome is clear. -/
def Run.SecludedAt {α : Type} (base h : Host) (x : Run α) (good : α → Prop) : Prop :=
  base.Secludes h → ∀ ⦃r : Except HostError α⦄ ⦃h' : Host⦄, x.run h = some (r, h') →
    base.Secludes h' ∧ Clear good r

/-- Nothing is said about what a run gives. -/
def Run.whatever {α : Type} (_ : α) : Prop := True

lemma HostError.not_isRefusal_execution (cause : ExecutionFault) :
    ¬(HostError.execution cause).IsRefusal := by
  rintro ⟨module, fault, ⟨⟩⟩

namespace Run.SecludedAt

variable {α β : Type} {base h h' : Host} {x : Run α} {f : α → Run β} {P : α → Prop} {Q : β → Prop}

lemma of_run {r : Except HostError α} (run : x.run h = some (r, h'))
    (secludes : base.Secludes h → base.Secludes h') (clear : Clear P r) :
    SecludedAt base h x P := by
  intro before r₁ h₁ run₁
  rw [run] at run₁
  cases run₁
  exact ⟨secludes before, clear⟩

lemma pure {a : α} (good : P a) : SecludedAt base h (Pure.pure a) P := of_run rfl id good

lemma throw {e : HostError} (other : ¬e.IsRefusal) : SecludedAt base h (throw e : Run α) P :=
  of_run rfl id other

lemma fault (cause : ExecutionFault) : SecludedAt base h (Run.fault cause : Run α) P :=
  throw (HostError.not_isRefusal_execution cause)

lemma bind (first : SecludedAt base h x P) (second : ∀ a h', P a → SecludedAt base h' (f a) Q) :
    SecludedAt base h (x >>= f) Q := by
  intro before r h₂ run
  rcases outcome : x.run h with _ | ⟨e | a, h₁⟩
  · rw [Run.run_bind, outcome] at run
    cases run
  · rw [Run.run_bind_of_error outcome] at run
    cases run
    exact first before outcome
  · rw [Run.run_bind_of_ok outcome] at run
    obtain ⟨between, good⟩ := first before outcome
    exact second a h₁ good between run

lemma get_bind {f : Host → Run β} (next : SecludedAt base h (f h) Q) :
    SecludedAt base h (get >>= f) Q :=
  fun before _ _ run => next before run

/-- What is known of the host may be used. -/
lemma of_secludes (secluded : base.Secludes h → SecludedAt base h x P) : SecludedAt base h x P :=
  fun before => secluded before before

lemma set_bind {f : PUnit → Run β} (secludes : base.Secludes h → base.Secludes h')
    (next : SecludedAt base h' (f ⟨⟩) Q) : SecludedAt base h (set h' >>= f) Q :=
  fun before _ _ run => next (secludes before) run

/-- A check that code makes before it goes on. -/
lemma check {γ : Type} {p : Prop} [Decidable p] {cause : ExecutionFault} {f : γ → Run α}
    (next : ¬p → SecludedAt base h x P) :
    SecludedAt base h (if p then Run.fault cause >>= f else x) P := by
  split
  · exact of_run rfl id (HostError.not_isRefusal_execution cause)
  next passed => exact next passed

/-! ## Code without recursion -/

lemma instantiate (ty : String) :
    SecludedAt base h (Run.instantiate ty) (Value.Apart base.objects.size) := by
  refine .get_bind ?_
  cases laid : h.types.layout ty with
  | error e =>
    refine .of_run rfl id ?_
    rw [Universe.layout] at laid
    split at laid
    · cases laid
      exact HostError.not_isRefusal_execution _
    · split at laid
      · cases laid
      · cases laid
        exact HostError.not_isRefusal_execution _
  | ok slots =>
    refine .of_secludes fun secludes => .of_run rfl (fun _ => secludes.allocate ?_) secludes.size
    intro s member
    obtain ⟨ty', default⟩ := Host.exists_defaultOf_of_layout laid s member
    rw [default]
    exact Value.apart_defaultOf _ ty'

lemma registerFactory (ty : String) (factory : Factory) :
    SecludedAt base h (Run.registerFactory ty factory) whatever := by
  refine .get_bind ?_
  rw [Registry.addFactory]
  split
  · exact .of_run rfl id (by rintro ⟨module, fault, ⟨⟩⟩)
  · exact .of_run rfl (fun secludes => secludes.of_parts rfl rfl rfl) trivial

lemma registerInjector (ty : String) (injector : Injector) :
    SecludedAt base h (Run.registerInjector ty injector) whatever := by
  refine .get_bind ?_
  rw [Registry.addInjector]
  split
  · exact .of_run rfl id (by rintro ⟨module, fault, ⟨⟩⟩)
  · exact .of_run rfl (fun secludes => secludes.of_parts rfl rfl rfl) trivial

lemma registerWoven (kind : EntryKind) (ty : String) (handle : MethodHandle) :
    SecludedAt base h (Run.registerWoven kind ty handle) whatever := by
  refine .get_bind ?_
  dsimp only
  cases h.types.find? handle.owner with
  | none => exact .fault _
  | some owner =>
  dsimp only
  cases owner.definition.method? handle.method with
  | none => exact .fault _
  | some method =>
  dsimp only
  cases h.types.find? ty with
  | none => exact .fault _
  | some target =>
  refine .check fun _ => .check fun _ => .check fun _ => ?_
  cases kind with
  | factory => exact .registerFactory ty _
  | injector => exact .registerInjector ty _

/-! ### Frames -/

section Frame

variable (f : Engine.Frame) {stack : List Value}

lemma lookup (ty : String) : SecludedAt base h (f.lookup ty) whatever := by
  refine .get_bind ?_
  dsimp only
  cases h.types.find? ty with
  | none => exact .fault _
  | some target => exact .check fun _ => .pure trivial

lemma checkMember (target : LoadedType) (visibility : Visibility) (member : String) :
    SecludedAt base h (f.checkMember target visibility member) whatever := by
  unfold Engine.Frame.checkMember
  split
  · exact .pure trivial
  · exact .fault _

lemma checkField (target : LoadedType) (field : String) :
    SecludedAt base h (f.checkField target field) whatever := by
  unfold Engine.Frame.checkField
  split
  · exact .checkMember f _ _ _
  · exact .fault _

lemma pop {n : ℕ} (apart : Value.AllApart n stack) :
    SecludedAt base h (f.pop stack) fun popped => popped.1.Apart n ∧ Value.AllApart n popped.2 := by
  cases stack with
  | nil => exact .fault _
  | cons value stack => exact .pure (Value.allApart_cons.1 apart)

lemma popObject {n : ℕ} (apart : Value.AllApart n stack) :
    SecludedAt base h (f.popObject stack) fun popped =>
      n ≤ popped.1.index ∧ Value.AllApart n popped.2 := by
  refine .bind (.pop f apart) fun ⟨value, stack⟩ h' popped => ?_
  cases value with
  | object ref => exact .pure popped
  | _ => exact .get_bind (.fault _)

lemma popMany {n : ℕ} (apart : Value.AllApart n stack) (count : ℕ) :
    SecludedAt base h (f.popMany count stack) fun popped =>
      Value.AllApart n popped.1 ∧ Value.AllApart n popped.2 := by
  unfold Engine.Frame.popMany
  split
  · exact .fault _
  · refine .pure ⟨fun v member => apart v ?_, fun v member => apart v (List.mem_of_mem_drop member)⟩
    exact List.mem_of_mem_take (List.mem_reverse.1 member)

/-! ### Instructions that make no calls -/

variable {e : Engine}

lemma loadField (apart : Value.AllApart base.objects.size stack) (owner field : String) :
    SecludedAt base h (e.step f stack (.loadField owner field))
      (Value.AllApart base.objects.size) := by
  refine .bind (.lookup f owner) fun target _ _ => .bind (.checkField f target field) fun _ _ _ =>
    .bind (.popObject f apart) fun popped h' below => .of_secludes fun secludes => .get_bind ?_
  cases found : h'.getDeclared? popped.1 owner field with
  | none => exact .fault _
  | some value =>
    obtain ⟨s, slot, rfl⟩ := Option.map_eq_some_iff.1 found
    have stored := secludes.slots popped.1 below.1 s (List.mem_of_find?_eq_some slot)
    exact .pure (Value.allApart_cons.2 ⟨stored, below.2⟩)

lemma storeField (apart : Value.AllApart base.objects.size stack) (owner field : String) :
    SecludedAt base h (e.step f stack (.storeField owner field))
      (Value.AllApart base.objects.size) := by
  refine .bind (.lookup f owner) fun target _ _ => .bind (.checkField f target field) fun _ _ _ =>
    .bind (.pop f apart) fun top _ popped => .bind (.popObject f popped.2) fun under h' below =>
    .get_bind ?_
  cases stored : h'.setDeclared? under.1 owner field top.1 with
  | none => exact .fault _
  | some h'' =>
    obtain ⟨-, rfl⟩ := Host.setDeclared?_eq_some_iff.1 stored
    exact .set_bind (fun secludes => secludes.putDeclared popped.1 _ _ _) (.pure below.2)

/-- Nothing is resolved, for want of a container. -/
lemma resolve (apart : Value.AllApart base.objects.size stack) (ty : String) :
    SecludedAt base h (e.step f stack (.resolve ty)) (Value.AllApart base.objects.size) := by
  refine .bind (.pop f apart) fun ⟨value, stack⟩ h' popped => ?_
  cases value with
  | container c => exact False.elim popped.1
  | _ => exact .fault _

end Frame

end Run.SecludedAt

/-! ## Code over engines -/

/-- An engine whose calls are secluded if their arguments are apart. -/
def Engine.Secluded (base : Host) (e : Engine) : Prop :=
  ∀ (h : Host) (owner : LoadedType) (method : Method) (args : List Value),
    Value.AllApart base.objects.size args →
      Run.SecludedAt base h (e.call owner method args)
        fun result => Value.AllApart base.objects.size result.toList

namespace Engine.Secluded

open Run (SecludedAt whatever)

variable {base h : Host} {e : Engine} {f : Frame} {stack args : List Value}

section

variable (secluded : e.Secluded base)
include secluded

lemma invokeHandle (handle : MethodHandle) (apart : Value.AllApart base.objects.size args) :
    SecludedAt base h (e.invokeHandle handle args)
      fun result => Value.AllApart base.objects.size result.toList := by
  refine .get_bind ?_
  cases h.types.find? handle.owner with
  | none => exact .fault _
  | some target =>
  dsimp only
  cases target.definition.member? handle.method with
  | none => exact .fault _
  | some callee => exact secluded h target callee args apart

lemma construct (ty : String) (ctor : Uuid) (apart : Value.AllApart base.objects.size args) :
    SecludedAt base h (e.construct ty ctor args) (Value.Apart base.objects.size) := by
  refine .get_bind ?_
  dsimp only
  cases h.types.find? ty with
  | none => exact .fault _
  | some target =>
  refine .check fun _ => ?_
  cases target.definition.constructor? ctor with
  | none => exact .fault _
  | some callee =>
    refine .bind (.instantiate ty) fun object h' made => ?_
    have all : Value.AllApart base.objects.size (object :: args) :=
      Value.allApart_cons.2 ⟨made, apart⟩
    exact .bind (secluded h' target callee _ all) fun _ _ _ => .pure made

/-! ### Bodies -/

lemma step_newObject (apart : Value.AllApart base.objects.size stack) (owner : String)
    (ctor : Uuid) :
    SecludedAt base h (e.step f stack (.newObject owner ctor))
      (Value.AllApart base.objects.size) := by
  refine .bind (.lookup f owner) fun target _ _ => ?_
  cases target.definition.constructor? ctor with
  | none => exact .fault _
  | some callee =>
    exact .bind (.checkMember f target _ _) fun _ _ _ =>
      .bind (.popMany f apart _) fun taken _ popped =>
      .bind (secluded.construct owner ctor popped.1) fun object _ made =>
      .pure (Value.allApart_cons.2 ⟨made, popped.2⟩)

lemma step_call (apart : Value.AllApart base.objects.size stack) (owner : String) (method : Uuid) :
    SecludedAt base h (e.step f stack (.call owner method)) (Value.AllApart base.objects.size) := by
  refine .bind (.lookup f owner) fun target _ _ => ?_
  cases target.definition.member? method with
  | none => exact .fault _
  | some callee =>
    refine .bind (.checkMember f target _ _) fun _ _ _ =>
      .bind (.popMany f apart _) fun taken h' popped =>
      .bind (secluded h' target callee _ popped.1) fun result _ given => .pure ?_
    split
    · refine Value.allApart_cons.2 ⟨?_, popped.2⟩
      cases result with
      | none => trivial
      | some value => exact given value (List.mem_singleton.2 rfl)
    · exact popped.2

lemma step (given : Value.AllApart base.objects.size f.args)
    (apart : Value.AllApart base.objects.size stack) (i : Instr) :
    SecludedAt base h (e.step f stack i) (Value.AllApart base.objects.size) := by
  cases i with
  | loadArg index =>
    dsimp only [Engine.step]
    cases found : f.args[index.toNat]? with
    | none => exact .fault _
    | some value =>
      exact .pure (Value.allApart_cons.2 ⟨given value (List.mem_of_getElem? found), apart⟩)
  | loadConst constant =>
    exact .pure (Value.allApart_cons.2 ⟨Value.apart_ofConstant _ constant, apart⟩)
  | loadField owner field => exact .loadField f apart owner field
  | storeField owner field => exact .storeField f apart owner field
  | newObject owner ctor => exact secluded.step_newObject apart owner ctor
  | call owner method => exact secluded.step_call apart owner method
  | loadMethod owner method =>
    refine .bind (.lookup f owner) fun target _ _ => ?_
    cases target.definition.method? method with
    | none => exact .fault _
    | some callee =>
      exact .check fun _ => .bind (.checkMember f target _ _) fun _ _ _ =>
        .pure (Value.allApart_cons.2 ⟨trivial, apart⟩)
  | resolve ty => exact .resolve f apart ty
  | register kind ty =>
    refine .bind (.pop f apart) fun ⟨value, stack⟩ h' popped => ?_
    cases value with
    | method handle => exact .bind (.registerWoven kind ty handle) fun _ _ _ => .pure popped.2
    | _ => exact .fault _
  | upcast ty =>
    exact .bind (.pop f apart) fun _ _ _ => .get_bind (.check fun _ => .pure apart)
  | print =>
    exact .bind (.pop f apart) fun top _ popped => .get_bind
      (.of_run rfl (fun secludes => secludes.of_parts rfl rfl rfl) popped.2)
  | dup =>
    exact .bind (.pop f apart) fun _ _ popped => .pure (Value.allApart_cons.2 ⟨popped.1, apart⟩)
  | pop => exact .bind (.pop f apart) fun _ _ popped => .pure popped.2
  | ret => exact .pure apart

lemma runBody (given : Value.AllApart base.objects.size f.args)
    (apart : Value.AllApart base.objects.size stack) (body : List Instr) :
    SecludedAt base h (e.runBody f stack body) (Value.AllApart base.objects.size) := by
  induction body generalizing h stack with
  | nil =>
    rw [Engine.runBody]
    exact .pure apart
  | cons i rest ih =>
    by_cases ret : i = .ret
    · subst ret
      rw [Engine.runBody]
      exact .pure apart
    · rw [Engine.runBody] <;> try exact ret
      exact .bind (secluded.step given apart i) fun stack _ apart => ih apart

lemma execute (given : Value.AllApart base.objects.size f.args) :
    SecludedAt base h (e.execute f)
      fun result => Value.AllApart base.objects.size result.toList := by
  refine .bind (secluded.runBody given (Value.allApart_nil _) _) fun stack _ apart => ?_
  dsimp only
  split
  · exact .bind (.pop f apart) fun _ _ popped =>
      .pure (Value.allApart_cons.2 ⟨popped.1, Value.allApart_nil _⟩)
  · exact .pure (Value.allApart_nil _)

/-- The engine of one level more is secluded as well. -/
lemma next : e.next.Secluded base := by
  intro h owner method args apart
  refine .check fun _ => .get_bind (.check fun _ => ?_)
  intro before r h₂ run
  rw [Run.run_between, Option.map_eq_some_iff] at run
  obtain ⟨⟨r, h'⟩, run, same⟩ := run
  cases same
  have entered : base.Secludes { h with callDepth := h.callDepth + 1 } :=
    before.of_parts rfl rfl rfl
  obtain ⟨left, clear⟩ := secluded.execute apart entered run
  exact ⟨left.of_parts rfl rfl rfl, clear⟩

lemma runHooks (hooks : List MethodHandle) : SecludedAt base h (Host.runHooks e hooks) whatever := by
  induction hooks generalizing h with
  | nil => exact .pure trivial
  | cons hook rest ih =>
    exact .bind (secluded.invokeHandle hook (Value.allApart_nil _)) fun _ _ _ => ih

end

lemma ofLevel (base : Host) (n : ℕ) : (Engine.ofLevel n).Secluded base := by
  induction n with
  | zero =>
    intro h owner method args _ _ r h' run
    cases run
  | succ n ih => exact ih.next

end Engine.Secluded

/-- Whatever load hooks do on a host, they leave its containers and bindings as they were, and raise
no error of a refused module. -/
theorem Engine.secluded_of_runHooks {h h' : Host} {hooks : List MethodHandle}
    {r : Except HostError Unit} (run : (Host.runHooks unlimited hooks).run h = some (r, h')) :
    h.Secludes h' ∧ ∀ e, r = .error e → ¬e.IsRefusal := by
  rw [← withEngine_eq _ fun agree => agree.runHooks hooks, run_withEngine] at run
  obtain ⟨secludes, clear⟩ := (Secluded.ofLevel h _).runHooks hooks h.secludes_self run
  refine ⟨secludes, fun e same => ?_⟩
  rw [same] at clear
  exact clear

end Weaver
