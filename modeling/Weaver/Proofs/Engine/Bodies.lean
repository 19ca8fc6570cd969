import Weaver.Proofs.Engine.Levels

/-!
# Bodies instruction by instruction

A body runs its first instruction and then the rest, a method takes its result off the stack that its
body leaves, and a call of a member runs the member one call deeper. These lemmas take a run apart in
this way, and tell what the single instructions of emitted code do.
-/

namespace Weaver

/-- Whether the methods of a type may use another type. -/
def LoadedType.CanUse (user target : LoadedType) : Prop :=
  target.definition.visibility = .everywhere ∨ target.module = user.module

/-- Whether the methods of a type may use a member of another type. -/
def LoadedType.CanUseMember (user target : LoadedType) : Visibility → Prop
  | .everywhere => True
  | .ownModule => target.module = user.module
  | .ownType => target.definition.name = user.definition.name

namespace Engine

open Host

variable {e : Engine} {f : Frame} {h h' : Host} {stack : List Value}

/-! ## Bodies -/

@[simp] lemma runBody_nil : e.runBody f stack [] = pure stack := by
  rw [runBody]

@[simp] lemma runBody_ret (rest : List Instr) : e.runBody f stack (.ret :: rest) = pure stack := by
  rw [runBody]

lemma runBody_cons {i : Instr} (more : i ≠ .ret) (rest : List Instr) :
    e.runBody f stack (i :: rest) = e.step f stack i >>= fun stack => e.runBody f stack rest := by
  rw [runBody]
  exact more

/-- An instruction that only works on the stack. -/
lemma runBody_cons_of_pure {i : Instr} {stack' : List Value} (more : i ≠ .ret)
    (step : e.step f stack i = pure stack') (rest : List Instr) :
    e.runBody f stack (i :: rest) = e.runBody f stack' rest := by
  rw [runBody_cons more, step, pure_bind]

lemma step_loadArg {index : UInt16} {value : Value} (arg : f.args[index.toNat]? = some value) :
    e.step f stack (.loadArg index) = pure (value :: stack) := by
  simp only [step, arg]

lemma step_resolve (c : ContainerRef) (ty : String) :
    e.step f (.container c :: stack) (.resolve ty)
      = e.resolve c ty >>= fun value => pure (value :: stack) := by
  simp only [step, Frame.pop, pure_bind]

/-! ## Access to types and members -/

lemma mayUse_iff {target : LoadedType} {v : Visibility} :
    f.mayUse target v = true ↔ f.owner.CanUseMember target v := by
  cases v <;> simp [Frame.mayUse, LoadedType.CanUseMember]

lemma run_lookup {ty : String} {target : LoadedType} (found : h.types.find? ty = some target)
    (usable : f.owner.CanUse target) : (f.lookup ty).run h = some (.ok target, h) := by
  rw [Frame.lookup, Run.run_get_bind, found]
  dsimp only
  rw [if_neg]
  · rfl
  · rintro ⟨hidden, foreign⟩
    exact usable.elim hidden foreign

lemma checkMember_eq {target : LoadedType} {v : Visibility}
    (usable : f.owner.CanUseMember target v) (member : String) :
    f.checkMember target v member = pure () := by
  rw [Frame.checkMember]
  exact if_pos (mayUse_iff.2 usable)

lemma checkField_eq {target : LoadedType} {name : String} {field : Field}
    (found : target.definition.field? name = some field)
    (usable : f.owner.CanUseMember target field.visibility) :
    f.checkField target name = pure () := by
  rw [Frame.checkField, found]
  exact checkMember_eq usable name

/-- A type that was found is loaded, and the running method may use it. -/
lemma of_lookup {ty : String} {target : LoadedType}
    (ok : (f.lookup ty).run h = some (.ok target, h')) :
    h' = h ∧ h.types.find? ty = some target ∧ f.owner.CanUse target := by
  rw [Frame.lookup, Run.run_get_bind] at ok
  cases found : h.types.find? ty with
  | none =>
    rw [found] at ok
    cases ok
  | some t =>
    simp only [found] at ok
    split at ok
    · cases ok
    next usable =>
      cases ok
      refine ⟨rfl, rfl, ?_⟩
      by_contra none
      rw [LoadedType.CanUse, not_or] at none
      exact usable none

lemma of_checkMember {target : LoadedType} {visibility : Visibility} {member : String} {u : Unit}
    (ok : (f.checkMember target visibility member).run h = some (.ok u, h')) :
    h' = h ∧ f.owner.CanUseMember target visibility := by
  unfold Frame.checkMember at ok
  split at ok
  next usable =>
    cases ok
    exact ⟨rfl, mayUse_iff.1 usable⟩
  · cases ok

lemma of_checkField {target : LoadedType} {name : String} {u : Unit}
    (ok : (f.checkField target name).run h = some (.ok u, h')) :
    h' = h ∧ ∃ field, target.definition.field? name = some field ∧
      f.owner.CanUseMember target field.visibility := by
  unfold Frame.checkField at ok
  split at ok
  next field found =>
    obtain ⟨same, usable⟩ := of_checkMember ok
    exact ⟨same, field, found, usable⟩
  · cases ok

lemma of_pop {popped : Value × List Value} (ok : (f.pop stack).run h = some (.ok popped, h')) :
    h' = h ∧ stack = popped.1 :: popped.2 := by
  cases stack with
  | nil => cases ok
  | cons value rest =>
    cases ok
    exact ⟨rfl, rfl⟩

lemma of_popObject {popped : ObjectRef × List Value}
    (ok : (f.popObject stack).run h = some (.ok popped, h')) :
    h' = h ∧ stack = .object popped.1 :: popped.2 := by
  rw [Frame.popObject, Run.run_bind_eq_ok_iff] at ok
  obtain ⟨⟨value, rest⟩, h₁, pop, ok⟩ := ok
  obtain ⟨rfl, rfl⟩ := of_pop pop
  cases value with
  | object ref =>
    cases ok
    exact ⟨rfl, rfl⟩
  | _ => cases ok

/-! ## Results -/

/-- The result that a method's body leaves on the stack, if it leaves one where the method has to have
one. -/
def resultOf (m : Method) (stack : List Value) : Option (Option Value) :=
  if m.returnType.isSome then stack.head?.map some else some none

/-- A method ends well if its body does and leaves a result where there has to be one. -/
lemma run_execute_eq_ok_iff {result : Option Value} :
    (e.execute f).run h = some (.ok result, h') ↔ ∃ stack,
      (e.runBody f [] f.method.body).run h = some (.ok stack, h') ∧
      resultOf f.method stack = some result := by
  rw [execute, Run.run_bind_eq_ok_iff]
  unfold resultOf
  by_cases returns : f.method.returnType.isSome
  · simp only [returns, if_true]
    constructor
    · rintro ⟨stack, h₁, body, ok⟩
      rw [Run.run_bind_eq_ok_iff] at ok
      obtain ⟨popped, h₂, pop, ok⟩ := ok
      obtain ⟨rfl, rfl⟩ := of_pop pop
      cases ok
      exact ⟨_, body, rfl⟩
    · rintro ⟨stack, body, left⟩
      obtain ⟨value, top, rfl⟩ := Option.map_eq_some_iff.1 left
      obtain ⟨rest, rfl⟩ := List.head?_eq_some_iff.1 top
      exact ⟨_, h', body, rfl⟩
  · simp only [returns]
    constructor
    · rintro ⟨stack, h₁, body, ok⟩
      cases ok
      exact ⟨stack, body, rfl⟩
    · rintro ⟨stack, body, none⟩
      cases none
      exact ⟨stack, h', body, rfl⟩

/-! ## Calls -/

/-- A call that nothing stands in the way of runs the member one call deeper. -/
lemma run_callNext {owner : LoadedType} {method : Method} {args : List Value}
    (arity : args.length = method.arity) (room : h.callDepth < maxCallDepth) :
    (e.callNext owner method args).run h
      = (Run.between enterCall leaveCall (e.execute ⟨owner, method, args⟩)).run h := by
  rw [callNext, if_neg (not_not_intro arity), Run.run_get_bind, if_neg (Nat.not_le_of_lt room)]
  rfl

/-- A call that ends well met nothing that stands in its way. -/
lemma exists_execute_of_call {owner : LoadedType} {method : Method} {args : List Value}
    {result : Option Value} (ok : (e.next.call owner method args).run h = some (.ok result, h')) :
    args.length = method.arity ∧ h.callDepth < maxCallDepth ∧ ∃ h'',
      (e.execute ⟨owner, method, args⟩).run h.enterCall = some (.ok result, h'') ∧
      h' = h''.leaveCall := by
  change (e.callNext owner method args).run h = _ at ok
  by_cases arity : args.length = method.arity
  · by_cases room : h.callDepth < maxCallDepth
    · rw [run_callNext arity room, Run.run_between, Option.map_eq_some_iff] at ok
      obtain ⟨⟨r, h''⟩, run, ok⟩ := ok
      cases ok
      exact ⟨arity, room, h'', run, rfl⟩
    · rw [callNext, if_neg (not_not_intro arity), Run.run_get_bind,
        if_pos (Nat.le_of_not_lt room)] at ok
      cases ok
  · rw [callNext, if_pos arity] at ok
    cases ok

lemma run_call_unlimited {owner : LoadedType} {method : Method} {args : List Value}
    (arity : args.length = method.arity) (room : h.callDepth < maxCallDepth) :
    (unlimited.call owner method args).run h
      = (Run.between enterCall leaveCall (unlimited.execute ⟨owner, method, args⟩)).run h := by
  rw [← next_unlimited]
  exact (run_callNext arity room).trans (by rw [next_unlimited])

/-- A call through a handle runs the member that the handle refers to. -/
lemma run_invokeHandle {handle : MethodHandle} {args : List Value} {owner : LoadedType}
    {method : Method} (found : h.types.find? handle.owner = some owner)
    (member : owner.definition.member? handle.method = some method) :
    (e.invokeHandle handle args).run h = (e.call owner method args).run h := by
  rw [invokeHandle, Run.run_get_bind, found]
  dsimp only
  rw [member]

/-! ## Constructions -/

/-- A construction that nothing stands in the way of allocates the object and calls the
constructor. -/
lemma run_construct {ty : String} {ctor : Uuid} {args : List Value} {target : LoadedType}
    {callee : Method} {slots : List Slot} (found : h.types.find? ty = some target)
    (concrete : (target.definition.isAbstract || target.definition.isInterface) = false)
    (declared : target.definition.constructor? ctor = some callee)
    (layout : h.types.layout ty = .ok slots) :
    (e.construct ty ctor args).run h
      = (e.call target callee (.object ⟨h.objects.size⟩ :: args) >>= fun _ =>
          pure (.object ⟨h.objects.size⟩)).run (h.allocate { ty, slots }).2 := by
  have made : (Run.instantiate ty).run h
      = some (.ok (.object ⟨h.objects.size⟩), (h.allocate { ty, slots }).2) := by
    rw [Run.instantiate, Run.run_get_bind, layout]
    rfl
  rw [construct, Run.run_get_bind, found]
  simp only [concrete, declared]
  exact Run.run_bind_of_ok made

/-- A construction that ends well met nothing that stands in its way. -/
lemma exists_call_of_construct {ty : String} {ctor : Uuid} {args : List Value} {value : Value}
    (ok : (e.construct ty ctor args).run h = some (.ok value, h')) :
    ∃ target callee slots result, h.types.find? ty = some target ∧
      (target.definition.isAbstract || target.definition.isInterface) = false ∧
      target.definition.constructor? ctor = some callee ∧ h.types.layout ty = .ok slots ∧
      value = .object ⟨h.objects.size⟩ ∧
      (e.call target callee (value :: args)).run (h.allocate { ty, slots }).2
        = some (.ok result, h') := by
  -- the run is taken apart only as far as its checks, the rest is `run_construct`
  have whole := ok
  rw [construct, Run.run_get_bind] at ok
  cases found : h.types.find? ty with
  | none => simp [found] at ok
  | some target =>
  rw [found] at ok
  cases concrete : target.definition.isAbstract || target.definition.isInterface with
  | true => simp [concrete] at ok
  | false =>
  cases declared : target.definition.constructor? ctor with
  | none => simp [concrete, declared] at ok
  | some callee =>
  cases layout : h.types.layout ty with
  | error cause =>
    have failed : (Run.instantiate ty).run h = some (.error cause, h) := by
      rw [Run.instantiate, Run.run_get_bind, layout]
      rfl
    simp only [concrete, declared, Bool.false_eq_true, if_false] at ok
    rw [Run.run_bind_of_error failed] at ok
    cases ok
  | ok slots =>
  rw [run_construct found concrete declared layout, Run.run_bind_eq_ok_iff] at whole
  obtain ⟨result, h₂, call, rest⟩ := whole
  cases rest
  exact ⟨target, callee, slots, result, rfl, concrete, declared, rfl, rfl, call⟩

end Engine
end Weaver
