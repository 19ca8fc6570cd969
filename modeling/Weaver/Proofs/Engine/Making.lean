import Weaver.Proofs.Engine.Careful
import Weaver.Proofs.Engine.Unwinding
import Weaver.Proofs.Host.Evolution

/-!
# Factories that make objects

A synthesized factory resolves what its constructor needs and then makes an object, and so does a
factory by introspection. Whatever is resolved on the way and whatever the constructor does, the
object that comes out has not been there before.

Three things live here:

* `Value.MadeBetween`, for the objects that are made on the way from one host to another;
* `Engine.madeBetween_of_execute`, for methods that a weave has added;
* `Host.OnlySynthesized` and `Engine.madeBetween_of_runFactory`, for hosts on which nothing but such
  methods is registered.
-/

namespace Weaver

open Host

/-- The value is an object that the second host has and the first one had not. -/
def Value.MadeBetween (h h' : Host) (value : Value) : Prop :=
  ∃ ref, value = .object ref ∧ h.objects.size ≤ ref.index ∧ ref.index < h'.objects.size

/-- An object that is made in the course of a history is made between its ends. -/
lemma Value.MadeBetween.history {h h₁ h₂ h' : Host} {value : Value}
    (made : value.MadeBetween h₁ h₂) (before : History h h₁) (after : History h₂ h') :
    value.MadeBetween h h' := by
  obtain ⟨ref, rfl, new, there⟩ := made
  exact ⟨ref, rfl, before.keeps.objects.trans new, there.trans_le after.keeps.objects⟩

namespace Engine

open Value

variable {f : Frame} {h h' : Host} {c : ContainerRef} {ty : String} {stack stack' : List Value}
  {value : Value}

/-! ## Constructions -/

lemma madeBetween_of_instantiate (ok : (Run.instantiate ty).run h = some (.ok value, h')) :
    value.MadeBetween h h' := by
  rw [Run.instantiate, Run.run_get_bind, Run.run_bind_eq_ok_iff] at ok
  obtain ⟨slots, h₁, layout, ok⟩ := ok
  have same : h₁ = h := by
    cases laid : h.types.layout ty with
    | error e =>
      rw [laid] at layout
      cases layout
    | ok slots =>
      rw [laid] at layout
      cases layout
      rfl
  subst same
  cases ok
  exact ⟨_, rfl, Nat.le_refl _, by simp⟩

/-- A construction makes an object before it calls the constructor. -/
lemma madeBetween_of_construct {ctor : Uuid} {args : List Value}
    (ok : (unlimited.construct ty ctor args).run h = some (.ok value, h')) :
    value.MadeBetween h h' := by
  obtain ⟨target, callee, slots, result, -, -, -, -, rfl, called⟩ := exists_call_of_construct ok
  have after := obeys_history.call _ _ _ _ called
  refine ⟨_, rfl, Nat.le_refl _, Nat.lt_of_lt_of_le ?_ after.keeps.objects⟩
  simp [Host.allocate]

/-! ## Synthesized factories -/

/-- An instruction that makes an object and ends well has constructed it. -/
lemma of_newObject {e : Engine} {owner : String} {ctor : Uuid}
    (ok : (e.step f stack (.newObject owner ctor)).run h = some (.ok stack', h')) :
    ∃ args object below, stack' = object :: below ∧
      (e.construct owner ctor args).run h = some (.ok object, h') := by
  rw [step, Run.run_bind_eq_ok_iff] at ok
  obtain ⟨target, h₁, lookup, ok⟩ := ok
  obtain ⟨rfl, -, -⟩ := of_lookup lookup
  cases declared : target.definition.constructor? ctor with
  | none =>
    rw [declared] at ok
    cases ok
  | some callee =>
    simp only [declared] at ok
    rw [Run.run_bind_eq_ok_iff] at ok
    obtain ⟨u, h₂, access, ok⟩ := ok
    obtain ⟨rfl, -⟩ := of_checkMember access
    rw [Run.run_bind_eq_ok_iff] at ok
    obtain ⟨⟨args, below⟩, h₃, popped, ok⟩ := ok
    have same : h₃ = h₂ := by
      rw [Frame.popMany] at popped
      split at popped
      · cases popped
      · cases popped
        rfl
    subst same
    rw [Run.run_bind_eq_ok_iff] at ok
    obtain ⟨object, h₄, constructed, ok⟩ := ok
    cases ok
    exact ⟨args, object, below, rfl, constructed⟩

/-- A check of the top of the stack leaves everything as it is. -/
lemma of_upcast {e : Engine}
    (ok : (e.step f stack (.upcast ty)).run h = some (.ok stack', h')) :
    h' = h ∧ stack' = stack := by
  rw [step, Run.run_bind_eq_ok_iff] at ok
  obtain ⟨popped, h₁, pop, ok⟩ := ok
  obtain ⟨rfl, -⟩ := of_pop pop
  rw [Run.run_get_bind] at ok
  split at ok
  · cases ok
  · cases ok
    exact ⟨rfl, rfl⟩

/-- A factory's body leaves an object on the stack that it has made. -/
lemma madeBetween_of_runBody {params : List Parameter} {ctor : Uuid}
    (ok : (unlimited.runBody f stack
      (resolveParams params ++ [.newObject ty ctor, .upcast objectType, .ret])).run h
        = some (.ok stack', h')) :
    ∃ object below, stack' = object :: below ∧ object.MadeBetween h h' := by
  induction params generalizing h stack with
  | nil =>
    change (unlimited.runBody f stack [.newObject ty ctor, .upcast objectType, .ret]).run h
      = some (.ok stack', h') at ok
    rw [runBody_cons (by simp), Run.run_bind_eq_ok_iff] at ok
    obtain ⟨stack₁, h₁, made, ok⟩ := ok
    obtain ⟨args, object, below, rfl, constructed⟩ := of_newObject made
    rw [runBody_cons (by simp), Run.run_bind_eq_ok_iff] at ok
    obtain ⟨stack₂, h₂, checked, ok⟩ := ok
    obtain ⟨rfl, rfl⟩ := of_upcast checked
    rw [runBody_ret] at ok
    cases ok
    exact ⟨object, below, rfl, madeBetween_of_construct constructed⟩
  | cons p rest ih =>
    -- what is resolved first is a history that leads up to the rest of the body
    change (unlimited.runBody f stack (.loadArg 0 :: .resolve p.ty ::
      (resolveParams rest ++ [.newObject ty ctor, .upcast objectType, .ret]))).run h
        = some (.ok stack', h') at ok
    rw [runBody_cons (by simp), Run.run_bind_eq_ok_iff] at ok
    obtain ⟨stack₁, h₁, loaded, ok⟩ := ok
    obtain ⟨rfl, -⟩ := of_loadArg loaded
    rw [runBody_cons (by simp), Run.run_bind_eq_ok_iff] at ok
    obtain ⟨stack₂, h₂, resolved, ok⟩ := ok
    obtain ⟨c, value, below, -, -, resolved⟩ := of_resolve resolved
    obtain ⟨object, below, same, made⟩ := ih ok
    exact ⟨object, below, same, made.history (obeys_history.resolve _ _ _ resolved) (.refl _)⟩

/-- A synthesized factory gives an object that it has made. -/
lemma madeBetween_of_execute {owner : LoadedType} {id : Uuid} {ctor : Method} {args : List Value}
    {result : Option Value}
    (ok : (unlimited.execute ⟨owner, factoryMethod id ty ctor, args⟩).run h
      = some (.ok result, h')) : ∃ object, result = some object ∧ object.MadeBetween h h' := by
  rw [execute, Run.run_bind_eq_ok_iff] at ok
  obtain ⟨stack, h₁, body, ok⟩ := ok
  obtain ⟨object, below, rfl, made⟩ := madeBetween_of_runBody body
  cases ok
  exact ⟨object, rfl, made⟩

/-- A method that a weave has added to its type gives an object that it has made, if it is called as
factories are. -/
lemma madeBetween_of_invokeHandle {handle : MethodHandle} {target : LoadedType} {x : Method}
    {result : Option Value} (found : h.types.find? handle.owner = some target)
    (member : target.definition.member? handle.method = some x)
    (added : x.AddedTo target.definition)
    (ok : (unlimited.invokeHandle handle [.container c]).run h = some (.ok result, h')) :
    ∃ object, result = some object ∧ object.MadeBetween h h' := by
  rw [run_invokeHandle found member, ← next_unlimited] at ok
  obtain ⟨arity, -, h₁, executed, rfl⟩ := exists_execute_of_call ok
  cases synthesizes_of_addedTo added with
  | factory id declared =>
    obtain ⟨object, rfl, made⟩ := madeBetween_of_execute executed
    exact ⟨object, rfl, made⟩
  | injector id declared =>
    -- an injector takes two arguments
    cases arity

end Engine

/-! ## Registered factories -/

/-- The factory is a method that some weave has added to its type. -/
def Host.IsSynthesized (h : Host) (factory : Factory) : Prop :=
  ∃ handle target x, factory = .woven handle ∧ h.types.find? handle.owner = some target ∧
    target.definition.member? handle.method = some x ∧ x.AddedTo target.definition

/-- Every registered factory is such a method. -/
def Host.OnlySynthesized (h : Host) : Prop :=
  ∀ ty factory, h.registry.factories.find? ty = some factory → h.IsSynthesized factory

namespace Engine

open Run

variable {h h' : Host} {c : ContainerRef} {ty : String} {factory : Factory} {value : Value}

/-- The factory of a type is registered, or the loaded types supply it. -/
lemma registered_or_introspected_of_factoryOf (fit : h.CachesFit)
    (fallback : h.registry.fallback = none ∨ h.registry.fallback = some .introspection)
    (ok : (Run.factoryOf ty).run h = some (.ok factory, h')) :
    h.registry.factories.find? ty = some factory ∨ factory = .introspected ty := by
  have supplied {ty' : String} (used : h.registry.fallback = some .introspection)
      (supplied : h.suppliedFactory? ty' = some factory) : factory = .introspected ty' := by
    rw [suppliedFactory?, used] at supplied
    simp only [introspectedFactory?] at supplied
    split at supplied
    · split at supplied
      · cases supplied
      · exact (Option.some.inj supplied).symm
    · cases supplied
  rw [Run.factoryOf, run_get_bind] at ok
  dsimp only at ok
  cases registered : h.registry.factories.find? ty with
  | some own =>
    rw [registered] at ok
    cases ok
    exact .inl rfl
  | none =>
    right
    rcases fallback with none | used
    · rw [registered, none] at ok
      cases ok
    · simp only [registered, used] at ok
      cases cached : h.registry.cachedFactories.find? ty with
      | some own =>
        rw [cached] at ok
        cases ok
        obtain ⟨entry, first, rfl⟩ := Option.map_eq_some_iff.1 cached
        have key : entry.1 = ty := by simpa using List.find?_some first
        rw [← key]
        exact supplied used (fit.factories entry (List.mem_of_find?_eq_some first))
      | none =>
        simp only [cached] at ok
        rw [fallbackFactory?, bind_assoc, run_get_bind, run_pure_bind] at ok
        cases introspected : introspectedFactory? h ty with
        | none =>
          rw [introspected] at ok
          cases ok
        | some own =>
          rw [introspected] at ok
          cases ok
          exact supplied used (by rw [suppliedFactory?, used, introspected])

lemma madeBetween_of_constructFirst {ctors : List Method}
    (ok : (unlimited.constructFirst ty c ctors).run h = some (.ok value, h')) :
    value.MadeBetween h h' := by
  induction ctors generalizing h with
  | nil => cases ok
  | cons ctor rest ih =>
    rw [constructFirst, run_bind_eq_ok_iff] at ok
    obtain ⟨args, h₁, probed, ok⟩ := ok
    have before := obeys_history.probe discipline_history.toRule c ctor.params probed
    cases args with
    | none => exact (ih ok).history before (.refl _)
    | some args => exact (madeBetween_of_construct ok).history before (.refl _)

/-- A factory of one of the two kinds gives an object that it has made. -/
lemma madeBetween_of_runFactory (either : h.IsSynthesized factory ∨ factory = .introspected ty)
    (ok : (unlimited.runFactory factory c).run h = some (.ok value, h')) :
    value.MadeBetween h h' := by
  rcases either with ⟨handle, target, x, rfl, found, member, added⟩ | rfl
  · rw [runFactory, run_bind_eq_ok_iff] at ok
    obtain ⟨result, h₁, invoked, ok⟩ := ok
    obtain ⟨object, rfl, made⟩ := madeBetween_of_invokeHandle found member added invoked
    cases ok
    exact made
  · rw [runFactory, run_get_bind] at ok
    cases loaded : h.typeDef? ty with
    | none =>
      rw [loaded] at ok
      cases ok
    | some t =>
      simp only [loaded] at ok
      split at ok
      · exact madeBetween_of_instantiate ok
      · exact madeBetween_of_constructFirst ok

end Engine

end Weaver
