import Weaver.Proofs.Engine.Bodies
import Weaver.Proofs.Weave.Registration

/-!
# What synthesized code means

A factory resolves the parameters of a constructor in order and constructs. An injector resolves the
types of fields in order and stores. This file shows that the bodies which a weave emits do exactly
that, one call deeper: the operands lie on the stack in the right order, every access is permitted,
and the check before a factory returns never fails.

Three things live here:

* `Host.assemble` and `Host.fill`, what the code is for;
* the emitted bodies, piece by piece, over any parameters and any fields;
* `codeMeans_of_load`, for every host that has come by a woven module.
-/

namespace Weaver
namespace Host

/-! ## What the code is for -/

/-- Resolves the parameters of a constructor in order, up to the first error, and constructs. -/
def assemble (c : ContainerRef) (ty : String) (ctor : Method) : Run Value := do
  let args ← ctor.params.mapM fun p => resolve c p.ty
  construct ty ctor.id args

/-- Resolves the types of fields in order, up to the first error, and puts each value into the slot
that a type declares for the field. -/
def fill (c : ContainerRef) (ty : String) (ref : ObjectRef) (fields : List Field) : Run Unit :=
  fields.forM fun f => do
    let value ← resolve c f.ty
    modify (·.putDeclared ref ty f.name value)

lemma fill_cons (c : ContainerRef) (ty : String) (ref : ObjectRef) (f : Field)
    (rest : List Field) :
    fill c ty ref (f :: rest) = (do
      let value ← resolve c f.ty
      modify (·.putDeclared ref ty f.name value)
      fill c ty ref rest) := by
  rw [fill, List.forM_eq_forM, List.forM_cons, bind_assoc]
  rfl

/-- Runs a factory from outside of any code. -/
def runFactory (factory : Factory) (c : ContainerRef) : Run Value :=
  withEngine fun e => e.runFactory factory c

/-- Runs an injector from outside of any code. -/
def runInjector (injector : Injector) (instance_ : Value) (c : ContainerRef) : Run Unit :=
  withEngine fun e => e.runInjector injector instance_ c

/-- What a run does one call deeper. -/
def oneDeeper {α : Type} (x : Run α) : Run α :=
  Run.between enterCall leaveCall x

end Host

open Host

namespace Engine

variable {e : Engine} {f : Frame} {h h' : Host} {stack : List Value} {c : ContainerRef}

/-! ## Emitted factories -/

/-- Resolves the parameters of a constructor in order, and constructs, with the operations of an
engine. -/
def assemble (e : Engine) (c : ContainerRef) (ty : String) (ctor : Method) : Run Value := do
  let args ← ctor.params.mapM fun p => e.resolve c p.ty
  e.construct ty ctor.id args

lemma assemble_unlimited (c : ContainerRef) (ty : String) (ctor : Method) :
    Host.assemble c ty ctor = unlimited.assemble c ty ctor := by
  rw [Host.assemble, assemble]
  simp only [construct_unlimited]
  rfl

/-- The parameters are resolved in order, the last one ends on top of the stack. -/
lemma runBody_resolveParams (container : f.args[0]? = some (.container c))
    (params : List Parameter) (rest : List Instr) :
    e.runBody f stack (resolveParams params ++ rest)
      = params.mapM (fun p => e.resolve c p.ty) >>= fun values =>
          e.runBody f (values.reverse ++ stack) rest := by
  induction params generalizing stack with
  | nil => simp [resolveParams]
  | cons p params ih =>
    show e.runBody f stack (.loadArg 0 :: .resolve p.ty :: (resolveParams params ++ rest)) = _
    rw [runBody_cons_of_pure (by simp) (step_loadArg container), runBody_cons (by simp),
      step_resolve, List.mapM_cons]
    simp only [bind_assoc, pure_bind]
    congr 1
    funext value
    rw [ih]
    simp

/-- The end of a factory: the constructor takes its arguments off the stack, and the check of the
result always passes. -/
lemma run_newObject {ty : String} {ctor : Uuid} {target : LoadedType} {callee : Method}
    {values : List Value} (found : h.types.find? ty = some target)
    (near : target.module = f.owner.module)
    (declared : target.definition.constructor? ctor = some callee)
    (accessible : callee.visibility = .everywhere) (count : callee.params.length = values.length) :
    (e.runBody f values.reverse [.newObject ty ctor, .upcast objectType, .ret]).run h
      = (e.construct ty ctor values >>= fun object => pure [object]).run h := by
  have made : (e.step f values.reverse (.newObject ty ctor)).run h
      = (e.construct ty ctor values >>= fun object => pure [object]).run h := by
    rw [step]
    refine (Run.run_bind_of_ok (run_lookup found (.inr near))).trans ?_
    have args : f.popMany callee.params.length values.reverse = pure (values, []) := by
      rw [Frame.popMany, if_neg (by simp [count]), List.take_of_length_le (by simp [count]),
        List.drop_of_length_le (by simp [count]), List.reverse_reverse]
    have usable : f.owner.CanUseMember target callee.visibility := by
      rw [accessible]
      trivial
    simp only [declared, checkMember_eq usable, args, pure_bind]
  rw [runBody_cons (by simp)]
  refine (Run.run_bind_congr (g := pure) made fun stack h' ok => ?_).trans (by rw [bind_pure])
  -- only an object comes out of a construction, so the check before the return passes
  rw [Run.run_bind_eq_ok_iff] at ok
  obtain ⟨object, h'', constructed, ok⟩ := ok
  obtain ⟨-, -, -, -, -, -, -, -, rfl, -⟩ := exists_call_of_construct constructed
  cases ok
  rw [runBody_cons (by simp), step]
  rfl

/-- A factory's body assembles an instance. -/
lemma run_execute_factory (traced : e.Traced) {id : Uuid} {ctor callee : Method}
    {target : LoadedType} {ty : String} (found : h.types.find? ty = some target)
    (declared : target.definition.constructor? ctor.id = some callee)
    (accessible : callee.visibility = .everywhere) (params : callee.params = ctor.params) :
    (e.execute ⟨target, factoryMethod id ty ctor, [.container c]⟩).run h
      = (e.assemble c ty ctor >>= fun value => pure (some value)).run h := by
  have body : (e.runBody ⟨target, factoryMethod id ty ctor, [.container c]⟩ []
      (factoryMethod id ty ctor).body).run h
        = (e.assemble c ty ctor >>= fun value => pure [value]).run h := by
    show (e.runBody _ [] (resolveParams ctor.params ++ _)).run h = _
    rw [runBody_resolveParams rfl, assemble, bind_assoc]
    refine Run.run_bind_congr rfl fun values h' resolved => ?_
    -- the resolutions leave the loaded types as they were
    have history := traced.history (fun e => ctor.params.mapM fun p => e.resolve c p.ty)
      (fun agree => .mapM (fun p h => agree.resolve h c p.ty) ctor.params) resolved
    rw [List.append_nil]
    have found' : h'.types.find? ty = some target := by rw [history.keeps.types, found]
    exact run_newObject found' rfl declared accessible (by rw [params, Run.length_of_mapM resolved])
  rw [execute]
  refine (Run.run_bind_congr body fun _ _ _ => rfl).trans ?_
  rw [bind_assoc]
  exact Run.run_bind_congr rfl fun _ _ _ => rfl

/-- A woven factory assembles an instance, one call deeper. -/
lemma run_wovenFactory {handle : MethodHandle} {ctor callee : Method} {target : LoadedType}
    (room : h.callDepth < maxCallDepth) (found : h.types.find? handle.owner = some target)
    (member : target.definition.member? handle.method
      = some (factoryMethod handle.method handle.owner ctor))
    (declared : target.definition.constructor? ctor.id = some callee)
    (accessible : callee.visibility = .everywhere) (params : callee.params = ctor.params) :
    (Host.runFactory (.woven handle) c).run h
      = (oneDeeper (Host.assemble c handle.owner ctor)).run h := by
  let made := unlimited.assemble c handle.owner ctor
  -- the call bracket is the same on both sides, so the body is what is left
  have execute : (unlimited.execute ⟨target, factoryMethod handle.method handle.owner ctor,
      [.container c]⟩).run h.enterCall = (made >>= fun value => pure (some value)).run h.enterCall :=
    run_execute_factory (h := h.enterCall) traced_unlimited found declared accessible params
  have call : (unlimited.invokeHandle handle [.container c]).run h
      = (oneDeeper made >>= fun value => pure (some value)).run h := by
    rw [run_invokeHandle found member, run_call_unlimited rfl room, Run.run_between, execute,
      oneDeeper, Run.run_bind, Run.run_bind, Run.run_between]
    rcases made.run h.enterCall with _ | ⟨_ | _, _⟩ <;> rfl
  rw [Host.runFactory, withEngine_eq _ fun agree => agree.runFactory _ c, assemble_unlimited]
  refine (Run.run_bind_congr call fun _ _ _ => rfl).trans ?_
  rw [bind_assoc]
  exact (Run.run_bind_congr (g := pure) rfl fun _ _ _ => rfl).trans (by rw [bind_pure])

/-! ## Emitted injectors -/

/-- The end of an assignment: the value and the object are taken off the stack. -/
lemma run_storeField {ty name : String} {target : LoadedType} {field : Field} {ref : ObjectRef}
    {value : Value} (found : h.types.find? ty = some target)
    (near : target.module = f.owner.module)
    (declared : target.definition.field? name = some field)
    (usable : f.owner.CanUseMember target field.visibility)
    (slot : (h.getDeclared? ref ty name).isSome) :
    (e.step f (value :: .object ref :: stack) (.storeField ty name)).run h
      = some (.ok stack, h.putDeclared ref ty name value) := by
  have stored : h.setDeclared? ref ty name value = some (h.putDeclared ref ty name value) :=
    setDeclared?_eq_some_iff.2 ⟨slot, rfl⟩
  rw [step]
  refine (Run.run_bind_of_ok (run_lookup found (.inr near))).trans ?_
  rw [checkField_eq declared usable]
  simp only [Frame.pop, Frame.popObject, pure_bind]
  rw [Run.run_get_bind, stored]
  rfl

/-- The fields are assigned one after the other, and the stack is empty in between. -/
lemma run_assignFields {ty : String} {target : LoadedType} {ref : ObjectRef} {fields : List Field}
    (args : f.args = [.object ref, .container c]) (near : target.module = f.owner.module)
    (found : h.types.find? ty = some target)
    (declared : ∀ field ∈ fields, ∃ declared, target.definition.field? field.name = some declared ∧
      declared.visibility = .everywhere)
    (slots : ∀ field ∈ fields, (h.getDeclared? ref ty field.name).isSome) :
    (unlimited.runBody f [] (fields.flatMap (assignField ty) ++ [.ret])).run h
      = (fill c ty ref fields >>= fun _ => pure []).run h := by
  induction fields generalizing h with
  | nil => simp [fill]
  | cons field rest ih =>
    have body : (field :: rest).flatMap (assignField ty) ++ [.ret]
        = .loadArg 0 :: .loadArg 1 :: .resolve field.ty :: .storeField ty field.name
          :: (rest.flatMap (assignField ty) ++ [.ret]) := rfl
    have object : f.args[(0 : UInt16).toNat]? = some (.object ref) := by rw [args]; rfl
    have container : f.args[(1 : UInt16).toNat]? = some (.container c) := by rw [args]; rfl
    rw [body, runBody_cons_of_pure (by simp) (step_loadArg object),
      runBody_cons_of_pure (by simp) (step_loadArg container), runBody_cons (by simp), step_resolve,
      fill_cons]
    simp only [bind_assoc, pure_bind]
    refine Run.run_bind_congr rfl fun value h' resolved => ?_
    have history := traced_unlimited.history (fun e => e.resolve c field.ty)
      (fun agree => agree.resolve _ c field.ty) resolved
    -- neither the resolution nor the assignment takes a type or a slot away
    have found' : h'.types.find? ty = some target := by rw [history.keeps.types, found]
    have slots' : ∀ g ∈ field :: rest, (h'.getDeclared? ref ty g.name).isSome :=
      fun g hg => history.keeps.slot (slots g hg)
    obtain ⟨member, hmember, accessible⟩ := declared field List.mem_cons_self
    have slot := slots' field List.mem_cons_self
    have stored : Keeps h' (h'.putDeclared ref ty field.name value) :=
      (Change.store (setDeclared?_eq_some_iff.2 ⟨slot, rfl⟩)).keeps
    have usable : f.owner.CanUseMember target member.visibility := by
      rw [accessible]
      trivial
    rw [runBody_cons (by simp)]
    refine (Run.run_bind_of_ok (run_storeField found' near hmember usable slot)).trans ?_
    rw [ih (stored.types ▸ found') (fun g hg => declared g (List.mem_cons_of_mem _ hg))
      fun g hg => stored.slot (slots' g (List.mem_cons_of_mem _ hg))]
    rfl

/-- A woven injector fills an object that has slots for the fields, one call deeper. -/
lemma run_wovenInjector {handle : MethodHandle} {target : LoadedType} {ref : ObjectRef}
    {fields : List Field} (room : h.callDepth < maxCallDepth)
    (found : h.types.find? handle.owner = some target)
    (member : target.definition.member? handle.method
      = some (injectorMethod handle.method handle.owner fields))
    (declared : ∀ field ∈ fields, ∃ declared, target.definition.field? field.name = some declared ∧
      declared.visibility = .everywhere)
    (slots : ∀ field ∈ fields, (h.getDeclared? ref handle.owner field.name).isSome) :
    (Host.runInjector (.woven handle) (.object ref) c).run h
      = (oneDeeper (fill c handle.owner ref fields)).run h := by
  let method := injectorMethod handle.method handle.owner fields
  -- as for factories, the body is what is left inside the call bracket
  have execute : (unlimited.execute ⟨target, method, [.object ref, .container c]⟩).run h.enterCall
      = (fill c handle.owner ref fields >>= fun _ => pure none).run h.enterCall := by
    have body := run_assignFields (f := ⟨target, method, [.object ref, .container c]⟩)
      (h := h.enterCall) rfl rfl found declared slots
    rw [Engine.execute]
    refine (Run.run_bind_congr body fun _ _ _ => rfl).trans ?_
    rw [bind_assoc]
    exact Run.run_bind_congr rfl fun _ _ _ => rfl
  have call : (unlimited.invokeHandle handle [.object ref, .container c]).run h
      = (oneDeeper (fill c handle.owner ref fields) >>= fun _ => pure none).run h := by
    rw [run_invokeHandle found member, run_call_unlimited rfl room, Run.run_between, execute,
      oneDeeper, Run.run_bind, Run.run_bind, Run.run_between]
    rcases (fill c handle.owner ref fields).run h.enterCall with _ | ⟨_ | _, _⟩ <;> rfl
  rw [Host.runInjector, withEngine_eq _ fun agree => agree.runInjector _ _ c]
  refine (Run.run_bind_congr call fun _ _ _ => rfl).trans ?_
  rw [bind_assoc]
  exact (Run.run_bind_congr (g := pure) rfl fun _ _ _ => rfl).trans (by rw [bind_pure])

/-- An assignment that ends well has stored the value on top into the object below it. -/
lemma of_storeField {ty name : String} {stack' : List Value}
    (ok : (e.step f stack (.storeField ty name)).run h = some (.ok stack', h')) :
    ∃ value ref, stack = value :: .object ref :: stack' ∧
      h.setDeclared? ref ty name value = some h' := by
  rw [step, Run.run_bind_eq_ok_iff] at ok
  obtain ⟨target, h₁, lookup, ok⟩ := ok
  obtain ⟨rfl, -, -⟩ := of_lookup lookup
  rw [Run.run_bind_eq_ok_iff] at ok
  obtain ⟨u, h₂, access, ok⟩ := ok
  obtain ⟨rfl, -⟩ := of_checkField access
  rw [Run.run_bind_eq_ok_iff] at ok
  obtain ⟨⟨value, rest⟩, h₃, popped, ok⟩ := ok
  obtain ⟨rfl, rfl⟩ := of_pop popped
  rw [Run.run_bind_eq_ok_iff] at ok
  obtain ⟨⟨ref, rest⟩, h₄, popped, ok⟩ := ok
  obtain ⟨rfl, rfl⟩ := of_popObject popped
  rw [Run.run_get_bind] at ok
  cases stored : h₄.setDeclared? ref ty name value with
  | none =>
    rw [stored] at ok
    cases ok
  | some h₅ =>
    rw [stored] at ok
    cases ok
    exact ⟨value, ref, rfl, stored⟩

/-- The first assignment of an injector's body that ends well. -/
lemma of_assignField {ty : String} {field : Field} {value : Value} {rest : List Instr}
    {stack' : List Value} (args : f.args = [value, .container c])
    (ok : (e.runBody f [] (assignField ty field ++ rest)).run h = some (.ok stack', h')) :
    ∃ ref resolved h₁ h₂, value = .object ref ∧
      (e.resolve c field.ty).run h = some (.ok resolved, h₁) ∧
      h₁.setDeclared? ref ty field.name resolved = some h₂ ∧
      (e.runBody f [] rest).run h₂ = some (.ok stack', h') := by
  have instance_ : f.args[(0 : UInt16).toNat]? = some value := by rw [args]; rfl
  have container : f.args[(1 : UInt16).toNat]? = some (.container c) := by rw [args]; rfl
  -- the instance, the container and the resolved value are pushed, the first and last are stored
  rw [show assignField ty field ++ rest = .loadArg 0 :: .loadArg 1 :: .resolve field.ty
      :: .storeField ty field.name :: rest from rfl,
    runBody_cons_of_pure (by simp) (step_loadArg instance_),
    runBody_cons_of_pure (by simp) (step_loadArg container), runBody_cons (by simp), step_resolve,
    bind_assoc, Run.run_bind_eq_ok_iff] at ok
  obtain ⟨resolved, h₁, resolve, ok⟩ := ok
  rw [pure_bind, runBody_cons (by simp), Run.run_bind_eq_ok_iff] at ok
  obtain ⟨stack₁, h₂, store, ok⟩ := ok
  obtain ⟨_, ref, same, stored⟩ := of_storeField store
  cases same
  exact ⟨ref, resolved, h₁, h₂, rfl, resolve, stored, ok⟩

/-- An injector's body that ends well has filled the fields one after the other. -/
lemma of_assignFields {ty : String} {fields : List Field} {ref : ObjectRef} {stack' : List Value}
    (args : f.args = [.object ref, .container c])
    (ok : (e.runBody f [] (fields.flatMap (assignField ty) ++ [.ret])).run h
      = some (.ok stack', h')) :
    (e.fillFields ty ref c (fields.map fun field => (field.name, field.ty))).run h
      = some (.ok ⟨⟩, h') := by
  induction fields generalizing h with
  | nil =>
    rw [List.flatMap_nil, List.nil_append, runBody_ret] at ok
    cases ok
    rfl
  | cons field rest ih =>
    rw [List.flatMap_cons, List.append_assoc] at ok
    obtain ⟨ref', resolved, h₁, h₂, same, resolve, stored, ok⟩ := of_assignField args ok
    cases same
    rw [List.map_cons, fillFields]
    refine (Run.run_bind_of_ok resolve).trans ?_
    rw [Run.run_get_bind, stored]
    exact ih ok

end Engine

/-! ## Loaded woven modules -/

namespace Module

/-- On a host, every method that a weave has added to the module is registered for its type. -/
structure Registered (m : Module) (ids : WeaveIds) (h : Host) : Prop where
  factory {t : TypeDef} : t ∈ m.types → t.gets .factory = true →
    h.registry.factories.find? t.name = some (.woven ⟨t.name, ids.entry .factory t.name⟩)
  injector {t : TypeDef} : t ∈ m.types → t.gets .injector = true →
    h.registry.injectors.find? t.name = some (.woven ⟨t.name, ids.entry .injector t.name⟩)

/-- On a host, the methods that a weave has added to the module mean what they should. The factory
of a type assembles an instance with the type's first marked constructor, and the injector of a type
fills the marked fields of an object that has slots for them: with the same value or the same error,
and with the same host afterwards. -/
structure CodeMeans (m : Module) (ids : WeaveIds) (h : Host) (c : ContainerRef) : Prop where
  factory {t : TypeDef} {ctor : Method} : t ∈ m.types → t.gets .factory = true →
    t.markedConstructor? = some ctor →
    (Host.runFactory (.woven ⟨t.name, ids.entry .factory t.name⟩) c).run h
      = (oneDeeper (assemble c t.name ctor)).run h
  injector {t : TypeDef} {ref : ObjectRef} : t ∈ m.types → t.gets .injector = true →
    (∀ f ∈ t.markedFields, (h.getDeclared? ref t.name f.name).isSome) →
    (Host.runInjector (.woven ⟨t.name, ids.entry .injector t.name⟩) (.object ref) c).run h
      = (oneDeeper (fill c t.name ref t.markedFields)).run h

section Rewoven

variable {m : Module} {options : WeaveOptions} {ids : WeaveIds} {h₀ h₁ h : Host}
  {report : LoadReport} {t : TypeDef}

/-- A rewoven type is found on every host that has come by the woven module. -/
lemma find?_rewoven (loaded : (load (m.rewoven options ids)).run h₀ = some (.ok report, h₁))
    (reached : Reaches h₁ h) (member : t ∈ m.types) :
    h.types.find? t.name = some
      ⟨m.name, t.rewoven (ids.entry .factory t.name) (ids.entry .injector t.name)⟩ := by
  obtain ⟨hooks, planned, -, history⟩ := exists_hooks_of_load loaded
  have added : t.rewoven (ids.entry .factory t.name) (ids.entry .injector t.name)
      ∈ (m.rewoven options ids).types :=
    List.mem_append_left _ (List.mem_map.2 ⟨t, member, rfl⟩)
  have found := find?_addModule planned added
  rw [TypeDef.rewoven_name] at found
  exact ((Reaches.of_history history).trans reached).find?_types found

/-- A host that has come by the woven module and ran the registrar's hook has all entries. -/
lemma registered_rewoven (loaded : (load (m.rewoven options ids)).run h₀ = some (.ok report, h₁))
    (runs : h₀.config.mode.runs (loadHook options.editorOnly) = true) (reached : Reaches h₁ h) :
    m.Registered ids h := by
  obtain ⟨-, -, -, -, -, factories, injectors⟩ := exists_bake_of_load loaded runs
  have entry {kind : EntryKind} {t : TypeDef} (member : t ∈ m.types) (gets : t.gets kind = true) :
      (⟨t.name, ids.entry kind t.name⟩ : Synthesized) ∈ ids.entries m kind :=
    List.mem_map.2 ⟨t.name, WeaveIds.name_mem_targetNames member gets, rfl⟩
  exact ⟨fun member gets => reached.find?_factories (factories _ (entry member gets)),
    fun member gets => reached.find?_injectors (injectors _ (entry member gets))⟩

/-- What the code means only depends on the identifiers being fresh, on finding the rewoven types and
on room for one call. -/
lemma codeMeans_of_found {supply : IdSupply} (names : m.Unambiguous) (fresh : supply.FreshFor m)
    (drawn : ids.inOrder m = supply.next m.idsNeeded)
    (found : ∀ t ∈ m.types, h.types.find? t.name = some
      ⟨m.name, t.rewoven (ids.entry .factory t.name) (ids.entry .injector t.name)⟩)
    (room : h.callDepth < maxCallDepth) (c : ContainerRef) : m.CodeMeans ids h c where
  factory {t ctor} member gets marked := by
    have unused := WeaveIds.entry_not_mem_ids fresh drawn member gets
    have declared := TypeDef.constructor?_rewoven_of_marked (ids.entry .factory t.name)
      (ids.entry .injector t.name) (names.constructors t member) gets marked
    exact Engine.run_wovenFactory room (found t member)
      (TypeDef.member?_rewoven_factory _ _ gets marked unused) declared rfl rfl
  injector {t ref} member gets slots := by
    have unused := WeaveIds.entry_not_mem_ids fresh drawn member gets
    have apart := fun factory => WeaveIds.factory_ne_injector fresh drawn member factory gets
    refine Engine.run_wovenInjector room (found t member)
      (TypeDef.member?_rewoven_injector _ _ gets unused apart) (fun f marked => ?_) slots
    exact ⟨_, TypeDef.field?_rewoven_of_marked _ _ (names.fields t member) gets marked, rfl⟩

/-- Synthesized code means what it should once the woven module is loaded. -/
lemma codeMeans_rewoven {supply : IdSupply} (names : m.Unambiguous) (fresh : supply.FreshFor m)
    (drawn : ids.inOrder m = supply.next m.idsNeeded)
    (loaded : (load (m.rewoven options ids)).run h₀ = some (.ok report, h₁))
    (reached : Reaches h₁ h) (room : h.callDepth < maxCallDepth) (c : ContainerRef) :
    m.CodeMeans ids h c :=
  codeMeans_of_found names fresh drawn (fun _ => find?_rewoven loaded reached) room c

end Rewoven

end Module

/-- Synthesized code means what it should, on every host that has come by a woven module, in every
state in which one more call may be made, and in every container. If the host ran the registrar's
hook, this code is what is registered. -/
theorem codeMeans_of_load {m m' : Module} {options : WeaveOptions} {supply supply' : IdSupply}
    {report : WeaveReport} {h₀ h₁ h : Host} {loadReport : LoadReport} (names : m.Unambiguous)
    (fresh : supply.FreshFor m)
    (woven : m.weave options supply = .ok (.woven report, m', supply'))
    (loaded : (load m').run h₀ = some (.ok loadReport, h₁)) (reached : Reaches h₁ h)
    (room : h.callDepth < maxCallDepth) :
    ∃ ids : WeaveIds, ids.inOrder m = supply.next m.idsNeeded ∧
      (h₀.config.mode.runs (loadHook options.editorOnly) = true → m.Registered ids h) ∧
      ∀ c, m.CodeMeans ids h c := by
  obtain ⟨ids, drawn⟩ := exists_weaveIds names.types supply
  obtain ⟨rfl, -, -⟩ := eq_rewoven_of_weave names drawn woven
  exact ⟨ids, drawn, fun runs => Module.registered_rewoven loaded runs reached,
    Module.codeMeans_rewoven names fresh drawn loaded reached room⟩

/-! ### An example -/

lemma lamp_fresh : lampIds.FreshFor lamp :=
  ⟨by decide, by decide⟩

/-- The example module after its weave. -/
def wovenLamp : Module :=
  match lamp.weave {} lampIds with
  | .ok (_, m, _) => m
  | .error _ => lamp

lemma exists_weave_lamp :
    ∃ report supply', lamp.weave {} lampIds = .ok (.woven report, wovenLamp, supply') :=
  ⟨_, _, rfl⟩

/-- A player loads it, and no call is active afterwards. -/
lemma exists_load_wovenLamp :
    ∃ report h, (load wovenLamp).run (Host.new {}) = some (.ok report, h) ∧ h.callDepth = 0 :=
  ⟨_, _, rfl, rfl⟩

theorem wovenLamp_codeMeans :
    lamp.Unambiguous ∧ lampIds.FreshFor lamp ∧ ∃ report supply' loadReport h₁,
      lamp.weave {} lampIds = .ok (.woven report, wovenLamp, supply') ∧
      (load wovenLamp).run (Host.new {}) = some (.ok loadReport, h₁) ∧
      Reaches h₁ h₁.addContainer.2 ∧ h₁.addContainer.2.callDepth < maxCallDepth ∧
      ∃ ids : WeaveIds, ids.inOrder lamp = lampIds.next lamp.idsNeeded ∧
        (HostMode.player.runs (loadHook false) = true →
          lamp.Registered ids h₁.addContainer.2) ∧
        ∀ c, lamp.CodeMeans ids h₁.addContainer.2 c := by
  obtain ⟨report, supply', woven⟩ := exists_weave_lamp
  obtain ⟨loadReport, h₁, loaded, depth⟩ := exists_load_wovenLamp
  have reached : Reaches h₁ h₁.addContainer.2 := .step .addContainer
  have room : h₁.addContainer.2.callDepth < maxCallDepth := by
    show h₁.callDepth < maxCallDepth
    rw [depth]
    decide
  exact ⟨lamp_unambiguous, lamp_fresh, report, supply', loadReport, h₁, woven, loaded, reached, room,
    codeMeans_of_load lamp_unambiguous lamp_fresh woven loaded reached room⟩

end Weaver
