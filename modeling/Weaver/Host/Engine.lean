import Weaver.Host.Run
import Weaver.Host.Text

/-!
# The engine

Running code calls methods and resolves types, and both run more code: a resolution runs factories
and injectors, a factory calls a method, a method resolves. Every such recursion goes through one of
two operations, the call and the resolution, each of which is guarded by a counter with a limit.

An engine is a pair of these operations. Everything else is defined over an engine, in particular
the operations of an engine of one level more. The engine of level zero can do nothing.
-/

namespace Weaver

/-- The two operations that running code recurses through. -/
structure Engine where
  /-- Calls a member of a loaded type. -/
  call : LoadedType → Method → List Value → Run (Option Value)
  /-- Resolves a type from a container. -/
  resolve : ContainerRef → String → Run Value

namespace Engine

variable (e : Engine)

/-! ## Calls by name and identifier -/

/-- Calls the first method of a name. No access check applies. -/
def invoke (owner method : String) (args : List Value) : Run (Option Value) := do
  let some target := (← get).types.find? owner | Run.fault (.unknownType owner)
  let some callee := target.definition.methodNamed? method
    | Run.fault (.noMethodNamed owner method)
  e.call target callee args

/-- Calls the member that a handle refers to. No access check applies. -/
def invokeHandle (handle : MethodHandle) (args : List Value) : Run (Option Value) := do
  let some target := (← get).types.find? handle.owner | Run.fault (.unknownType handle.owner)
  let some callee := target.definition.member? handle.method
    | Run.fault (.noMember handle.owner handle.method)
  e.call target callee args

/-- Makes an instance of a loaded class and runs one of its constructors on it. -/
def construct (ty : String) (ctor : Uuid) (args : List Value) : Run Value := do
  let some target := (← get).types.find? ty | Run.fault (.unknownType ty)
  if target.definition.isAbstract || target.definition.isInterface then
    Run.fault (.abstractType ty)
  let some callee := target.definition.constructor? ctor | Run.fault (.noConstructor ty ctor)
  let object ← Run.instantiate ty
  let _ ← e.call target callee (object :: args)
  return object

/-- Resolves a type, or gives nothing when it is not to be had. -/
def tryResolve (c : ContainerRef) (ty : String) : Run (Option Value) :=
  (e.resolve c ty).orNone

/-! ## Recipes -/

mutual

/-- Follows a recipe with the number of its call and the container it is given. -/
def runRecipe (call : Nat) (c : ContainerRef) : Recipe → Run Value
  | .give source => Run.obtain source
  | .instantiate ty => Run.instantiate ty
  | .resolve ty => e.resolve c ty
  | .tryResolve ty => return (← e.tryResolve c ty).getD .null
  | .container => return .container c
  | .count => return .int (Int64.ofNat call)
  | .log line => do
    Run.note line
    return .null
  | .invoke owner method => return (← e.invoke owner method [.container c]).getD .null
  | .bind ty settings => do
    let (ref, h) := (← get).bind c ty
    set (h.configure ref settings)
    return .null
  | .fail error => throw error
  | .sequence recipes => runRecipes call c .null recipes
  | .after calls error recipe =>
    if call ≤ calls then throw error else runRecipe call c recipe

/-- Follows recipes one after the other and gives the last value. -/
def runRecipes (call : Nat) (c : ContainerRef) (last : Value) : List Recipe → Run Value
  | [] => return last
  | recipe :: rest => do
    let value ← runRecipe call c recipe
    runRecipes call c value rest

end

/-- Runs a supplied factory. -/
def runSuppliedFactory (factory : SuppliedFactory) (c : ContainerRef) : Run Value := do
  let call ← Run.countCall factory.counter
  e.runRecipe call c factory.recipe

/-- Takes the steps of a supplied injector on an instance. -/
def runInjectorSteps (call : Nat) (c : ContainerRef) (instance_ : Value) :
    List InjectorStep → Run Unit
  | [] => return
  | .run recipe :: rest => do
    let _ ← e.runRecipe call c recipe
    runInjectorSteps call c instance_ rest
  | .assign owner field recipe :: rest => do
    if let .object ref := instance_ then
      let value ← e.runRecipe call c recipe
      match (← get).setDeclared? ref owner field value with
      | some h =>
        set h
        Run.note s!"set {owner}::{field} true"
      | none => Run.note s!"set {owner}::{field} false"
    runInjectorSteps call c instance_ rest

/-! ## Factories -/

/-- The arguments for parameters, resolved in order up to the first that is not to be had. -/
def probe (c : ContainerRef) : List Parameter → Run (Option (List Value))
  | [] => return some []
  | p :: rest => do
    match ← e.tryResolve c p.ty with
    | none => return none
    | some value => return (← probe c rest).map (value :: ·)

/-- Runs the first of some constructors whose parameters can all be resolved. -/
def constructFirst (ty : String) (c : ContainerRef) : List Method → Run Value
  | [] => throw (.unsupported ty .noConstructor)
  | ctor :: rest => do
    match ← e.probe c ctor.params with
    | some args => e.construct ty ctor.id args
    | none => constructFirst ty c rest

/-- Builds an instance. A loaded type without constructors is built with default values. -/
def runFactory (factory : Factory) (c : ContainerRef) : Run Value :=
  match factory with
  | .woven handle => do
    match ← e.invokeHandle handle [.container c] with
    | some value => return value
    | none => Run.fault (.noFactoryResult handle.owner)
  | .supplied factory => e.runSuppliedFactory factory c
  | .introspected ty => do
    let some t := (← get).typeDef? ty | throw (.unsupported ty .notLoaded)
    if t.constructors.isEmpty then Run.instantiate ty
    else e.constructFirst ty c t.constructors

/-! ## Injectors -/

/-- Resolves the types of fields and stores the values, field by field. -/
def fillFields (owner : String) (ref : ObjectRef) (c : ContainerRef) :
    List (String × String) → Run Unit
  | [] => return
  | (name, ty) :: rest => do
    let value ← e.resolve c ty
    let h ← get
    match h.setDeclared? ref owner name value with
    | some h => set h
    | none => Run.fault (.missingField (h.object ref).ty owner name)
    fillFields owner ref c rest

/-- Fills the fields of an instance. -/
def runInjector (injector : Injector) (instance_ : Value) (c : ContainerRef) : Run Unit :=
  match injector with
  | .woven handle => do
    let _ ← e.invokeHandle handle [instance_, .container c]
    return
  | .supplied injector => do
    let call ← Run.countCall injector.counter
    e.runInjectorSteps call c instance_ injector.steps
  | .introspected owner fields => do
    match instance_ with
    | .object ref => e.fillFields owner ref c fields
    | value => throw (.cast owner ((← get).typeName value))

/-- Fills the fields of an object by the injector of its type, if there is one. Other values are
left alone. -/
def inject (c : ContainerRef) (instance_ : Value) : Run Unit := do
  let .object ref := instance_ | return
  match ← Run.injectorOf? ((← get).object ref).ty with
  | some injector => e.runInjector injector instance_ c
  | none => return

/-! ## Instructions -/

/-- The method that runs, with its type and its arguments. -/
structure Frame where
  owner : LoadedType
  method : Method
  args : List Value

namespace Frame

variable {α : Type} (f : Frame)

/-- Raises a fault of an instruction. -/
def fault (cause : FrameFault) : Run α :=
  Run.fault (.inFrame f.owner.definition.name f.method.name cause)

/-- A loaded type that the running method may use: any of its own module, public ones of others. -/
def lookup (ty : String) : Run LoadedType := do
  let some target := (← get).types.find? ty | f.fault (.unknownType ty)
  if target.definition.visibility ≠ .everywhere ∧ target.module ≠ f.owner.module then
    f.fault (.foreignType ty f.owner.module)
  return target

/-- Whether the running method may use a member of the given visibility. -/
def mayUse (target : LoadedType) : Visibility → Bool
  | .everywhere => true
  | .ownModule => target.module == f.owner.module
  | .ownType => target.definition.name == f.owner.definition.name

/-- Checks that the running method may use a member. -/
def checkMember (target : LoadedType) (visibility : Visibility) (member : String) : Run Unit :=
  if f.mayUse target visibility then pure ()
  else f.fault (.inaccessible visibility target.definition.name member)

/-- Checks that a type declares a field that the running method may use. -/
def checkField (target : LoadedType) (field : String) : Run Unit := do
  let some declared := target.definition.field? field
    | f.fault (.undeclaredField target.definition.name field)
  f.checkMember target declared.visibility field

/-- The top of a stack and what lies below it. -/
def pop : List Value → Run (Value × List Value)
  | [] => f.fault .stackUnderflow
  | value :: stack => return (value, stack)

/-- The top of a stack, which has to be an object, and what lies below it. -/
def popObject (stack : List Value) : Run (ObjectRef × List Value) := do
  match ← f.pop stack with
  | (.object ref, stack) => return (ref, stack)
  | (value, _) => f.fault (.notAnObject ((← get).typeName value))

/-- The topmost `count` values in the order they were pushed, and what lies below them. -/
def popMany (count : Nat) (stack : List Value) : Run (List Value × List Value) :=
  if stack.length < count then f.fault .stackUnderflow
  else pure ((stack.take count).reverse, stack.drop count)

end Frame

/-- Carries out an instruction on a stack, whose first value is its top. -/
def step (f : Frame) (stack : List Value) : Instr → Run (List Value)
  | .loadArg index => do
    let some value := f.args[index.toNat]? | f.fault (.noArgument index)
    return value :: stack
  | .loadConst value => return .ofConstant value :: stack
  | .loadField owner field => do
    f.checkField (← f.lookup owner) field
    let (ref, stack) ← f.popObject stack
    let h ← get
    let some value := h.getDeclared? ref owner field
      | f.fault (.missingField (h.object ref).ty owner field)
    return value :: stack
  | .storeField owner field => do
    f.checkField (← f.lookup owner) field
    let (value, stack) ← f.pop stack
    let (ref, stack) ← f.popObject stack
    let h ← get
    let some h' := h.setDeclared? ref owner field value
      | f.fault (.missingField (h.object ref).ty owner field)
    set h'
    return stack
  | .newObject owner ctor => do
    let target ← f.lookup owner
    let some callee := target.definition.constructor? ctor | f.fault (.noConstructor owner ctor)
    f.checkMember target callee.visibility constructorName
    let (args, stack) ← f.popMany callee.params.length stack
    let object ← e.construct owner ctor args
    return object :: stack
  | .call owner method => do
    let target ← f.lookup owner
    let some callee := target.definition.member? method | f.fault (.noMethod owner method)
    f.checkMember target callee.visibility callee.name
    let (args, stack) ← f.popMany callee.arity stack
    let result ← e.call target callee args
    return if callee.returnType.isSome then result.getD .null :: stack else stack
  | .loadMethod owner method => do
    let target ← f.lookup owner
    let some callee := target.definition.method? method | f.fault (.noMethod owner method)
    if !callee.isStatic then f.fault (.notStatic owner callee.name)
    f.checkMember target callee.visibility callee.name
    return .method ⟨owner, method⟩ :: stack
  | .resolve ty => do
    match ← f.pop stack with
    | (.container c, stack) => return (← e.resolve c ty) :: stack
    | _ => f.fault (.notAContainer ty)
  | .register kind ty => do
    match ← f.pop stack with
    | (.method handle, stack) =>
      Run.registerWoven kind ty handle
      return stack
    | _ => f.fault (.notAMethod kind ty)
  | .upcast ty => do
    let (value, _) ← f.pop stack
    let h ← get
    if !value.isNull && !h.isInstance value ty then f.fault (.cannotUpcast (h.typeName value) ty)
    return stack
  | .print => do
    let (value, stack) ← f.pop stack
    Run.print (value.display (← get))
    return stack
  | .dup => do
    let (value, _) ← f.pop stack
    return value :: stack
  | .pop => do
    let (_, stack) ← f.pop stack
    return stack
  | .ret => return stack

/-- Carries out the instructions of a body up to its end or the first return. -/
def runBody (f : Frame) : (stack : List Value) → List Instr → Run (List Value)
  | stack, [] => return stack
  | stack, .ret :: _ => return stack
  | stack, i :: rest => do
    let stack ← e.step f stack i
    runBody f stack rest

/-- Runs a method. One with a result leaves it on the stack. -/
def execute (f : Frame) : Run (Option Value) := do
  let stack ← e.runBody f [] f.method.body
  if f.method.returnType.isSome then
    let (value, _) ← f.pop stack
    return some value
  else return none

/-! ## One level more -/

/-- Calls a member, unless the number of arguments is wrong or too many calls are active. -/
def callNext (owner : LoadedType) (method : Method) (args : List Value) : Run (Option Value) := do
  if args.length ≠ method.arity then
    Run.fault (.wrongArgumentCount owner.definition.name method.name method.arity args.length)
  if maxCallDepth ≤ (← get).callDepth then
    Run.fault (.callTooDeep owner.definition.name method.name)
  Run.between (fun h => { h with callDepth := h.callDepth + 1 })
    (fun h => { h with callDepth := h.callDepth - 1 })
    (e.execute ⟨owner, method, args⟩)

/-- Produces an instance for a binding: the held one, else one made by the binding's own factory,
else one made by the factory of the concrete type. -/
def produce (c : ContainerRef) (b : Binding) : Run Value :=
  match b.held, b.factory with
  | some value, _ => return value
  | none, some factory => e.runSuppliedFactory factory c
  | none, none => do
    let factory ← Run.factoryOf b.concrete
    e.runFactory factory c

/-- Checks that a value is an instance of the type it was asked for as. -/
def checkInstance (value : Value) (ty : String) : Run Unit := do
  let h ← get
  if !h.isInstance value ty then throw (.cast ty (h.typeName value))

/-- Settles a produced instance according to the scope that the binding has by now. -/
def settle (ref : BindingRef) (produced : Value) : Run Unit := do
  let b := (← get).binding ref
  match b.scope with
  | .unset => throw (.configuration b.requested)
  | .singleton =>
    modify fun h => h.updateBinding ref fun b => { b with held := some produced, resolved := true }
  | .transient => return

/-- Resolves a type through a binding. A resolved binding answers with what it holds. Fields are
filled by the injector of the type that was asked for, not of the type that was made. -/
def resolveBinding (c : ContainerRef) (ty : String) (ref : BindingRef) : Run Value := do
  let b := (← get).binding ref
  if b.resolved then
    let value := b.held.getD .null
    checkInstance value ty
    return value
  if b.producing then Run.fault (.dependencyCycle ty b.requested)
  Run.between (·.updateBinding ref fun b => { b with producing := true })
    (·.updateBinding ref fun b => { b with producing := false }) do
      let produced ← e.produce c b
      checkInstance produced ty
      if let some injector ← Run.injectorOf? ty then e.runInjector injector produced c
      settle ref produced
      return produced

/-- Resolves a type, unless too many resolutions of the container are active. -/
def resolveNext (c : ContainerRef) (ty : String) : Run Value := do
  if maxResolveDepth ≤ ((← get).container c).depth then Run.fault (.resolutionTooDeep ty)
  Run.between (·.updateContainer c fun c => { c with depth := c.depth + 1 })
    (·.updateContainer c fun c => { c with depth := c.depth - 1 }) do
      match (← get).bindingFor? c ty with
      | none => throw (.notFound ty)
      | some ref => e.resolveBinding c ty ref

/-- The engine of one level more. -/
def next : Engine := ⟨e.callNext, e.resolveNext⟩

/-- The engine of a level: as many calls and resolutions may be nested. -/
def ofLevel : Nat → Engine
  | 0 => ⟨fun _ _ _ => Run.exhausted, fun _ _ => Run.exhausted⟩
  | level + 1 => (ofLevel level).next

end Engine

end Weaver
