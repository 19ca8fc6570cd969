import Weaver.Host.State

/-!
# Running code on a host

A run reads and changes a host and ends in a value or an error; what it changed before an error
stays changed. Runs that recurse take fuel, and a run without a result is one that used it up.
-/

namespace Weaver

/-- A computation on a host. -/
abbrev Run (α : Type) := ExceptT HostError (StateT Host Option) α

namespace Run

variable {α : Type}

/-- The run that has used up its fuel. -/
def exhausted : Run α := ExceptT.mk fun _ => none

/-- The result of a run whose errors are values. -/
def attempt (x : Run α) : Run (Except HostError α) :=
  ExceptT.mk fun h => (x.run h).map fun (r, h) => (.ok r, h)

/-- A run between two changes of the host; the second is made however the run ends. -/
def between (enter leave : Host → Host) (x : Run α) : Run α := do
  modify enter
  let r ← x.attempt
  modify leave
  match r with
  | .ok a => return a
  | .error e => throw e

/-- A run that gives nothing for an error that means no more than that. -/
def orNone (x : Run α) : Run (Option α) := do
  match ← x.attempt with
  | .ok a => return some a
  | .error e => if e.isRecoverable then return none else throw e

/-- A value or an error. -/
def ofExcept : Except HostError α → Run α
  | .ok a => pure a
  | .error e => throw e

/-- Raises a fault of running code. -/
def fault (f : ExecutionFault) : Run α := throw (.execution f)

/-! ## Steps on the host -/

/-- A new object. -/
def allocate (object : HeapObject) : Run Value := do
  let (ref, h) := (← get).allocate object
  set h
  return .object ref

/-- A new object of a loaded type, with the default value in every field. -/
def instantiate (ty : String) : Run Value := do
  let slots ← ofExcept ((← get).types.layout ty)
  allocate { ty, slots }

/-- Takes a value from its source. -/
def obtain (source : Source) : Run Value := do
  let (value, h) := (← get).obtain source
  set h
  return value

/-- Writes a line of output. -/
def print (line : String) : Run Unit :=
  modify fun h => { h with output := h.output ++ [line] }

/-- Notes a line in the log. -/
def note (line : String) : Run Unit :=
  modify fun h => { h with log := h.log ++ [line] }

/-- Counts a call and gives the number of calls so far. -/
def countCall (counter : CounterRef) : Run Nat := do
  modify fun h => { h with counters := h.counters.modify counter.index (· + 1) }
  return (← get).counters.getD counter.index 0

/-- Registers a factory. -/
def registerFactory (ty : String) (factory : Factory) : Run Unit := do
  let registry ← ofExcept ((← get).registry.addFactory ty factory)
  modify fun h => { h with registry }

/-- Registers an injector. -/
def registerInjector (ty : String) (injector : Injector) : Run Unit := do
  let registry ← ofExcept ((← get).registry.addInjector ty injector)
  modify fun h => { h with registry }

/-! ## Registry lookups -/

/-- The factory that the loaded types supply for one of them: interfaces and abstract types have
none. -/
def introspectedFactory? (h : Host) (ty : String) : Option Factory :=
  match h.typeDef? ty with
  | some t => if t.isInterface || t.isAbstract then none else some (.introspected ty)
  | none => none

/-- The injector that the loaded types supply for one of them: a type without marked fields has
none. -/
def introspectedInjector? (h : Host) (ty : String) : Option Injector :=
  match h.typeDef? ty with
  | some t =>
    if t.markedFields.isEmpty then none
    else some (.introspected ty (t.markedFields.map fun f => (f.name, f.ty)))
  | none => none

/-- The factory that a fallback supplies. -/
def fallbackFactory? (ty : String) : Fallback → Run (Option Factory)
  | .introspection => return introspectedFactory? (← get) ty
  | .listed factories _ => do
    note s!"factory_for {ty}"
    return (factories.find? ty).map .supplied

/-- The injector that a fallback supplies. -/
def fallbackInjector? (ty : String) : Fallback → Run (Option Injector)
  | .introspection => return introspectedInjector? (← get) ty
  | .listed _ injectors => do
    note s!"injector_for {ty}"
    return (injectors.find? ty).map .supplied

/-- The factory of a type: a registered one, else one that the fallback supplied before, else one
that it supplies now. -/
def factoryOf (ty : String) : Run Factory := do
  let registry := (← get).registry
  match registry.factories.find? ty, registry.fallback with
  | some factory, _ => return factory
  | none, none => throw (.unsupported ty .noFactory)
  | none, some fallback =>
    match registry.cachedFactories.find? ty with
    | some factory => return factory
    | none =>
      match ← fallbackFactory? ty fallback with
      | none => throw (.unsupported ty .notIntrospectable)
      | some factory =>
        modify fun h => { h with registry := h.registry.cacheFactory ty factory }
        return factory

/-- The injector of a type, found in the same way; a type need not have one. -/
def injectorOf? (ty : String) : Run (Option Injector) := do
  let registry := (← get).registry
  match registry.injectors.find? ty, registry.fallback with
  | some injector, _ => return some injector
  | none, none => return none
  | none, some fallback =>
    match registry.cachedInjectors.find? ty with
    | some injector => return some injector
    | none =>
      match ← fallbackInjector? ty fallback with
      | none => return none
      | some injector =>
        modify fun h => { h with registry := h.registry.cacheInjector ty injector }
        return some injector

/-- Registers a woven method for a type. The type and the method have to be public, since the
registry belongs to another module, and the method has to be static with a factory's or injector's
number of parameters. -/
def registerWoven (kind : EntryKind) (ty : String) (handle : MethodHandle) : Run Unit := do
  let types := (← get).types
  let some owner := types.find? handle.owner | fault (.unknownType handle.owner)
  let some method := owner.definition.method? handle.method
    | fault (.noMethod handle.owner handle.method)
  let some target := types.find? ty | fault (.registerUnknownType kind ty)
  if target.definition.visibility ≠ .everywhere then fault (.registerHiddenType kind ty)
  if owner.definition.visibility ≠ .everywhere ∨ method.visibility ≠ .everywhere then
    fault (.registerHiddenMethod handle.owner method.name)
  let expected := match kind with
    | .factory => 1
    | .injector => 2
  if !method.isStatic ∨ method.params.length ≠ expected then
    fault (.registerWrongShape kind handle.owner method.name)
  match kind with
  | .factory => registerFactory ty (.woven handle)
  | .injector => registerInjector ty (.woven handle)

end Run

end Weaver
