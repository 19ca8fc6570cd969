import Weaver.Host.Mode
import Weaver.Host.Registry
import Weaver.Host.Universe

/-!
# Hosts

A host holds the loaded types, the registry, and everything that running code makes: objects,
containers with their bindings, lines of output. References index into its tables, which only grow.

Three counters guard the recursion of running code: how many calls are active, how many resolutions
of each container, and which bindings are in the middle of producing an instance.
-/

namespace Weaver

/-- An object: its type and its fields, those of the most derived type first. -/
structure HeapObject where
  ty : String
  slots : List Slot := []
deriving DecidableEq, Inhabited

/-- How long instances of a binding live. -/
inductive Scope where
  | unset
  | transient
  | singleton
deriving DecidableEq, Inhabited

/-- A rule for obtaining instances of a type. -/
structure Binding where
  /-- The type that is asked for. -/
  requested : String
  /-- The type whose factory makes instances. -/
  concrete : String
  /-- The instance that was given, or that was made and is kept. -/
  held : Option Value := none
  factory : Option SuppliedFactory := none
  scope : Scope := .unset
  /-- The held instance is the answer to every resolution. -/
  resolved : Bool := false
  /-- An instance is being made. -/
  producing : Bool := false
deriving Inhabited

/-- A container: its bindings in the order of their declaration. -/
structure Container where
  bindings : List (String × BindingRef) := []
  /-- The number of active resolutions. -/
  depth : Nat := 0
deriving Inhabited

/-- A host. -/
structure Host where
  config : HostConfig := {}
  /-- The names of the loaded modules. -/
  modules : List String := []
  types : Universe := []
  registry : Registry := {}
  objects : Array HeapObject := #[]
  containers : Array Container := #[]
  bindings : Array Binding := #[]
  /-- The call counts of supplied factories and injectors. -/
  counters : Array Nat := #[]
  /-- What code has printed. -/
  output : List String := []
  /-- What recipes and listed fallbacks have noted. -/
  log : List String := []
  /-- The number of active calls. -/
  callDepth : Nat := 0
  /-- The values that embedding code keeps under names, the latest first. -/
  kept : List (String × Value) := []

namespace Host

/-- A host without modules. -/
def new (config : HostConfig) : Host :=
  { config
    registry := { fallback := if config.fallback then some .introspection else none } }

/-! ## Objects -/

/-- A new object. -/
def allocate (h : Host) (object : HeapObject) : ObjectRef × Host :=
  (⟨h.objects.size⟩, { h with objects := h.objects.push object })

/-- The object behind a reference. -/
def object (h : Host) (ref : ObjectRef) : HeapObject :=
  h.objects.getD ref.index default

/-- The value of the first field that satisfies a condition. -/
def slotValue? (h : Host) (ref : ObjectRef) (p : Slot → Bool) : Option Value :=
  ((h.object ref).slots.find? p).map (·.value)

/-- The most derived field of a name. -/
def get? (h : Host) (ref : ObjectRef) (name : String) : Option Value :=
  h.slotValue? ref (·.name == name)

/-- The field of a name that a type declares. -/
def getDeclared? (h : Host) (ref : ObjectRef) (owner name : String) : Option Value :=
  h.slotValue? ref fun s => s.owner == owner && s.name == name

/-- Puts a value into the first of the slots that a type declares under a name. -/
def storeSlot (owner name : String) (value : Value) : List Slot → List Slot
  | [] => []
  | s :: rest =>
    if s.owner == owner && s.name == name then { s with value } :: rest
    else s :: storeSlot owner name value rest

/-- Stores into the field of a name that a type declares; `none` when the object has no such
field. -/
def setDeclared? (h : Host) (ref : ObjectRef) (owner name : String) (value : Value) : Option Host :=
  if (h.getDeclared? ref owner name).isSome then
    some { h with
      objects := h.objects.modify ref.index fun o =>
        { o with slots := storeSlot owner name value o.slots } }
  else none

/-! ## Values of embedding code -/

/-- Keeps a value under a name, in place of an earlier one. -/
def keep (h : Host) (name : String) (value : Value) : Host :=
  { h with kept := (name, value) :: h.kept }

/-- The value that is kept under a name. -/
def kept? (h : Host) (name : String) : Option Value :=
  (h.kept.find? (·.1 == name)).map (·.2)

/-- Takes a value from its source. -/
def obtain (h : Host) : Source → Value × Host
  | .fixed value => (value, h)
  | .fresh ty =>
    let (ref, h) := h.allocate { ty }
    (.object ref, h)
  | .kept name => ((h.kept? name).getD .null, h)

/-! ## Types of values -/

/-- The name of a value's type. -/
def typeName (h : Host) : Value → String
  | .null => "null"
  | .bool _ => boolType
  | .int _ => intType
  | .text _ => stringType
  | .object ref => (h.object ref).ty
  | .method _ => "method"
  | .container _ => containerType

/-- Whether a value is an instance of a type. Null is one of none, everything else one of the root
type; method references are of no other. -/
def isInstance (h : Host) (value : Value) (ty : String) : Bool :=
  match value with
  | .null => false
  | .method _ => ty == objectType
  | .object ref => ty == objectType || h.types.conforms (h.object ref).ty ty
  | value => ty == objectType || h.typeName value == ty

/-! ## Containers and bindings -/

/-- A new container. -/
def addContainer (h : Host) : ContainerRef × Host :=
  (⟨h.containers.size⟩, { h with containers := h.containers.push {} })

/-- The container behind a reference. -/
def container (h : Host) (ref : ContainerRef) : Container :=
  h.containers.getD ref.index default

/-- Changes a container. -/
def updateContainer (h : Host) (ref : ContainerRef) (f : Container → Container) : Host :=
  { h with containers := h.containers.modify ref.index f }

/-- The binding behind a reference. -/
def binding (h : Host) (ref : BindingRef) : Binding :=
  h.bindings.getD ref.index default

/-- Changes a binding. -/
def updateBinding (h : Host) (ref : BindingRef) (f : Binding → Binding) : Host :=
  { h with bindings := h.bindings.modify ref.index f }

/-- A new counter at zero. -/
def addCounter (h : Host) : CounterRef × Host :=
  (⟨h.counters.size⟩, { h with counters := h.counters.push 0 })

/-- Takes one step in the configuration of a binding. -/
def configureStep (h : Host) (ref : BindingRef) : BindingStep → Host
  | .madeAs concrete => h.updateBinding ref fun b => { b with concrete }
  | .fromInstance source =>
    let (value, h) := h.obtain source
    h.updateBinding ref fun b => { b with held := some value, scope := .singleton }
  | .fromFactory recipe =>
    let (counter, h) := h.addCounter
    h.updateBinding ref fun b => { b with factory := some { recipe, counter } }
  | .asSingleton => h.updateBinding ref fun b => { b with scope := .singleton }
  | .asTransient => h.updateBinding ref fun b => { b with scope := .transient }

/-- Configures a binding step by step. -/
def configure (h : Host) (ref : BindingRef) (steps : List BindingStep) : Host :=
  steps.foldl (fun h step => h.configureStep ref step) h

/-- Adds a binding for a type to a container. Earlier bindings of the type go on to decide. -/
def bind (h : Host) (container : ContainerRef) (ty : String) : BindingRef × Host :=
  let ref : BindingRef := ⟨h.bindings.size⟩
  let h := { h with bindings := h.bindings.push { requested := ty, concrete := ty } }
  (ref, h.updateContainer container fun c => { c with bindings := c.bindings ++ [(ty, ref)] })

/-- The bindings that a container has for exactly a type, in order. -/
def bindingsFor (h : Host) (container : ContainerRef) (ty : String) : List BindingRef :=
  ((h.container container).bindings.filter (·.1 == ty)).map (·.2)

/-- The first binding of the nearest type on the supertype chain that has one. -/
def bindingFor? (h : Host) (container : ContainerRef) (ty : String) : Option BindingRef :=
  (h.types.chain maxHierarchyDepth ty).findSome? fun ty => (h.bindingsFor container ty).head?

/-- The types that a container has bindings for, in order. -/
def boundTypes (h : Host) (container : ContainerRef) : List String :=
  ((h.container container).bindings.map (·.1)).eraseDups.mergeSort fun a b => !decide (b < a)

/-! ## Modules -/

/-- Whether a module of this name is loaded. -/
def isLoaded (h : Host) (module : String) : Bool :=
  h.modules.contains module

/-- The definition of a loaded type. -/
def typeDef? (h : Host) (ty : String) : Option TypeDef :=
  (h.types.find? ty).map (·.definition)

end Host

end Weaver
