import Weaver.Host.Error
import Weaver.Host.Value

/-!
# Recipes

Factories and injectors that embedding code supplies, as data: what a recipe does with the container
it is given is fixed by its shape. Values are taken from their sources anew in every call, and every
factory and injector made from recipes counts its calls.
-/

namespace Weaver

/-- Where embedding code takes a value from, each time that it needs one. -/
inductive Source where
  /-- A fixed value. -/
  | fixed (value : Value)
  /-- A new object of a type without fields. -/
  | fresh (ty : String)
  /-- The value that is kept under a name by then, null if there is none. -/
  | kept (name : String)
deriving DecidableEq

mutual

/-- What a supplied factory does. -/
inductive Recipe where
  /-- Gives a value, taken from its source in every call. -/
  | give (source : Source)
  /-- Gives a new object of a loaded type. -/
  | instantiate (ty : String)
  /-- Resolves a type from the container. -/
  | resolve (ty : String)
  /-- Resolves a type from the container, null if it is not to be had. -/
  | tryResolve (ty : String)
  /-- Gives the container. -/
  | container
  /-- Gives the number of calls so far, this one included. -/
  | count
  /-- Notes a line in the log. -/
  | log (line : String)
  /-- Calls a method with the container as its only argument. -/
  | invoke (owner method : String)
  /-- Adds a binding to the container. -/
  | bind (ty : String) (settings : List BindingStep)
  /-- Raises an error. -/
  | fail (error : HostError)
  /-- Does one after the other and gives the last value. -/
  | sequence (recipes : List Recipe)
  /-- Raises an error in the first calls, and goes on to another recipe after them. -/
  | after (calls : Nat) (error : HostError) (recipe : Recipe)

/-- A step in the configuration of a binding. -/
inductive BindingStep where
  /-- Instances are made by the factory of this type. -/
  | madeAs (concrete : String)
  /-- The instance is given, taken from its source when the step is taken. -/
  | fromInstance (source : Source)
  /-- Instances are made by a recipe. -/
  | fromFactory (recipe : Recipe)
  | asSingleton
  | asTransient

end

instance : Inhabited Recipe := ⟨.container⟩
instance : Inhabited BindingStep := ⟨.asSingleton⟩

/-- A step of a supplied injector. -/
inductive InjectorStep where
  /-- Does what a recipe does and drops the value. -/
  | run (recipe : Recipe)
  /-- Puts the value of a recipe into a field of the instance and notes in the log whether it has
  the field. Values that are no objects are passed over. -/
  | assign (owner field : String) (recipe : Recipe)

/-- A reference to the call count of a supplied factory or injector. -/
structure CounterRef where
  index : Nat
deriving DecidableEq, Inhabited

/-- A supplied factory. -/
structure SuppliedFactory where
  recipe : Recipe
  counter : CounterRef

/-- A supplied injector. -/
structure SuppliedInjector where
  steps : List InjectorStep
  counter : CounterRef

end Weaver
