import Weaver.Host.Recipe

/-!
# Registries

Two tables, of factories and of injectors, with at most one entry per type. Entries are never
replaced. A fallback may supply entries for types without one; they are kept apart from the
registered ones.
-/

namespace Weaver

/-- What builds instances of a type. -/
inductive Factory where
  /-- A woven method. -/
  | woven (handle : MethodHandle)
  /-- Embedding code. -/
  | supplied (factory : SuppliedFactory)
  /-- The constructors of a loaded type. -/
  | introspected (ty : String)

/-- What fills the fields of an instance. -/
inductive Injector where
  /-- A woven method. -/
  | woven (handle : MethodHandle)
  /-- Embedding code. -/
  | supplied (injector : SuppliedInjector)
  /-- The marked fields of a loaded type, each with its declared type. -/
  | introspected (owner : String) (fields : List (String × String))

/-- A table of entries in the order of their registration. -/
abbrev EntryTable (α : Type) := List (String × α)

namespace EntryTable

variable {α : Type}

/-- The entry of a type. -/
def find? (table : EntryTable α) (ty : String) : Option α :=
  (List.find? (·.1 == ty) table).map (·.2)

/-- The types with an entry, in order. -/
def sortedTypes (table : EntryTable α) : List String :=
  (table.map (·.1)).mergeSort fun a b => !decide (b < a)

end EntryTable

/-- What supplies entries for types without a registered one. -/
inductive Fallback where
  /-- The loaded types. -/
  | introspection
  /-- Two fixed tables. Every request is noted in the log. -/
  | listed (factories : EntryTable SuppliedFactory) (injectors : EntryTable SuppliedInjector)

/-- A registry. -/
structure Registry where
  factories : EntryTable Factory := []
  injectors : EntryTable Injector := []
  fallback : Option Fallback := none
  /-- Factories that the fallback supplied. -/
  cachedFactories : EntryTable Factory := []
  /-- Injectors that the fallback supplied. -/
  cachedInjectors : EntryTable Injector := []

namespace Registry

/-- Registers a factory, unless the type has one. -/
def addFactory (r : Registry) (ty : String) (factory : Factory) : Except HostError Registry :=
  if (r.factories.find? ty).isSome then .error (.duplicateRegistration ty .factory)
  else .ok { r with factories := r.factories ++ [(ty, factory)] }

/-- Registers an injector, unless the type has one. -/
def addInjector (r : Registry) (ty : String) (injector : Injector) : Except HostError Registry :=
  if (r.injectors.find? ty).isSome then .error (.duplicateRegistration ty .injector)
  else .ok { r with injectors := r.injectors ++ [(ty, injector)] }

/-- Keeps a factory that the fallback supplied. -/
def cacheFactory (r : Registry) (ty : String) (factory : Factory) : Registry :=
  { r with cachedFactories := r.cachedFactories ++ [(ty, factory)] }

/-- Keeps an injector that the fallback supplied. -/
def cacheInjector (r : Registry) (ty : String) (injector : Injector) : Registry :=
  { r with cachedInjectors := r.cachedInjectors ++ [(ty, injector)] }

/-- The number of entries that the fallback supplied. -/
def cachedCount (r : Registry) : Nat :=
  r.cachedFactories.length + r.cachedInjectors.length

end Registry

end Weaver
