import Weaver.Weave.Registrar

/-!
# Weaving a module

A weave adds the factories, then the injectors, then the registrar to a copy of the module, and
stamps it. The copy takes the module's place only if every step succeeds, and a module that carries
a stamp or has its registrar already is left alone.
-/

namespace Weaver

/-- The registrar's name within its module, unless the settings say otherwise. -/
def defaultRegistrarName : String := "PrewireRegistrar"

/-- The version that stamps name. -/
def toolVersion : String := "0.1.0"

/-- How to weave. -/
structure WeaveOptions where
  /-- The module is for editors only. -/
  editorOnly : Bool := false
  /-- The registrar's name within the module. -/
  registrarName : String := defaultRegistrarName
deriving DecidableEq

/-- What a weave did. -/
structure WeaveReport where
  module : String
  registrar : String
  /-- The types that got a factory. -/
  factories : List String
  /-- The types that got an injector. -/
  injectors : List String
deriving DecidableEq

/-- How a weave ended. -/
inductive WeaveOutcome where
  | woven (report : WeaveReport)
  /-- The module has a stamp or its registrar. -/
  | alreadyWoven
  /-- The module has no targets. -/
  | nothingToWeave
deriving DecidableEq

/-- A module in the middle of a weave. -/
structure Draft where
  module : Module
  supply : IdSupply
  factories : List Synthesized := []
  injectors : List Synthesized := []

namespace Draft

/-- Adds the factory of a target. -/
def addFactory (d : Draft) (target : ConstructorTarget) : Except WeaveError Draft := do
  let (id, supply) := d.supply.draw
  let module ← d.module.addFactory target id
  return { d with module, supply, factories := d.factories ++ [⟨target.ty, id⟩] }

/-- Adds the injector of a target. -/
def addInjector (d : Draft) (target : FieldTarget) : Except WeaveError Draft := do
  let (id, supply) := d.supply.draw
  let (module, outcome) := d.module.addInjector target id
  outcome
  return { d with module, supply, injectors := d.injectors ++ [⟨target.ty, id⟩] }

/-- Adds the registrar for what has been added so far. -/
def addRegistrar (d : Draft) (name : String) (editorOnly : Bool) : Except WeaveError Draft := do
  let (typeId, supply) := d.supply.draw
  let (bakeId, supply) := supply.draw
  let module ← d.module.addRegistrar name d.factories d.injectors editorOnly typeId bakeId
  return { d with module, supply }

/-- Adds everything that the targets call for. -/
def addAll (d : Draft) (targets : Targets) (registrar : String) (editorOnly : Bool) :
    Except WeaveError Draft := do
  let d ← targets.constructable.foldlM addFactory d
  let d ← targets.injectable.foldlM addInjector d
  d.addRegistrar registrar editorOnly

end Draft

namespace Module

/-- Whether a module has a stamp or a type of the registrar's name. -/
def isWoven (m : Module) (registrar : String) : Bool :=
  m.stamp.isSome || (m.typeNamed? registrar).isSome

/-- Weaves a module. The result is how the weave ended, the module after it and the rest of the
supply; on an error the caller keeps the module it has. -/
def weave (m : Module) (options : WeaveOptions) (supply : IdSupply) :
    Except WeaveError (WeaveOutcome × Module × IdSupply) := do
  let registrar := registrarName m.name options.registrarName
  if m.isWoven registrar then return (.alreadyWoven, m, supply)
  let targets := m.targets registrar
  if targets.isEmpty then return (.nothingToWeave, m, supply)
  let d ← Draft.addAll { module := m, supply } targets registrar options.editorOnly
  let stamp : Stamp :=
    { toolVersion
      sourceHash := m.hash
      factories := d.factories.length.toUInt32
      injectors := d.injectors.length.toUInt32 }
  let report : WeaveReport :=
    { module := m.name
      registrar
      factories := d.factories.map (·.ty)
      injectors := d.injectors.map (·.ty) }
  return (.woven report, { d.module with stamp := some stamp }, d.supply)

end Module

end Weaver
