import Weaver.Weave.Synthesis

/-!
# Registrars

A woven module has one type of its own making whose only method runs when the module is loaded and
registers every factory, then every injector, in the order of their types.
-/

namespace Weaver

/-- The name of the method that registers. -/
def bakeName : String := "Bake"

/-- The full name of a module's registrar type. -/
def registrarName (module simpleName : String) : String :=
  s!"{module}.{simpleName}"

/-- The load marker of a registrar: modules for editors register in editors only. -/
def loadHook (editorOnly : Bool) : Marker :=
  if editorOnly then .editorLoadHook else .runtimeLoadHook

/-- Registers methods of one kind, each for the type it belongs to. -/
def registrations (kind : EntryKind) (entries : List Synthesized) : List Instr :=
  entries.flatMap fun e => [.loadMethod e.ty e.method, .register kind e.ty]

/-- The method that registers factories and injectors. -/
def bakeMethod (id : Uuid) (factories injectors : List Synthesized) (editorOnly : Bool) : Method :=
  { id
    name := bakeName
    visibility := .everywhere
    isStatic := true
    markers := [loadHook editorOnly, generatedMarker]
    body := registrations .factory factories ++ registrations .injector injectors ++ [.ret] }

/-- A registrar type with its method. -/
def registrarType (id : Uuid) (name : String) (bake : Method) : TypeDef :=
  { id, name, visibility := .everywhere, isAbstract := true, methods := [bake] }

/-- Adds the registrar type, unless its name is taken. -/
def Module.addRegistrar (m : Module) (name : String) (factories injectors : List Synthesized)
    (editorOnly : Bool) (typeId bakeId : Uuid) : Except WeaveError Module :=
  if (m.typeNamed? name).isSome then .error (.nameCollision name name)
  else .ok (m.addType
    (registrarType typeId name (bakeMethod bakeId factories injectors editorOnly)))

end Weaver
