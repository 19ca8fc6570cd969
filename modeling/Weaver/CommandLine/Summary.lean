import Weaver.Artifact

/-!
# Summaries of artifacts

A line for the module, one for each type, and one for each member, every level two blanks deeper
than the one above it.
-/

namespace Weaver

namespace Summary

/-! ## Parts of lines -/

/-- The adjective for a visibility, as summaries spell it. -/
def visibilityWord : Visibility → String
  | .ownType => "private"
  | .ownModule => "internal"
  | .everywhere => "public"

/-- What a type is called. Interfaces are abstract without saying so. -/
def kindWord (t : TypeDef) : String :=
  if t.isInterface then "interface"
  else if t.isAbstract then "abstract class"
  else "class"

/-- The name of a marker; a free tag stands for itself. -/
def markerName : Marker → String
  | .inject => "Inject"
  | .editorLoadHook => "EditorLoadHook"
  | .runtimeLoadHook => "RuntimeLoadHook"
  | .custom tag => tag

/-- The markers at the end of a member's line. -/
def markerList (markers : List Marker) : String :=
  if markers.isEmpty then ""
  else " [" ++ String.intercalate ", " (markers.map markerName) ++ "]"

/-! ## Lines -/

/-- The line of a field. -/
def fieldLine (f : Field) : String :=
  s!"    field {visibilityWord f.visibility} {f.name}: {f.ty}" ++ markerList f.markers

/-- The line of a method or constructor. -/
def methodLine (m : Method) : String :=
  let params := String.intercalate ", " (m.params.map fun p => p.name ++ ": " ++ p.ty)
  let result := match m.returnType with
    | some ty => " -> " ++ ty
    | none => ""
  "    " ++ visibilityWord m.visibility ++ (if m.isStatic then " static " else " ") ++ m.name
    ++ "(" ++ params ++ ")" ++ result ++ markerList m.markers

/-- The lines of a type: its own, then those of its fields, constructors and methods. -/
def typeLines (t : TypeDef) : List String :=
  let supertype := match t.supertype with
    | some name => " : " ++ name
    | none => ""
  s!"  {visibilityWord t.visibility} {kindWord t} {t.name}{supertype}"
    :: (t.fields.map fieldLine ++ t.constructors.map methodLine ++ t.methods.map methodLine)

/-- How much of a digest a summary shows. -/
def digestLength : Nat := 12

/-- The line that tells who wove a module. -/
def stampLine : Option Stamp → String
  | none => "  not woven"
  | some s =>
    let source := String.ofList (s.sourceHash.toList.take digestLength)
    s!"  woven by prewire {s.toolVersion} ({s.factories.toNat} factories, "
      ++ s!"{s.injectors.toNat} injectors, source {source})"

end Summary

open Summary in
/-- The lines that describe an artifact. -/
def Artifact.summary (a : Artifact) : List String :=
  let references :=
    if a.module.references.isEmpty then []
    else ["  references: " ++ String.intercalate ", " a.module.references]
  ["module " ++ a.module.name] ++ references
    ++ [stampLine a.module.stamp, s!"  symbols: {a.symbols.length}"]
    ++ a.module.types.flatMap typeLines

end Weaver
