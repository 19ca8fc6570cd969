import Weaver.Host.State
import Weaver.Text.Quoted

/-!
# Values as text

How values, bindings and containers look to users: in the output of programs, and in descriptions
for those who write them.
-/

namespace Weaver

/-! ## Values -/

namespace Value

/-- The text that printing a value writes. -/
def display (value : Value) (h : Host) : String :=
  match value with
  | null => "null"
  | bool true => "true"
  | bool false => "false"
  | int n => toString n.toInt
  | text s => s
  | object ref => "<" ++ (h.object ref).ty ++ ">"
  | method handle => "<method " ++ handle.owner ++ ">"
  | container _ => "<container>"

end Value

/-! ## Records -/

/-- A record by its name and the texts of its fields. -/
def recordText (name : String) (fields : List (String × String)) : String :=
  name ++ " \x7b " ++ String.intercalate ", " (fields.map fun (k, v) => k ++ ": " ++ v) ++ " \x7d"

/-- The text of a truth value. -/
def truthText (b : Bool) : String := if b then "true" else "false"

/-- The text of a scope. -/
def Scope.word : Scope → String
  | unset => "Unset"
  | transient => "Transient"
  | singleton => "Singleton"

/-- An object by its type and the names of its fields, whose values may refer back to it. -/
def HeapObject.describe (o : HeapObject) : String :=
  recordText "Object"
    [("ty", Text.quoted o.ty), ("fields", Text.quotedList (o.slots.map (·.name)))]

/-- A value by its kind and content. -/
def Value.describe (value : Value) (h : Host) : String :=
  match value with
  | text s => Text.quoted s
  | object ref => (h.object ref).describe
  | value => value.display h

/-- A binding by its configuration and its state. -/
def Binding.describe (b : Binding) : String :=
  recordText "Binding"
    [("requested", Text.quoted b.requested), ("concrete", Text.quoted b.concrete),
     ("scope", b.scope.word), ("has_instance", truthText b.held.isSome),
     ("has_factory", truthText b.factory.isSome), ("resolved", truthText b.resolved)]

/-- A container by the types it has bindings for. -/
def Host.describeContainer (h : Host) (c : ContainerRef) : String :=
  recordText "Container" [("bound", Text.quotedList (h.boundTypes c))]

end Weaver
