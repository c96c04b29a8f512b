import Reconciler.Schema.Model.Config
import Reconciler.Schema.Model.Container
import Reconciler.Schema.Model.Meta
import Reconciler.Schema.Model.Network
import Reconciler.Schema.Model.Pod
import Reconciler.Schema.Model.Scaling
import Reconciler.Schema.Model.Storage
import Reconciler.Schema.Model.Volume
import Reconciler.Schema.Model.Workload

/-!
# Models of built-in objects

The kinds that the registry lists have models, and so have the parts of their objects. Models are
reached by name, and from the type of a field to the model of its elements. The text of a type
names a list as `list[T]` and a mapping as `dict(K, V)`; a mapping written in any other way has no
element type, so nothing below it is typed.
-/

namespace Reconciler.Schema

/-- The models that are reached from the kinds of the registry. -/
def builtin : Table where
  models := metaModels ++ containerModels ++ podModels ++ volumeModels ++ storageModels ++
    workloadModels ++ networkModels ++ configModels ++ scalingModels
  named := by decide +kernel

/-- The part of a text after `front`, if the text starts with it. -/
def after? (front : String) (text : List Char) : Option (List Char) :=
  if front.toList.isPrefixOf text then some (text.drop front.length) else none

/-- Text that ends with a closing mark, without the mark. A single line end after the mark
does not count; what remains must be one non-empty line. -/
def beforeMark? (mark : Char) (text : List Char) : Option (List Char) :=
  let reversed := text.reverse
  let reversed := if reversed.head? = some '\n' then reversed.drop 1 else reversed
  match reversed with
  | last :: inner =>
    if last = mark && !inner.isEmpty && !inner.contains '\n' then some inner.reverse else none
  | [] => none

/-- The element type of a list type. -/
def listElement? (type : List Char) : Option (List Char) :=
  (after? "list[" type).bind (beforeMark? ']')

/-- The value type of a mapping type: what follows the first comma and a blank. -/
def mapElement? (type : List Char) : Option (List Char) := do
  let inside ← after? "dict(" type
  let (key, rest) := inside.span (· != ',')
  if key.isEmpty then none
  else
    let value ← after? ", " rest
    beforeMark? ')' value

/-- The type of the elements of a list or mapping type. -/
def elementType (type : Option String) : Option String :=
  type.bind fun text =>
    ((listElement? text.toList).or (mapElement? text.toList)).map String.ofList

@[simp] theorem elementType_none : elementType none = none := rfl

end Reconciler.Schema
