import Reconciler.Schema.Kind
import Reconciler.Value.Order
import Reconciler.Value.Shown

/-!
# Label selectors

An object that manages pods names them by labels. The labels are read from the object by the
rule of its kind and written as text for the server, which selects by them. The text lists
the labels in order of their keys, so it depends on the labels alone.
-/

namespace Reconciler.Schema

/-- The two parts of an entry: the items of a sequence of length two. -/
def pairOf : Value → Except Fault (Value × Value)
  | .list [x, y] | .tuple [x, y] | .set [x, y] => .ok (x, y)
  | .map [x, y] => .ok (x.1, y.1)
  | .text value => match value.toList with
    | [x, y] => .ok (.text (String.ofList [x]), .text (String.ofList [y]))
    | _ => .error .malformed
  | .bytes [x, y] => .ok (.int x.toNat, .int y.toNat)
  | .list _ | .tuple _ | .set _ | .map _ | .bytes _ => .error .malformed
  | _ => .error .wrongType

/-- The mapping that a sequence of entries describes. -/
def entriesToMembers : List Value → Members → Except Fault Members
  | [], members => .ok members
  | entry :: rest, members => do
    let (key, value) ← pairOf entry
    if key.isKey then entriesToMembers rest (members.put key value) else throw .wrongType

/-- A value as a mapping: a mapping itself, or a sequence of entries. -/
def toMembers : Value → Except Fault Members
  | .map members => .ok members
  | .list entries | .tuple entries | .set entries => entriesToMembers entries []
  | .text value => if value.isEmpty then .ok [] else .error .malformed
  | .bytes value => if value.isEmpty then .ok [] else .error .wrongType
  | _ => .error .wrongType

/-- The selector of an object, empty if it has none. -/
def selectorField (object : Value) : Except Fault Value := do
  let spec ← object.get "spec"
  let selector ← spec.orEmpty.get "selector"
  return selector.orEmpty

/-- The required labels of an object's label selector. -/
def matchLabels (object : Value) : Except Fault Members := do
  let selector ← selectorField object
  let labels ← selector.get "matchLabels"
  toMembers labels.orEmpty

/-- The labels that an object's selector consists of. -/
def plainLabels (object : Value) : Except Fault Members := do
  let selector ← selectorField object
  toMembers selector

/-- The labels of the pods that an object manages, by the rule of its kind. -/
def SelectorRule.labels : SelectorRule → Value → Except Fault Members
  | .matchLabels, object => Schema.matchLabels object
  | .plainLabels, object => Schema.plainLabels object

/-- One required label as text. -/
def requirementText (label : Value × Value) : String := label.1.plain ++ "=" ++ label.2.plain

/-- Whether the first of two labels comes before the other: by key, then by value. -/
def labelLess? (x y : Value × Value) : Option Bool :=
  Value.listLess? [x.1, x.2] [y.1, y.2]

/-- Labels as the text of a selector. -/
def selectorText (labels : Members) : Except Fault String :=
  match Value.sortBy? labelLess? labels with
  | some sorted => .ok (String.intercalate "," (sorted.map requirementText))
  | none => .error .wrongType

/-- The text of a selector that a value describes; only a mapping does. -/
def selectorTextOf : Value → Except Fault String
  | .map labels => selectorText labels
  | _ => .error .noMember

end Reconciler.Schema
