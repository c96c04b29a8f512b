import Reconciler.Problem
import Reconciler.Value.Tree

/-!
# Lists of objects

A document whose kind ends in `List` and that has a list under `items` stands for the
objects in it, which may be such documents again. Where the kind says of what the list is,
as in `ConfigMapList`, items that lack a kind or an API version get theirs from the list.

Defaults are written to an item before it is decided whether the item is a list itself, and
they are written to the item wherever else it stands in the document.
-/

namespace Reconciler.Manifest

/-- The kind that ends the names of all kinds of lists. -/
def listKind : String := "List"

/-- Whether a kind is one of lists. -/
def isListKind (kind : String) : Bool := listKind.toList.isSuffixOf kind.toList

/-- The kind of the items of a list. -/
def itemKind (kind : String) : String :=
  String.ofList (kind.toList.take (kind.length - listKind.length))

/-- Where a document stands: by itself, or in a list with a kind and an API version. -/
inductive Position where
  | document
  | item (kind : String) (apiVersion : Value)
  deriving Inhabited

/-- What is wrong with anything but a mapping at a position. -/
def Position.wrongType (found : String) : Position → Cause
  | .document => .documentType found
  | .item kind _ => .itemType kind found

/-- Write the defaults of a position to a mapping. A list whose kind says nothing of its
items gives no defaults. -/
def Position.writeDefaults (position : Position) (writes : Writes) (tree : Tree) : Tree × Writes :=
  match position with
  | .document => (tree, writes)
  | .item kind apiVersion =>
    if kind == listKind then (tree, writes)
    else
      let (tree, writes) := tree.writeDefault writes "kind" (.text (itemKind kind))
      tree.writeDefault writes "apiVersion" apiVersion

/-- The kind of a document as text, where a kind that does not count as present is no text
at all. Other values cannot be kinds. -/
def kindText (kind : Value) : Except Fault String :=
  if kind.isTruthy then
    match kind with
    | .text kind => .ok kind
    | .bytes _ => .error .wrongType
    | _ => .error .noMember
  else .ok ""

mutual

/-- The objects of a document. -/
def flatten (position : Position) (writes : Writes) : Tree → Except Failure (List Tree × Writes)
  | .map mark members => do
    let (tree, writes) := position.writeDefaults writes (.map mark members)
    let kind ← liftFault (kindText (tree.get writes "kind"))
    if isListKind kind then
      match flattenItems (.item kind (tree.get writes "apiVersion")) writes members with
      | some objects => objects
      | none => return ([tree], writes)
    else return ([tree], writes)
  | tree => throw (.ofCause (position.wrongType tree.typeName))

/-- The objects in the list under `items`, if there is such a list. -/
def flattenItems (position : Position) (writes : Writes) :
    List (Value × Tree) → Option (Except Failure (List Tree × Writes))
  | [] => none
  | (key, tree) :: rest =>
    if Value.sameKey (.text "items") key then
      match tree with
      | .list items => some (flattenAll position writes items)
      | _ => none
    else flattenItems position writes rest

/-- The objects of documents at a position, in order. -/
def flattenAll (position : Position) (writes : Writes) :
    List Tree → Except Failure (List Tree × Writes)
  | [] => return ([], writes)
  | tree :: trees => do
    let (objects, writes) ← flatten position writes tree
    let (others, writes) ← flattenAll position writes trees
    return (objects ++ others, writes)

end

@[simp] theorem flattenAll_nil (position : Position) (writes : Writes) :
    flattenAll position writes [] = .ok ([], writes) := by
  rw [flattenAll]
  rfl

end Reconciler.Manifest
