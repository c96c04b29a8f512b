import Reconciler.Resource.Ref
import Reconciler.Session
import Reconciler.Value.Spelled

/-!
# Events of a watch

While an object is watched, events arrive that say what happened to it and what it is like
now. An event is recorded under the name and the namespace that its object gives, or else
under those of the watched reference.
-/

namespace Reconciler.Watch

/-- What an event says. -/
inductive EventType where
  | added
  | modified
  | deleted
  | error
  | bookmark
  deriving DecidableEq, Inhabited

namespace EventType

/-- The word for a type of event. -/
def name : EventType → String
  | .added => "ADDED"
  | .modified => "MODIFIED"
  | .deleted => "DELETED"
  | .error => "ERROR"
  | .bookmark => "BOOKMARK"

/-- All types of event. -/
def all : List EventType := [.added, .modified, .deleted, .error, .bookmark]

/-- The type of event that a value names. -/
def ofValue? : Value → Option EventType
  | .text name => all.find? fun type => type.name == name
  | _ => none

theorem ofValue?_name (type : EventType) : ofValue? (.text type.name) = some type := by
  cases type <;> rfl

end EventType

/-- An event. -/
structure Event where
  type : EventType
  kind : String
  name : String
  /-- The namespace. -/
  space : Option String
  object : Members
  deriving Inhabited

namespace Event

/-- The object of an event by the way in which it is delivered. A delivery as the server has
it must have an object. -/
def delivered (object : Value) : Cluster.Delivery → Except Fault Value
  | .raw => if object.isNull then .error .unknownWord else .ok object
  | .wrapped | .bare => .ok object

/-- The members of an object whose keys are all text. -/
def textMembers? : Members → Option Members
  | [] => some []
  | (key, value) :: rest => do
    let key ← key.asText?
    let rest ← textMembers? rest
    return (.text key, value) :: rest

/-- The record of an event, unless it refuses a field. -/
def record? (ref : Ref) (type object metadata : Value) : Option Event := do
  let type ← EventType.ofValue? type
  let kind ← ref.kind.asText?
  let own (field : String) : Value := Value.ofOption (Members.field? metadata.members field)
  let name ← ((own "name").orElse ref.name).asText?
  let space ← ((own "namespace").orElse ref.space).asOptionalText?
  let object ← textMembers? object.members
  return { type, kind, name, space, object }

/-- The event that is delivered while a reference is watched. -/
def of (ref : Ref) (type object : Value) (delivery : Cluster.Delivery) : Except Fault Event := do
  let object ← delivered object delivery
  let metadata ← object.get "metadata"
  let _ ← metadata.orEmpty.get "name"
  match record? ref type object metadata.orEmpty with
  | some event => return event
  | none => throw .refusedField

end Event

end Reconciler.Watch
