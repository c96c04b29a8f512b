import Reconciler.Calendar.Iso
import Reconciler.Value.Order
import Reconciler.Value.Parts

/-!
# The replica set of a deployment's template

A deployment keeps one replica set for each template that it had. The current one has the
deployment's template, apart from a label by which the server tells the replica sets apart.
Several may qualify; the oldest one counts, and of equally old ones the first by name.
-/

namespace Reconciler.Rollout

/-- The label by which the server tells the replica sets of a deployment apart. -/
def hashLabel : String := "pod-template-hash"

/-- Labels without the hash label, and nothing at all in place of no labels. Labels that do
not count as present are left as they are. -/
def withoutHash (metadata : Members) : Value → Except Fault Members
  | .map labels =>
    if labels.isEmpty then .ok metadata
    else
      let rest := Members.without labels (.text hashLabel)
      .ok (if rest.isEmpty then Members.without metadata (.text "labels")
        else Members.put metadata (.text "labels") (.map rest))
  | labels =>
    if !labels.isTruthy then .ok metadata
    else match labels with
      | .list _ | .set _ => .error .wrongType
      | _ => .error .noMember

/-- A template without the hash label, and without metadata if nothing else is in it. -/
def normalTemplate (template : Value) : Except Fault Members := do
  match template.orEmpty with
  | .map members =>
    let metadata := (Members.field? members "metadata").getD .null
    let labels ← metadata.orEmpty.get "labels"
    let stripped ← withoutHash metadata.members labels
    let members :=
      if labels.isTruthy then Members.put members (.text "metadata") (.map stripped) else members
    match Members.field? members "metadata" with
    | some (.map []) => return Members.without members (.text "metadata")
    | _ => return members
  | _ => throw .noMember

/-- Whether two templates are equal apart from the hash label. -/
def sameTemplate (x y : Value) : Except Fault Bool := do
  let x ← normalTemplate x
  let y ← normalTemplate y
  return (Value.map x).equal false (.map y)

/-- Whether some reference of an object names a controller with a given identity. -/
def anyController (uid : Value) : List Value → Except Fault Bool
  | [] => .ok false
  | reference :: rest => do
    let controls ← reference.get "controller"
    if controls.isTruthy then
      let owner ← reference.get "uid"
      if owner.equal false uid then return true
    anyController uid rest

/-- Whether an object is controlled by an owner. -/
def isControlledBy (object owner : Value) : Except Fault Bool := do
  let ownerMetadata ← owner.get "metadata"
  let uid ← ownerMetadata.orEmpty.get "uid"
  let metadata ← object.get "metadata"
  let references ← metadata.orEmpty.get "ownerReferences"
  let references ← (references.orElse (.list [])).parts
  anyController uid references

/-- Text with its upper-case marks of universal time written as offsets. -/
def zeroOffset (text : List Char) : List Char :=
  text.flatMap fun c => if c = 'Z' then "+00:00".toList else [c]

/-- The instant at which an object was created, in microseconds. An object that does not say
was created at the start of the calendar. -/
def creationInstant (timestamp : Value) : Except Fault Int := do
  let moment ← match timestamp with
    | .text text => match Moment.read (zeroOffset text.toList) with
      | some moment => pure moment
      | none => throw .malformed
    | .null => pure Moment.first
    | .moment moment => pure moment
    | _ => throw .noMember
  if Moment.inCalendar moment.instant then return moment.instant else throw .tooLarge

/-- What puts replica sets in order: the instant of creation, then the name. -/
def creationKey (replicaSet : Value) : Except Fault (Int × Value) := do
  let metadata ← replicaSet.get "metadata"
  let timestamp ← metadata.orEmpty.get "creationTimestamp"
  let instant ← creationInstant timestamp
  let name ← metadata.orEmpty.get "name"
  return (instant, name.orElse (.text ""))

/-- The keys of all replica sets. -/
def creationKeys : List Value → Except Fault (List ((Int × Value) × Value))
  | [] => .ok []
  | replicaSet :: rest => do
    let key ← creationKey replicaSet
    let keys ← creationKeys rest
    return (key, replicaSet) :: keys

/-- Whether one creation comes before another. Names are only compared at one instant. -/
def createdBefore? (x y : Int × Value) : Option Bool :=
  if x.1 != y.1 then some (decide (x.1 < y.1))
  else if x.2.equal false y.2 then some false
  else x.2.less? y.2

/-- The first replica set whose template is a given one. -/
def firstWithTemplate (template : Value) : List Value → Except Fault (Option Value)
  | [] => .ok none
  | replicaSet :: rest => do
    let spec ← replicaSet.get "spec"
    let own ← spec.orEmpty.get "template"
    if ← sameTemplate own template then return some replicaSet
    firstWithTemplate template rest

/-- The replica set that has the deployment's template. -/
def newReplicaSet (deployment : Value) (replicaSets : List Value) :
    Except Fault (Option Value) := do
  let spec ← deployment.get "spec"
  let template ← spec.orEmpty.get "template"
  let keyed ← creationKeys replicaSets
  match Value.sortBy? (fun x y => createdBefore? x.1 y.1) keyed with
  | some sorted => firstWithTemplate template (sorted.map (·.2))
  | none => throw .wrongType

end Reconciler.Rollout
