import Reconciler.Readiness.Record
import Reconciler.Resource.Selection
import Reconciler.Rollout.Generation
import Reconciler.Session

/-!
# Collecting the objects that decide readiness

Each reference is read again, and from the body that the cluster has now follows what else
to read: the pods of a workload, or a deployment with the replica set of its template. An
object that is not there, or of which a part that must be read is not there, is missing; any
other refusal ends the collection.
-/

namespace Reconciler.Readiness

open Cluster

/-- Two records as one. -/
def Record.append (x y : Record) : Record where
  pods := x.pods ++ y.pods
  services := x.services ++ y.services
  volumes := x.volumes ++ y.volumes
  deployments := x.deployments ++ y.deployments
  missing := x.missing ++ y.missing
  ignored := x.ignored ++ y.ignored

instance : Append Record := ⟨Record.append⟩

/-- The values of the objects that a listing has, or its refusal. -/
def listed (api : Api (List Value)) : Session (Reply (List Value)) := do
  match ← api with
  | .ok objects => return .ok (← Session.serializedAll objects)
  | .error refusal => return .error refusal

/-- The pods in a namespace that have given labels. -/
def podsWith (space : Value) (labels : Members) : Session (Reply (List Value)) := do
  let selector ← Session.ofFault (Schema.selectorText labels)
  listed (listPods space selector)

/-- The objects among some that an owner controls. -/
def controlledBy (owner : Value) : List Value → Except Fault (List Value)
  | [] => .ok []
  | object :: rest => do
    let isOwn ← Rollout.isControlledBy object owner
    let rest ← controlledBy owner rest
    return if isOwn then object :: rest else rest

/-- The replica set of a deployment's template, null if there is none. -/
def currentReplicaSet (deployment : Value) : Session (Reply Value) := do
  let metadata ← Session.ofFault (deployment.get "metadata")
  let space ← Session.ofFault (metadata.orEmpty.get "namespace")
  let labels ← Session.ofFault (Schema.matchLabels deployment)
  let selector ← Session.ofFault (Schema.selectorText labels)
  match ← listed (listReplicaSets space selector) with
  | .error refusal => return .error refusal
  | .ok replicaSets =>
    let own ← Session.ofFault (controlledBy deployment replicaSets)
    let found ← Session.ofFault (Rollout.newReplicaSet deployment own)
    return .ok (Value.ofOption found)

/-- A deployment with the replica set of its template. -/
def deploymentOf (ref : Ref) : Session (Reply DeploymentPair) := do
  match ← readDeployment ref.space ref.name with
  | .error refusal => return .error refusal
  | .ok object =>
    let deployment ← Session.serialized object
    match ← currentReplicaSet deployment with
    | .error refusal => return .error refusal
    | .ok replicaSet => return .ok { deployment, replicaSet }

/-- What decides the readiness of an object that exists. -/
def evidence (ref : Ref) : Session (Reply Record) := do
  let info ← Session.ofFault ref.info
  match info.readiness with
  | .pod => return .ok { pods := [ref.body] }
  | .selectedPods => do
    let labels ← Session.ofExcept (info.podLabels ref.body)
    let pods ← podsWith ref.space labels
    return pods.map fun pods => { pods }
  | .service => return .ok { services := [ref.body] }
  | .volumeClaim => return .ok { volumes := [ref.body] }
  | .deployment => do
    let pair ← deploymentOf ref
    return pair.map fun pair => { deployments := [pair] }
  | .job | .unrecognized => return .ok { ignored := [ref] }

/-- Read one object, and what decides its readiness. -/
def observe (ref : Ref) : Session (Ref × Record) := do
  match ← get (Key.ofRef ref) with
  | .error refusal =>
    if refusal.isAbsence then return (ref, { missing := [ref] })
    else throw (.about ref (.getRefused refusal))
  | .ok body =>
    let ref := ref.refresh body
    match ← evidence ref with
    | .ok record => return (ref, record)
    | .error refusal =>
      if refusal.isAbsence then return (ref, { missing := [ref] })
      else throw (.about ref (.readinessRefused refusal.reason))

/-- Read the objects of a set, and what decides their readiness. -/
def collect (refs : RefSet) : Session (RefSet × Record) := do
  let observed ← Session.visit observe refs
  return (observed.map (·.1), observed.foldl (fun record entry => record ++ entry.2) {})

/-- The objects of a set that are not ready, with the references as they were read. -/
def pending (refs : RefSet) : Session (RefSet × List String) := do
  let (refs, record) ← collect refs
  let names ← Session.ofFault record.pending
  return (refs, names)

/-- Whether all objects of a set are ready. -/
def isReady (refs : RefSet) : Session Bool := do
  let (_, names) ← pending refs
  return names.isEmpty

/-- The record of two objects, by their parts. -/
theorem append_eq (x y : Record) : x ++ y = Record.append x y := rfl

@[simp] theorem empty_append (record : Record) : ({} : Record) ++ record = record := rfl

theorem append_assoc (x y z : Record) : x ++ y ++ z = x ++ (y ++ z) := by
  simp only [append_eq, Record.append, List.append_assoc]

end Reconciler.Readiness
