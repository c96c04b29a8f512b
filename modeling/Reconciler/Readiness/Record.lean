import Reconciler.Readiness.Predicate
import Reconciler.Resource.Set

/-!
# What is not ready

A record sorts the objects seen at one moment by the way in which their readiness is
decided. From it follows the list of those that are not ready, first the objects that do
not exist and then the others by family.
-/

namespace Reconciler.Readiness

/-- A deployment and the replica set of its template, null if there is none. -/
structure DeploymentPair where
  deployment : Value
  replicaSet : Value
  deriving Inhabited

/-- The objects seen at one moment, by family. -/
structure Record where
  pods : List Value := []
  services : List Value := []
  volumes : List Value := []
  deployments : List DeploymentPair := []
  missing : List Ref := []
  /-- The objects that are ready because they exist. -/
  ignored : List Ref := []
  deriving Inhabited

/-- An object in the list of those that are not ready. -/
def describe (object : Value) : Except Fault String := do
  let metadata ← object.get "metadata"
  let space ← metadata.orEmpty.get "namespace"
  let name ← metadata.orEmpty.get "name"
  return space.plain ++ "/" ++ name.plain

/-- An object that does not exist, in the same list. -/
def describeMissing (ref : Ref) : String :=
  ref.kind.plain ++ " " ++ ref.space.plain ++ "/" ++ ref.name.plain ++ " (not found)"

/-- The descriptions of the items that are not ready, in order. -/
def pendingOf (family : String) (isReady : α → Except Fault Bool) (object : α → Value) :
    List α → Except Fault (List String)
  | [] => .ok []
  | item :: items => do
    let here ← if ← isReady item then pure [] else do
      pure [family ++ " " ++ (← describe (object item))]
    let rest ← pendingOf family isReady object items
    return here ++ rest

/-- The descriptions of all objects that are not ready. -/
def Record.pending (record : Record) : Except Fault (List String) := do
  let pods ← pendingOf "Pod" podReady id record.pods
  let services ← pendingOf "Service" serviceReady id record.services
  let volumes ← pendingOf "PersistentVolumeClaim" claimReady id record.volumes
  let deployments ← pendingOf "Deployment"
    (fun pair => deploymentReady pair.deployment pair.replicaSet) DeploymentPair.deployment
    record.deployments
  return record.missing.map describeMissing ++ pods ++ services ++ volumes ++ deployments

@[simp] theorem pendingOf_nil (family : String) (isReady : α → Except Fault Bool)
    (object : α → Value) : pendingOf family isReady object [] = .ok [] := rfl

@[simp] theorem pending_empty : ({} : Record).pending = .ok [] := rfl

end Reconciler.Readiness
