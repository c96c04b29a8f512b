import Reconciler.Rollout.Budget
import Reconciler.Value.Parts

/-!
# When an object is ready

A pod says so itself, a claim is ready when it is bound, a service when it has an address,
and a deployment when enough pods of its new replica set are ready.
-/

namespace Reconciler.Readiness

/-- A member of a member of an object; what does not count as present is empty. -/
def nested (object : Value) (outer inner : String) : Except Fault Value := do
  let value ← object.get outer
  value.orEmpty.get inner

/-- Whether some condition has a given type and holds. -/
def anyCondition (type : String) : List Value → Except Fault Bool
  | [] => .ok false
  | condition :: rest => do
    let own ← condition.get "type"
    if own.equal false (.text type) then
      let status ← condition.get "status"
      if status.equal false (.text "True") then return true
    anyCondition type rest

/-- A pod is ready if its condition of that name holds. -/
def podReady (pod : Value) : Except Fault Bool := do
  let conditions ← nested pod "status" "conditions"
  let conditions ← (conditions.orElse (.list [])).parts
  anyCondition "Ready" conditions

/-- A service is ready if it has an address in the cluster and, where it balances load, an
ingress. A name for something outside the cluster is always ready. -/
def serviceReady (service : Value) : Except Fault Bool := do
  let spec ← service.get "spec"
  let spec := spec.orEmpty
  let type ← spec.get "type"
  if type.equal false (.text "ExternalName") then return true
  let address ← spec.get "clusterIP"
  if !address.isTruthy then return false
  if type.equal false (.text "LoadBalancer") then
    let balancer ← nested service "status" "loadBalancer"
    let ingress ← balancer.orEmpty.get "ingress"
    return ingress.isTruthy
  return true

/-- A claim on a volume is ready once it is bound. -/
def claimReady (claim : Value) : Except Fault Bool := do
  let phase ← nested claim "status" "phase"
  return phase.equal false (.text "Bound")

/-- Whether a value is at least a whole number. -/
def atLeast (value : Value) (threshold : Int) : Except Fault Bool :=
  match value with
  | .float .nan => .ok false
  | .float (.infinite negative) => .ok !negative
  | value => match value.rational? with
    | some number => .ok (decide ((threshold : Rat) ≤ number))
    | none => .error .wrongType

/-- A deployment is ready if its new replica set, where there is one, has as many ready pods
as the rollout needs. -/
def deploymentReady (deployment replicaSet : Value) : Except Fault Bool := do
  if replicaSet.isNull then return false
  let ready ← nested replicaSet "status" "readyReplicas"
  let threshold ← Rollout.readyThreshold deployment
  atLeast (ready.orElse (.int 0)) threshold

end Reconciler.Readiness
