import Reconciler.Rollout.Quantity

/-!
# The budget of a rollout

A rolling update may take some pods away before their successors are ready. The budget is
given by two parameters, how many pods may be added and how many may be missing; if both
come to nothing the rollout could never move, so one pod may be missing. A parameter that
cannot be read leaves no budget at all.
-/

namespace Reconciler.Rollout

/-- Whether a fault says that a parameter cannot be read. -/
def isUnreadable : Fault → Bool
  | .malformed | .invalidQuantity _ => true
  | _ => false

/-- How many pods may be missing, from both parameters together. -/
def allowance (maxSurge maxUnavailable desired : Value) : Except Fault Int :=
  let both : Except Fault (Int × Int) := do
    let surge ← quantity maxSurge desired true
    let unavailable ← quantity maxUnavailable desired true
    return (surge, unavailable)
  match both with
  | .ok (surge, unavailable) => .ok (if surge + unavailable = 0 then 1 else unavailable)
  | .error fault => if isUnreadable fault then .ok 0 else .error fault

/-- The desired number of pods; one if the deployment does not say. -/
def replicas (deployment : Value) : Except Fault Int := do
  let spec ← deployment.get "spec"
  let replicas ← spec.orEmpty.get "replicas"
  if replicas.isNull then return 1 else replicas.toWhole

/-- The parameters that apply when a rolling update does not give them. -/
def defaultParameters : Value :=
  .map [(.text "maxSurge", .text "25%"), (.text "maxUnavailable", .text "25%")]

/-- Whether a strategy updates pods a few at a time, as it does if it does not say. -/
def isRolling (strategy : Value) : Except Fault Bool := do
  let type ← strategy.get? "type"
  return (type.getD (.text "RollingUpdate")).equal false (.text "RollingUpdate")

/-- How many pods of a deployment may be missing during a rollout. -/
def maxUnavailable (deployment : Value) : Except Fault Int := do
  let spec ← deployment.get "spec"
  let strategy ← spec.orEmpty.get "strategy"
  let strategy := strategy.orEmpty
  if !(← isRolling strategy) then return 0
  let desired ← replicas deployment
  if desired ≤ 0 then return 0
  let rolling ← strategy.get "rollingUpdate"
  let rolling := if rolling.isNull then defaultParameters else rolling
  let surge ← rolling.get "maxSurge"
  let unavailable ← rolling.get "maxUnavailable"
  let allowed ← allowance surge unavailable (.int desired)
  return min allowed desired

/-- How many pods of the new template must be ready for a deployment to be ready. -/
def readyThreshold (deployment : Value) : Except Fault Int := do
  let desired ← replicas deployment
  let missing ← maxUnavailable deployment
  return desired - missing

end Reconciler.Rollout
