import Reconciler.Client.Basic
import Reconciler.Watch.Milestone

/-!
# Hooks

The objects of a hook are watched one after another until each has reached its milestone. The
pod of a hook is watched until it has come to its end; its phase is then read once more.
-/

namespace Reconciler.Client

/-- Watch the objects of a manifest until each has reached its milestone. -/
def watchUntilReady (client : Client) (space : Value) (source : Manifest.Source)
    (timeout : Value) : Session Unit := do
  let refs ← buildSome true space source
  let _ ← Session.visit (fun ref => Watch.untilReady ref (client.timeoutOr timeout)) refs

/-- The only reference of a set, which must be that of a pod. -/
def onlyPod : RefSet → Except Failure Ref
  | [ref] => if ref.kind.equal false (.text "Pod") then .ok ref else .error (.about ref .notPod)
  | refs => .error (.ofCause (.severalObjects refs.length))

/-- Wait until the pod of a manifest has come to its end, and read its phase. -/
def completedPodPhase (client : Client) (space : Value) (source : Manifest.Source)
    (timeout : Value) : Session PodPhase := do
  let refs ← buildSome true space source
  let ref ← Session.ofExcept (onlyPod refs)
  let _ ← Watch.podUntilComplete ref (client.timeoutOr timeout)
  let ref ← refresh ref .getRefused
  let phase ← Session.ofFault (Readiness.nested ref.body "status" "phase")
  return PodPhase.ofValue phase

end Reconciler.Client
