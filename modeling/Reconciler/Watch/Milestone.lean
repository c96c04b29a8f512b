import Reconciler.Readiness.Phase
import Reconciler.Readiness.Predicate
import Reconciler.Value.Whole
import Reconciler.Watch.Event

/-!
# Watching until a milestone

A watch goes on until an event is decisive. Which events are depends on what is waited for:
that an object is there, that a job has come to its end, or that a pod has. Events after the
decisive one are not looked at. The watch is stopped however it ends.
-/

namespace Reconciler.Watch

/-- Whether an event is decisive; it may also decide that the wait has failed. -/
abbrev Milestone := Event → Except Failure Bool

/-- The failure of a job. It is attributed to the object that the event names. -/
def jobFailure (event : Event) (reason : Value) : Failure :=
  .problem {
    cause := .jobFailed reason
    subject := {
      kind := .text "Job"
      name := .text event.name
      space := Value.ofOption (event.space.map .text) } }

/-- Whether the conditions of a job say that it is complete. The first condition that holds
and is of one of the two final types decides. -/
def jobVerdict (event : Event) : List Value → Except Failure Bool
  | [] => .ok false
  | condition :: rest => do
    let status ← liftFault (condition.get "status")
    if status.equal false (.text "True") then
      let type ← liftFault (condition.get "type")
      if type.equal false (.text "Complete") then return true
      if type.equal false (.text "Failed") then
        throw (jobFailure event (← liftFault (condition.get "reason")))
    jobVerdict event rest

/-- A job has come to its end when it is complete; a failed one fails the wait. -/
def jobComplete : Milestone := fun event => do
  let conditions ← liftFault (Readiness.nested (.map event.object) "status" "conditions")
  let conditions ← liftFault ((conditions.orElse (.list [])).parts)
  jobVerdict event conditions

/-- An object is there when it is added or modified, and so is the end of its life. For a job
it is its completion that counts. -/
def deployed (ref : Ref) : Milestone := fun event =>
  match event.type with
  | .added | .modified =>
    if ref.kind.equal false (.text "Job") then jobComplete event else .ok true
  | .deleted => .ok true
  | .error | .bookmark => .ok false

/-- A pod has come to its end when its phase is a final one. A deleted pod fails the wait. -/
def podFinished (ref : Ref) : Milestone := fun event =>
  match event.type with
  | .deleted => .error (.about ref .podGone)
  | _ => do
    let phase ← liftFault (Readiness.nested (.map event.object) "status" "phase")
    return (PodPhase.ofValue phase).isFinal

/-- Follow what happens during a watch up to the first decisive event. -/
def follow (ref : Ref) (milestone : Milestone) (doing : String) :
    List Cluster.StreamItem → Session (Option Event)
  | [] => pure none
  | .broken changes refusal :: _ => do
    Session.change fun s => s.applyAll changes
    throw (.about ref (.watchRefused doing refusal.reason))
  | .event changes none :: rest => do
    Session.change fun s => s.applyAll changes
    follow ref milestone doing rest
  | .event changes (some (type, object, delivery)) :: rest => do
    Session.change fun s => s.applyAll changes
    let event ← Session.ofFault (Event.of ref type object delivery)
    let isDecisive ← Session.ofExcept (milestone event)
    if isDecisive then return some event else follow ref milestone doing rest

/-- The whole seconds after which the server ends a watch: at least one, and none at all
without a timeout. -/
def serverTimeout (timeout : Value) : Except Fault Value :=
  if !timeout.isTruthy then .ok .null
  else match timeout with
    | .bool _ => .ok (.int 1)
    | .int seconds => .ok (.int (max 1 seconds))
    | .float seconds => do
      let seconds ← Value.wholeOfDouble Double.ceil? seconds
      return .int (max 1 seconds)
    | _ => .error .wrongType

/-- Watch a reference, and look at what happens. -/
def stream (ref : Ref) (timeout : Value) (milestone : Milestone) (doing : String) :
    Session (Option Event) := do
  let version ← Session.ofFault ref.resourceVersion
  let limit ← Session.ofFault (serverTimeout timeout)
  let items ← Session.call (Cluster.watch (.ofRef ref) version limit) fun refusal =>
    .about ref (.watchRefused doing refusal.reason)
  follow ref milestone doing items

/-- Watch a reference until its milestone. -/
def untilMilestone (ref : Ref) (timeout : Value) (milestone : Milestone) (doing : String) :
    Session Event := do
  let event ← Session.thenAlways (stream ref timeout milestone doing) fun s => s.record .stop
  match event with
  | some event => return event
  | none => throw (.about ref (.watchTimeout timeout))

/-- Watch a reference until its object is there. -/
def untilReady (ref : Ref) (timeout : Value) : Session Event :=
  untilMilestone ref timeout (deployed ref) "deploy"

/-- Watch the reference of a pod until the pod has come to its end. -/
def podUntilComplete (ref : Ref) (timeout : Value) : Session Event :=
  untilMilestone ref timeout (podFinished ref) "watch pod"

end Reconciler.Watch
