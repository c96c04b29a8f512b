import Reconciler.Client.Basic
import Reconciler.Patch.Decision

/-!
# Updating the objects of a manifest

An update brings a cluster from the objects of one manifest to those of another. Objects that
the cluster has not are created, others are patched where the manifests differ, and at the
end objects that only the first manifest has are deleted. An object that the cluster has but
the first manifest has not belongs to someone else, and ends the update.

Problems with single objects do not keep the update from the others. They are collected and
reported together, and unless the settings say otherwise nothing is deleted then.
-/

namespace Reconciler.Client

/-- What may be asked of an update. -/
structure UpdateOptions where
  /-- Replace objects whose patch the server refuses. -/
  isForced : Bool := false
  /-- Delete the pods of the objects, so that they start anew. -/
  restartsPods : Bool := false
  isWaiting : Bool := false
  timeout : Value := .null
  deriving Inhabited

/-- Build the references of a manifest of an update. Its problems are told as those of the
update. -/
def buildForUpdate (space : Value) (source : Manifest.Source) : Session RefSet := do
  match ← Session.recorded (build false space source) with
  | .ok refs => return refs
  | .error problem => throw (.ofCause (.undecodable problem.cause problem.subject))

/-- What to send for an object, given its last applied body. -/
def decisionFor (target : Ref) (current : Value) : Except Failure Patch.Decision :=
  (Patch.Decision.between current target.body).mapError fun failure =>
    match failure with
    | .problem problem => .about target (.noPatch problem.cause)
    | failure => failure

/-- Replace an object by one with the body of its reference. -/
def recreate (client : Client) (target : Ref) : Session Ref := do
  Session.call (client.deleteObject target) fun refusal => .about target (.deleteRefused refusal)
  createObject target .recreateRefused

/-- Send a patch. If the server refuses it, the object is replaced where that is asked for. -/
def sendPatch (client : Client) (isForced : Bool) (target : Ref) (patch : Members)
    (strategy : Patch.Strategy) : Session Ref := do
  match ← Cluster.patch (.ofRef target) (.map patch) strategy.contentType with
  | .ok body => return target.refresh body
  | .error refusal =>
    if isForced then client.recreate target
    else throw (.about target (.patchRefused refusal))

/-- Delete a pod, unless another one has taken its name. -/
def deletePod (target : Ref) (pod : Value) : Session Unit :=
  Session.call
    (Cluster.deletePod (Cluster.metadataField pod "namespace") (Cluster.metadataField pod "name")
      (Cluster.metadataField pod "uid"))
    fun refusal => .about target (.restartRefused refusal.reason)

/-- Delete pods one after another. -/
def deletePods (target : Ref) : List Value → Session Unit
  | [] => pure ()
  | pod :: rest => do
    deletePod target pod
    deletePods target rest

/-- Delete the pods of a workload. Without labels to find them by nothing is deleted, since
the empty selector selects all pods. -/
def restartPods (target : Ref) : Session Unit := do
  let info ← Session.ofFault target.info
  let labels ← Session.ofExcept (info.podLabels target.body)
  if labels.isEmpty then throw (.about target .noPodLabels)
  let selector ← Session.ofFault (Schema.selectorText labels)
  let pods ← Session.call (Cluster.listPods target.space selector) fun refusal =>
    .about target (.restartRefused refusal.reason)
  deletePods target pods

/-- Bring an object to the body of its reference, given the last applied one. -/
def updateObject (client : Client) (options : UpdateOptions) (current : Value) (target : Ref) :
    Session Ref := do
  let decision ← Session.ofExcept (decisionFor target current)
  let target ← match decision.patch with
    | none => refresh target .refreshRefused
    | some patch => client.sendPatch options.isForced target patch decision.strategy
  if options.restartsPods then restartPods target
  return target

/-- Bring one object to what the second manifest says, after it has been looked up. The
result has the problem of the update of this object, if there is one. -/
def settle (client : Client) (options : UpdateOptions) (earlier : RefSet) (target : Ref) :
    Cluster.Reply Value → Session (Ref × Option Problem)
  | .error refusal =>
    if refusal.isAbsence then do
      let created ← createObject target .createRefused
      return (created, none)
    else throw (.about target (.lookupRefused refusal))
  | .ok _ =>
    match earlier.get? target with
    | none => throw (.about target .orphan)
    | some old => do
      match ← Session.recorded (client.updateObject options old.body target) with
      | .ok target => return (target, none)
      | .error problem => return (target, some problem)

/-- Bring one object of the cluster to what the second manifest says. -/
def reconcile (client : Client) (options : UpdateOptions) (earlier : RefSet) (target : Ref) :
    Session (Ref × Option Problem) := do
  let reply ← Cluster.get (.ofRef target)
  client.settle options earlier target reply

/-- Delete objects one after another; what the server says to that does not matter. -/
def deleteAll (client : Client) : RefSet → Session Unit
  | [] => pure ()
  | ref :: rest => do
    let _ ← client.deleteObject ref
    deleteAll client rest

/-- End an update after the objects of the second manifest have been visited: delete what
only the first one has, unless problems keep from that, and report the problems. -/
def conclude (client : Client) (options : UpdateOptions) (stale : RefSet)
    (outcomes : List (Ref × Option Problem)) : Session RefSet := do
  let problems := outcomes.filterMap (·.2)
  if !problems.isEmpty && !client.settings.deletesOnError then throw (.update problems)
  else
    client.deleteAll stale
    if problems.isEmpty then
      client.waitIf options.isWaiting (outcomes.map (·.1)) options.timeout
    else throw (.update problems)

/-- Update the objects of one set to those of another. -/
def updateRefs (client : Client) (options : UpdateOptions) (earlier target : RefSet) :
    Session RefSet := do
  let outcomes ← Session.visit (client.reconcile options earlier) target
  client.conclude options (earlier.difference target) outcomes

/-- Update the objects of one manifest to those of another. -/
def update (client : Client) (space : Value) (earlier target : Manifest.Source)
    (options : UpdateOptions) : Session RefSet := do
  let earlier ← buildForUpdate space earlier
  let target ← buildForUpdate space target
  client.updateRefs options earlier target

end Reconciler.Client
