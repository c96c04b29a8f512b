import Reconciler.Fault
import Reconciler.Schema.Model
import Reconciler.Value.Members

/-!
# Kinds of objects

What can be done with an object depends on its kind within its group. The registry lists
the kinds that have a model; every other kind is unsupported, which is a kind of its own
without group, model or selector.
-/

namespace Reconciler.Schema

/-- How the readiness of a kind is decided. -/
inductive Readiness where
  | pod
  | service
  | volumeClaim
  | deployment
  /-- By the pods that the object's selector selects. -/
  | selectedPods
  | job
  /-- Ready as soon as it exists. -/
  | unrecognized
  deriving DecidableEq, Inhabited

/-- The name of a way to decide readiness. -/
def Readiness.name : Readiness → String
  | .pod => "pod"
  | .service => "service"
  | .volumeClaim => "pvc"
  | .deployment => "deployment"
  | .selectedPods => "pod_selector"
  | .job => "job"
  | .unrecognized => "unrecognized"

/-- Where an object keeps the labels of the pods it manages. -/
inductive SelectorRule where
  /-- Under the required labels of a label selector. -/
  | matchLabels
  /-- In the selector itself. -/
  | plainLabels
  deriving DecidableEq, Inhabited

/-- What is known about a kind. -/
structure KindInfo where
  group : String
  kind : String
  model : Option String := none
  readiness : Readiness := .unrecognized
  selector : Option SelectorRule := none
  deriving DecidableEq, Inhabited

/-- The kind of every object that the registry does not list. -/
def KindInfo.unsupported : KindInfo := ⟨"", "", none, .unrecognized, none⟩

/-- A kind is supported if it has a model. -/
def KindInfo.isSupported (info : KindInfo) : Bool := info.model.isSome

/-- The kinds with a model, by group and name. -/
def registry : List KindInfo := [
    ⟨"", "Pod", some "V1Pod", .pod, none⟩,
    ⟨"", "Service", some "V1Service", .service, none⟩,
    ⟨"", "PersistentVolumeClaim", some "V1PersistentVolumeClaim", .volumeClaim, none⟩,
    ⟨"", "ReplicationController", some "V1ReplicationController", .selectedPods,
      some .plainLabels⟩,
    ⟨"apps", "Deployment", some "V1Deployment", .deployment, some .matchLabels⟩,
    ⟨"apps", "DaemonSet", some "V1DaemonSet", .selectedPods, some .matchLabels⟩,
    ⟨"apps", "StatefulSet", some "V1StatefulSet", .selectedPods, some .matchLabels⟩,
    ⟨"apps", "ReplicaSet", some "V1ReplicaSet", .selectedPods, some .matchLabels⟩,
    ⟨"batch", "Job", some "V1Job", .job, some .matchLabels⟩,
    ⟨"batch", "CronJob", some "V1CronJob", .unrecognized, none⟩,
    ⟨"", "ConfigMap", some "V1ConfigMap", .unrecognized, none⟩,
    ⟨"", "Secret", some "V1Secret", .unrecognized, none⟩,
    ⟨"", "ServiceAccount", some "V1ServiceAccount", .unrecognized, none⟩,
    ⟨"", "Namespace", some "V1Namespace", .unrecognized, none⟩,
    ⟨"", "Endpoints", some "V1Endpoints", .unrecognized, none⟩,
    ⟨"", "PersistentVolume", some "V1PersistentVolume", .unrecognized, none⟩,
    ⟨"", "LimitRange", some "V1LimitRange", .unrecognized, none⟩,
    ⟨"", "ResourceQuota", some "V1ResourceQuota", .unrecognized, none⟩,
    ⟨"networking.k8s.io", "Ingress", some "V1Ingress", .unrecognized, none⟩,
    ⟨"networking.k8s.io", "NetworkPolicy", some "V1NetworkPolicy", .unrecognized, none⟩,
    ⟨"policy", "PodDisruptionBudget", some "V1PodDisruptionBudget", .unrecognized, none⟩,
    ⟨"autoscaling", "HorizontalPodAutoscaler", some "V2HorizontalPodAutoscaler",
      .unrecognized, none⟩,
    ⟨"rbac.authorization.k8s.io", "Role", some "V1Role", .unrecognized, none⟩,
    ⟨"rbac.authorization.k8s.io", "RoleBinding", some "V1RoleBinding", .unrecognized, none⟩,
    ⟨"rbac.authorization.k8s.io", "ClusterRole", some "V1ClusterRole", .unrecognized, none⟩,
    ⟨"rbac.authorization.k8s.io", "ClusterRoleBinding", some "V1ClusterRoleBinding",
      .unrecognized, none⟩]

/-- The group and version of an API version: what stands before and after its last slash.
The core group has no name and no slash. -/
def splitVersionText (version : String) : String × String :=
  let reversed := version.toList.reverse
  let last := reversed.takeWhile (· != '/')
  let rest := reversed.drop last.length
  (String.ofList (rest.drop 1).reverse, String.ofList last.reverse)

/-- The group and version of an API version, none of which is the core group. -/
def splitVersion (version : Value) : Except Fault (String × String) :=
  match version.orElse (.text "") with
  | .text version => .ok (splitVersionText version)
  | .bytes _ => .error .wrongType
  | _ => .error .noMember

/-- The workload kinds that moved from the old group to the group of applications. -/
def movedToApps : List String := ["Deployment", "DaemonSet", "ReplicaSet", "StatefulSet"]

/-- The kinds that moved from the old group to the group of networking. -/
def movedToNetworking : List String := ["Ingress", "NetworkPolicy"]

/-- The group that serves a kind today. The old group served kinds that now have other
groups; all other groups stand for themselves. -/
def currentGroup (group kind : String) : String :=
  if group == "extensions" then
    if movedToApps.contains kind then "apps"
    else if movedToNetworking.contains kind then "networking.k8s.io"
    else group
  else group

/-- The group that serves a kind of an API version today. Only text names a moved kind, and
a collection cannot be looked for among them. -/
def normalizeGroup (version kind : Value) : Except Fault String := do
  let (group, _) ← splitVersion version
  match kind with
  | .text kind => return currentGroup group kind
  | kind => if group == "extensions" && !kind.isKey then throw .wrongType else return group

/-- The registry's entry for a kind of a group. -/
def lookupKind (group kind : String) : KindInfo :=
  (registry.find? fun info => info.group == group && info.kind == kind).getD .unsupported

/-- What is known about a kind of an API version. -/
def lookup (version kind : Value) : Except Fault KindInfo :=
  if kind.isTruthy then do
    let group ← normalizeGroup version kind
    match kind with
    | .text kind => return lookupKind group kind
    | kind => if kind.isKey then return .unsupported else throw .wrongType
  else .ok .unsupported

/-- What is known about the kind of an object. -/
def lookupObject (object : Value) : Except Fault KindInfo := do
  let version ← object.get "apiVersion"
  let kind ← object.get "kind"
  lookup version kind

end Reconciler.Schema
