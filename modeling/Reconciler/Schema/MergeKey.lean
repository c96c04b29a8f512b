import Reconciler.Schema.Model
import Reconciler.Value.Basic

/-!
# Lists that are merged by a key

Some lists of the built-in types are sets of elements that one of their fields identifies.
A patch on such a list names the elements it changes; any other list is replaced whole.
-/

namespace Reconciler.Schema

/-- The identifying field of each list that has one, by model and field. -/
def mergeKeys : List ((String × String) × String) := [
    (("V1ObjectMeta", "ownerReferences"), "uid"),
    (("V1PodSpec", "containers"), "name"),
    (("V1PodSpec", "initContainers"), "name"),
    (("V1PodSpec", "ephemeralContainers"), "name"),
    (("V1PodSpec", "volumes"), "name"),
    (("V1PodSpec", "imagePullSecrets"), "name"),
    (("V1PodSpec", "hostAliases"), "ip"),
    (("V1PodSpec", "topologySpreadConstraints"), "topologyKey"),
    (("V1PodSpec", "resourceClaims"), "name"),
    (("V1PodSpec", "schedulingGates"), "name"),
    (("V1Container", "ports"), "containerPort"),
    (("V1Container", "env"), "name"),
    (("V1Container", "volumeMounts"), "mountPath"),
    (("V1Container", "volumeDevices"), "devicePath"),
    (("V1EphemeralContainer", "ports"), "containerPort"),
    (("V1EphemeralContainer", "env"), "name"),
    (("V1EphemeralContainer", "volumeMounts"), "mountPath"),
    (("V1EphemeralContainer", "volumeDevices"), "devicePath"),
    (("V1ServiceSpec", "ports"), "port"),
    (("V1ServiceAccount", "secrets"), "name"),
    (("V1PodStatus", "conditions"), "type"),
    (("V1DeploymentStatus", "conditions"), "type"),
    (("V1StatefulSetStatus", "conditions"), "type"),
    (("V1DaemonSetStatus", "conditions"), "type"),
    (("V1ReplicaSetStatus", "conditions"), "type"),
    (("V1JobStatus", "conditions"), "type"),
    (("V1PersistentVolumeClaimStatus", "conditions"), "type")]

/-- The field that identifies the elements of a list field, if there is one. -/
def mergeKey? (model : Option String) (field : String) : Option String :=
  model.bind fun name =>
    (mergeKeys.find? fun entry => entry.1.1 == name && entry.1.2 == field).map (·.2)

/-- The type of the field at a key of a mapping; only text can name a field. -/
def typeAt (model : Option String) : Value → Option String
  | .text field => builtin.fieldType model field
  | _ => none

/-- The identifying field of the list at a key of a mapping. -/
def mergeKeyAt (model : Option String) : Value → Option String
  | .text field => mergeKey? model field
  | _ => none

@[simp] theorem typeAt_text (model : Option String) (field : String) :
    typeAt model (.text field) = builtin.fieldType model field := rfl

@[simp] theorem mergeKeyAt_text (model : Option String) (field : String) :
    mergeKeyAt model (.text field) = mergeKey? model field := rfl

@[simp] theorem mergeKeyAt_none (key : Value) : mergeKeyAt none key = none := by
  cases key <;> rfl

end Reconciler.Schema
