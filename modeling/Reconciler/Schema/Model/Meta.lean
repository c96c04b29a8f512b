import Reconciler.Schema.Model.Basic

/-!
# Models of object metadata

The fields that the server declares for object metadata, references, label selectors and
conditions, in the order of their names.
-/

namespace Reconciler.Schema

/-- Object metadata, references, label selectors and conditions. -/
def metaModels : List Model := [
    ⟨"V1ObjectMeta", [("annotations", "dict[str, str]"), ("creationTimestamp", "datetime"),
      ("deletionGracePeriodSeconds", "int"), ("deletionTimestamp", "datetime"),
      ("finalizers", "list[str]"), ("generateName", "str"), ("generation", "int"),
      ("labels", "dict[str, str]"), ("managedFields", "list[V1ManagedFieldsEntry]"),
      ("name", "str"), ("namespace", "str"), ("ownerReferences", "list[V1OwnerReference]"),
      ("resourceVersion", "str"), ("selfLink", "str"), ("uid", "str")]⟩,
    ⟨"V1ManagedFieldsEntry", [("apiVersion", "str"), ("fieldsType", "str"),
      ("fieldsV1", "object"), ("manager", "str"), ("operation", "str"), ("subresource", "str"),
      ("time", "datetime")]⟩,
    ⟨"V1OwnerReference", [("apiVersion", "str"), ("blockOwnerDeletion", "bool"),
      ("controller", "bool"), ("kind", "str"), ("name", "str"), ("uid", "str")]⟩,
    ⟨"V1LabelSelector", [("matchExpressions", "list[V1LabelSelectorRequirement]"),
      ("matchLabels", "dict[str, str]")]⟩,
    ⟨"V1LabelSelectorRequirement", [("key", "str"), ("operator", "str"),
      ("values", "list[str]")]⟩,
    ⟨"V1Condition", [("lastTransitionTime", "datetime"), ("message", "str"),
      ("observedGeneration", "int"), ("reason", "str"), ("status", "str"), ("type", "str")]⟩,
    ⟨"V1ObjectReference", [("apiVersion", "str"), ("fieldPath", "str"), ("kind", "str"),
      ("name", "str"), ("namespace", "str"), ("resourceVersion", "str"), ("uid", "str")]⟩,
    ⟨"V1LocalObjectReference", [("name", "str")]⟩,
    ⟨"V1TypedLocalObjectReference", [("apiGroup", "str"), ("kind", "str"), ("name", "str")]⟩,
    ⟨"V1TypedObjectReference", [("apiGroup", "str"), ("kind", "str"), ("name", "str"),
      ("namespace", "str")]⟩,
    ⟨"V1SecretReference", [("name", "str"), ("namespace", "str")]⟩]

end Reconciler.Schema
