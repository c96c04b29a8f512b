import Reconciler.Schema.Model.Basic

/-!
# Models of configuration and access

The fields that the server declares for configuration, secrets, identities, namespaces and quotas,
in the order of their names.
-/

namespace Reconciler.Schema

/-- Configuration, secrets, identities, namespaces and quotas. -/
def configModels : List Model := [
    ⟨"V1ConfigMap", [("apiVersion", "str"), ("binaryData", "dict[str, str]"),
      ("data", "dict[str, str]"), ("immutable", "bool"), ("kind", "str"),
      ("metadata", "V1ObjectMeta")]⟩,
    ⟨"V1Secret", [("apiVersion", "str"), ("data", "dict[str, str]"), ("immutable", "bool"),
      ("kind", "str"), ("metadata", "V1ObjectMeta"), ("stringData", "dict[str, str]"),
      ("type", "str")]⟩,
    ⟨"V1ServiceAccount", [("apiVersion", "str"), ("automountServiceAccountToken", "bool"),
      ("imagePullSecrets", "list[V1LocalObjectReference]"), ("kind", "str"),
      ("metadata", "V1ObjectMeta"), ("secrets", "list[V1ObjectReference]")]⟩,
    ⟨"V1Namespace", [("apiVersion", "str"), ("kind", "str"), ("metadata", "V1ObjectMeta"),
      ("spec", "V1NamespaceSpec"), ("status", "V1NamespaceStatus")]⟩,
    ⟨"V1NamespaceSpec", [("finalizers", "list[str]")]⟩,
    ⟨"V1NamespaceStatus", [("conditions", "list[V1NamespaceCondition]"), ("phase", "str")]⟩,
    ⟨"V1NamespaceCondition", [("lastTransitionTime", "datetime"), ("message", "str"),
      ("reason", "str"), ("status", "str"), ("type", "str")]⟩,
    ⟨"V1LimitRange", [("apiVersion", "str"), ("kind", "str"), ("metadata", "V1ObjectMeta"),
      ("spec", "V1LimitRangeSpec")]⟩,
    ⟨"V1LimitRangeSpec", [("limits", "list[V1LimitRangeItem]")]⟩,
    ⟨"V1LimitRangeItem", [("default", "dict[str, str]"), ("defaultRequest", "dict[str, str]"),
      ("max", "dict[str, str]"), ("maxLimitRequestRatio", "dict[str, str]"),
      ("min", "dict[str, str]"), ("type", "str")]⟩,
    ⟨"V1ResourceQuota", [("apiVersion", "str"), ("kind", "str"), ("metadata", "V1ObjectMeta"),
      ("spec", "V1ResourceQuotaSpec"), ("status", "V1ResourceQuotaStatus")]⟩,
    ⟨"V1ResourceQuotaSpec", [("hard", "dict[str, str]"), ("scopeSelector", "V1ScopeSelector"),
      ("scopes", "list[str]")]⟩,
    ⟨"V1ScopeSelector", [("matchExpressions", "list[V1ScopedResourceSelectorRequirement]")]⟩,
    ⟨"V1ScopedResourceSelectorRequirement", [("operator", "str"), ("scopeName", "str"),
      ("values", "list[str]")]⟩,
    ⟨"V1ResourceQuotaStatus", [("hard", "dict[str, str]"), ("used", "dict[str, str]")]⟩,
    ⟨"V1Role", [("apiVersion", "str"), ("kind", "str"), ("metadata", "V1ObjectMeta"),
      ("rules", "list[V1PolicyRule]")]⟩,
    ⟨"V1ClusterRole", [("aggregationRule", "V1AggregationRule"), ("apiVersion", "str"),
      ("kind", "str"), ("metadata", "V1ObjectMeta"), ("rules", "list[V1PolicyRule]")]⟩,
    ⟨"V1AggregationRule", [("clusterRoleSelectors", "list[V1LabelSelector]")]⟩,
    ⟨"V1PolicyRule", [("apiGroups", "list[str]"), ("nonResourceURLs", "list[str]"),
      ("resourceNames", "list[str]"), ("resources", "list[str]"), ("verbs", "list[str]")]⟩,
    ⟨"V1RoleBinding", [("apiVersion", "str"), ("kind", "str"), ("metadata", "V1ObjectMeta"),
      ("roleRef", "V1RoleRef"), ("subjects", "list[RbacV1Subject]")]⟩,
    ⟨"V1ClusterRoleBinding", [("apiVersion", "str"), ("kind", "str"),
      ("metadata", "V1ObjectMeta"), ("roleRef", "V1RoleRef"),
      ("subjects", "list[RbacV1Subject]")]⟩,
    ⟨"V1RoleRef", [("apiGroup", "str"), ("kind", "str"), ("name", "str")]⟩,
    ⟨"RbacV1Subject", [("apiGroup", "str"), ("kind", "str"), ("name", "str"),
      ("namespace", "str")]⟩]

end Reconciler.Schema
