import Reconciler.Schema.Model.Basic

/-!
# Models of pods

The fields that the server declares for pods: scheduling, networking, security and status,
in the order of their names.
-/

namespace Reconciler.Schema

/-- Pods: scheduling, networking, security and status. -/
def podModels : List Model := [
    ⟨"V1Pod", [("apiVersion", "str"), ("kind", "str"), ("metadata", "V1ObjectMeta"),
      ("spec", "V1PodSpec"), ("status", "V1PodStatus")]⟩,
    ⟨"V1PodTemplateSpec", [("metadata", "V1ObjectMeta"), ("spec", "V1PodSpec")]⟩,
    ⟨"V1PodSpec", [("activeDeadlineSeconds", "int"), ("affinity", "V1Affinity"),
      ("automountServiceAccountToken", "bool"), ("containers", "list[V1Container]"),
      ("dnsConfig", "V1PodDNSConfig"), ("dnsPolicy", "str"), ("enableServiceLinks", "bool"),
      ("ephemeralContainers", "list[V1EphemeralContainer]"), ("hostAliases", "list[V1HostAlias]"),
      ("hostIPC", "bool"), ("hostNetwork", "bool"), ("hostPID", "bool"), ("hostUsers", "bool"),
      ("hostname", "str"), ("hostnameOverride", "str"),
      ("imagePullSecrets", "list[V1LocalObjectReference]"),
      ("initContainers", "list[V1Container]"), ("nodeName", "str"),
      ("nodeSelector", "dict[str, str]"), ("os", "V1PodOS"), ("overhead", "dict[str, str]"),
      ("preemptionPolicy", "str"), ("priority", "int"), ("priorityClassName", "str"),
      ("readinessGates", "list[V1PodReadinessGate]"),
      ("resourceClaims", "list[V1PodResourceClaim]"), ("resources", "V1ResourceRequirements"),
      ("restartPolicy", "str"), ("runtimeClassName", "str"), ("schedulerName", "str"),
      ("schedulingGates", "list[V1PodSchedulingGate]"),
      ("schedulingGroup", "V1PodSchedulingGroup"), ("securityContext", "V1PodSecurityContext"),
      ("serviceAccount", "str"), ("serviceAccountName", "str"), ("setHostnameAsFQDN", "bool"),
      ("shareProcessNamespace", "bool"), ("subdomain", "str"),
      ("terminationGracePeriodSeconds", "int"), ("tolerations", "list[V1Toleration]"),
      ("topologySpreadConstraints", "list[V1TopologySpreadConstraint]"),
      ("volumes", "list[V1Volume]")]⟩,
    ⟨"V1PodSchedulingGroup", [("podGroupName", "str")]⟩,
    ⟨"V1Affinity", [("nodeAffinity", "V1NodeAffinity"), ("podAffinity", "V1PodAffinity"),
      ("podAntiAffinity", "V1PodAntiAffinity")]⟩,
    ⟨"V1NodeAffinity", [
      ("preferredDuringSchedulingIgnoredDuringExecution", "list[V1PreferredSchedulingTerm]"),
      ("requiredDuringSchedulingIgnoredDuringExecution", "V1NodeSelector")]⟩,
    ⟨"V1PreferredSchedulingTerm", [("preference", "V1NodeSelectorTerm"), ("weight", "int")]⟩,
    ⟨"V1NodeSelector", [("nodeSelectorTerms", "list[V1NodeSelectorTerm]")]⟩,
    ⟨"V1NodeSelectorTerm", [("matchExpressions", "list[V1NodeSelectorRequirement]"),
      ("matchFields", "list[V1NodeSelectorRequirement]")]⟩,
    ⟨"V1NodeSelectorRequirement", [("key", "str"), ("operator", "str"), ("values", "list[str]")]⟩,
    ⟨"V1PodAffinity", [
      ("preferredDuringSchedulingIgnoredDuringExecution", "list[V1WeightedPodAffinityTerm]"),
      ("requiredDuringSchedulingIgnoredDuringExecution", "list[V1PodAffinityTerm]")]⟩,
    ⟨"V1PodAntiAffinity", [
      ("preferredDuringSchedulingIgnoredDuringExecution", "list[V1WeightedPodAffinityTerm]"),
      ("requiredDuringSchedulingIgnoredDuringExecution", "list[V1PodAffinityTerm]")]⟩,
    ⟨"V1WeightedPodAffinityTerm", [("podAffinityTerm", "V1PodAffinityTerm"), ("weight", "int")]⟩,
    ⟨"V1PodAffinityTerm", [("labelSelector", "V1LabelSelector"), ("matchLabelKeys", "list[str]"),
      ("mismatchLabelKeys", "list[str]"), ("namespaceSelector", "V1LabelSelector"),
      ("namespaces", "list[str]"), ("topologyKey", "str")]⟩,
    ⟨"V1PodDNSConfig", [("nameservers", "list[str]"), ("options", "list[V1PodDNSConfigOption]"),
      ("searches", "list[str]")]⟩,
    ⟨"V1PodDNSConfigOption", [("name", "str"), ("value", "str")]⟩,
    ⟨"V1HostAlias", [("hostnames", "list[str]"), ("ip", "str")]⟩,
    ⟨"V1PodOS", [("name", "str")]⟩,
    ⟨"V1PodReadinessGate", [("conditionType", "str")]⟩,
    ⟨"V1PodResourceClaim", [("name", "str"), ("resourceClaimName", "str"),
      ("resourceClaimTemplateName", "str")]⟩,
    ⟨"V1PodSchedulingGate", [("name", "str")]⟩,
    ⟨"V1PodSecurityContext", [("appArmorProfile", "V1AppArmorProfile"), ("fsGroup", "int"),
      ("fsGroupChangePolicy", "str"), ("runAsGroup", "int"), ("runAsNonRoot", "bool"),
      ("runAsUser", "int"), ("seLinuxChangePolicy", "str"),
      ("seLinuxOptions", "V1SELinuxOptions"), ("seccompProfile", "V1SeccompProfile"),
      ("supplementalGroups", "list[int]"), ("supplementalGroupsPolicy", "str"),
      ("sysctls", "list[V1Sysctl]"), ("windowsOptions", "V1WindowsSecurityContextOptions")]⟩,
    ⟨"V1Sysctl", [("name", "str"), ("value", "str")]⟩,
    ⟨"V1Toleration", [("effect", "str"), ("key", "str"), ("operator", "str"),
      ("tolerationSeconds", "int"), ("value", "str")]⟩,
    ⟨"V1TopologySpreadConstraint", [("labelSelector", "V1LabelSelector"),
      ("matchLabelKeys", "list[str]"), ("maxSkew", "int"), ("minDomains", "int"),
      ("nodeAffinityPolicy", "str"), ("nodeTaintsPolicy", "str"), ("topologyKey", "str"),
      ("whenUnsatisfiable", "str")]⟩,
    ⟨"V1PodStatus", [("allocatedResources", "dict[str, str]"),
      ("conditions", "list[V1PodCondition]"), ("containerStatuses", "list[V1ContainerStatus]"),
      ("ephemeralContainerStatuses", "list[V1ContainerStatus]"),
      ("extendedResourceClaimStatus", "V1PodExtendedResourceClaimStatus"), ("hostIP", "str"),
      ("hostIPs", "list[V1HostIP]"), ("initContainerStatuses", "list[V1ContainerStatus]"),
      ("message", "str"), ("nominatedNodeName", "str"), ("observedGeneration", "int"),
      ("phase", "str"), ("podIP", "str"), ("podIPs", "list[V1PodIP]"), ("qosClass", "str"),
      ("reason", "str"), ("resize", "str"),
      ("resourceClaimStatuses", "list[V1PodResourceClaimStatus]"),
      ("resources", "V1ResourceRequirements"), ("startTime", "datetime")]⟩,
    ⟨"V1PodCondition", [("lastProbeTime", "datetime"), ("lastTransitionTime", "datetime"),
      ("message", "str"), ("observedGeneration", "int"), ("reason", "str"), ("status", "str"),
      ("type", "str")]⟩,
    ⟨"V1PodExtendedResourceClaimStatus", [
      ("requestMappings", "list[V1ContainerExtendedResourceRequest]"),
      ("resourceClaimName", "str")]⟩,
    ⟨"V1ContainerExtendedResourceRequest", [("containerName", "str"), ("requestName", "str"),
      ("resourceName", "str")]⟩,
    ⟨"V1HostIP", [("ip", "str")]⟩,
    ⟨"V1PodIP", [("ip", "str")]⟩,
    ⟨"V1PodResourceClaimStatus", [("name", "str"), ("resourceClaimName", "str")]⟩]

end Reconciler.Schema
