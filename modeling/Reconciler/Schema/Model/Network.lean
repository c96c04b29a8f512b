import Reconciler.Schema.Model.Basic

/-!
# Models of networking

The fields that the server declares for services, endpoints, ingresses and network policies,
in the order of their names.
-/

namespace Reconciler.Schema

/-- Services, endpoints, ingresses and network policies. -/
def networkModels : List Model := [
    ⟨"V1Service", [("apiVersion", "str"), ("kind", "str"), ("metadata", "V1ObjectMeta"),
      ("spec", "V1ServiceSpec"), ("status", "V1ServiceStatus")]⟩,
    ⟨"V1ServiceSpec", [("allocateLoadBalancerNodePorts", "bool"), ("clusterIP", "str"),
      ("clusterIPs", "list[str]"), ("externalIPs", "list[str]"), ("externalName", "str"),
      ("externalTrafficPolicy", "str"), ("healthCheckNodePort", "int"),
      ("internalTrafficPolicy", "str"), ("ipFamilies", "list[str]"), ("ipFamilyPolicy", "str"),
      ("loadBalancerClass", "str"), ("loadBalancerIP", "str"),
      ("loadBalancerSourceRanges", "list[str]"), ("ports", "list[V1ServicePort]"),
      ("publishNotReadyAddresses", "bool"), ("selector", "dict[str, str]"),
      ("sessionAffinity", "str"), ("sessionAffinityConfig", "V1SessionAffinityConfig"),
      ("trafficDistribution", "str"), ("type", "str")]⟩,
    ⟨"V1ServicePort", [("appProtocol", "str"), ("name", "str"), ("nodePort", "int"),
      ("port", "int"), ("protocol", "str"), ("targetPort", "object")]⟩,
    ⟨"V1SessionAffinityConfig", [("clientIP", "V1ClientIPConfig")]⟩,
    ⟨"V1ClientIPConfig", [("timeoutSeconds", "int")]⟩,
    ⟨"V1ServiceStatus", [("conditions", "list[V1Condition]"),
      ("loadBalancer", "V1LoadBalancerStatus")]⟩,
    ⟨"V1LoadBalancerStatus", [("ingress", "list[V1LoadBalancerIngress]")]⟩,
    ⟨"V1LoadBalancerIngress", [("hostname", "str"), ("ip", "str"), ("ipMode", "str"),
      ("ports", "list[V1PortStatus]")]⟩,
    ⟨"V1PortStatus", [("error", "str"), ("port", "int"), ("protocol", "str")]⟩,
    ⟨"V1Endpoints", [("apiVersion", "str"), ("kind", "str"), ("metadata", "V1ObjectMeta"),
      ("subsets", "list[V1EndpointSubset]")]⟩,
    ⟨"V1EndpointSubset", [("addresses", "list[V1EndpointAddress]"),
      ("notReadyAddresses", "list[V1EndpointAddress]"), ("ports", "list[CoreV1EndpointPort]")]⟩,
    ⟨"V1EndpointAddress", [("hostname", "str"), ("ip", "str"), ("nodeName", "str"),
      ("targetRef", "V1ObjectReference")]⟩,
    ⟨"CoreV1EndpointPort", [("appProtocol", "str"), ("name", "str"), ("port", "int"),
      ("protocol", "str")]⟩,
    ⟨"V1Ingress", [("apiVersion", "str"), ("kind", "str"), ("metadata", "V1ObjectMeta"),
      ("spec", "V1IngressSpec"), ("status", "V1IngressStatus")]⟩,
    ⟨"V1IngressSpec", [("defaultBackend", "V1IngressBackend"), ("ingressClassName", "str"),
      ("rules", "list[V1IngressRule]"), ("tls", "list[V1IngressTLS]")]⟩,
    ⟨"V1IngressBackend", [("resource", "V1TypedLocalObjectReference"),
      ("service", "V1IngressServiceBackend")]⟩,
    ⟨"V1IngressServiceBackend", [("name", "str"), ("port", "V1ServiceBackendPort")]⟩,
    ⟨"V1ServiceBackendPort", [("name", "str"), ("number", "int")]⟩,
    ⟨"V1IngressRule", [("host", "str"), ("http", "V1HTTPIngressRuleValue")]⟩,
    ⟨"V1HTTPIngressRuleValue", [("paths", "list[V1HTTPIngressPath]")]⟩,
    ⟨"V1HTTPIngressPath", [("backend", "V1IngressBackend"), ("path", "str"),
      ("pathType", "str")]⟩,
    ⟨"V1IngressTLS", [("hosts", "list[str]"), ("secretName", "str")]⟩,
    ⟨"V1IngressStatus", [("loadBalancer", "V1IngressLoadBalancerStatus")]⟩,
    ⟨"V1IngressLoadBalancerStatus", [("ingress", "list[V1IngressLoadBalancerIngress]")]⟩,
    ⟨"V1IngressLoadBalancerIngress", [("hostname", "str"), ("ip", "str"),
      ("ports", "list[V1IngressPortStatus]")]⟩,
    ⟨"V1IngressPortStatus", [("error", "str"), ("port", "int"), ("protocol", "str")]⟩,
    ⟨"V1NetworkPolicy", [("apiVersion", "str"), ("kind", "str"), ("metadata", "V1ObjectMeta"),
      ("spec", "V1NetworkPolicySpec")]⟩,
    ⟨"V1NetworkPolicySpec", [("egress", "list[V1NetworkPolicyEgressRule]"),
      ("ingress", "list[V1NetworkPolicyIngressRule]"), ("podSelector", "V1LabelSelector"),
      ("policyTypes", "list[str]")]⟩,
    ⟨"V1NetworkPolicyEgressRule", [("ports", "list[V1NetworkPolicyPort]"),
      ("to", "list[V1NetworkPolicyPeer]")]⟩,
    ⟨"V1NetworkPolicyIngressRule", [("from", "list[V1NetworkPolicyPeer]"),
      ("ports", "list[V1NetworkPolicyPort]")]⟩,
    ⟨"V1NetworkPolicyPort", [("endPort", "int"), ("port", "object"), ("protocol", "str")]⟩,
    ⟨"V1NetworkPolicyPeer", [("ipBlock", "V1IPBlock"), ("namespaceSelector", "V1LabelSelector"),
      ("podSelector", "V1LabelSelector")]⟩,
    ⟨"V1IPBlock", [("cidr", "str"), ("except", "list[str]")]⟩]

end Reconciler.Schema
