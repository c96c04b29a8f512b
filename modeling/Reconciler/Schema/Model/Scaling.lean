import Reconciler.Schema.Model.Basic

/-!
# Models of scaling

The fields that the server declares for disruption budgets and horizontal scaling,
in the order of their names.
-/

namespace Reconciler.Schema

/-- Disruption budgets and horizontal scaling. -/
def scalingModels : List Model := [
    ⟨"V1PodDisruptionBudget", [("apiVersion", "str"), ("kind", "str"),
      ("metadata", "V1ObjectMeta"), ("spec", "V1PodDisruptionBudgetSpec"),
      ("status", "V1PodDisruptionBudgetStatus")]⟩,
    ⟨"V1PodDisruptionBudgetSpec", [("maxUnavailable", "object"), ("minAvailable", "object"),
      ("selector", "V1LabelSelector"), ("unhealthyPodEvictionPolicy", "str")]⟩,
    ⟨"V1PodDisruptionBudgetStatus", [("conditions", "list[V1Condition]"),
      ("currentHealthy", "int"), ("desiredHealthy", "int"),
      ("disruptedPods", "dict[str, datetime]"), ("disruptionsAllowed", "int"),
      ("expectedPods", "int"), ("observedGeneration", "int")]⟩,
    ⟨"V2HorizontalPodAutoscaler", [("apiVersion", "str"), ("kind", "str"),
      ("metadata", "V1ObjectMeta"), ("spec", "V2HorizontalPodAutoscalerSpec"),
      ("status", "V2HorizontalPodAutoscalerStatus")]⟩,
    ⟨"V2HorizontalPodAutoscalerSpec", [("behavior", "V2HorizontalPodAutoscalerBehavior"),
      ("maxReplicas", "int"), ("metrics", "list[V2MetricSpec]"), ("minReplicas", "int"),
      ("scaleTargetRef", "V2CrossVersionObjectReference")]⟩,
    ⟨"V2HorizontalPodAutoscalerBehavior", [("scaleDown", "V2HPAScalingRules"),
      ("scaleUp", "V2HPAScalingRules")]⟩,
    ⟨"V2HPAScalingRules", [("policies", "list[V2HPAScalingPolicy]"), ("selectPolicy", "str"),
      ("stabilizationWindowSeconds", "int"), ("tolerance", "str")]⟩,
    ⟨"V2HPAScalingPolicy", [("periodSeconds", "int"), ("type", "str"), ("value", "int")]⟩,
    ⟨"V2CrossVersionObjectReference", [("apiVersion", "str"), ("kind", "str"), ("name", "str")]⟩,
    ⟨"V2MetricSpec", [("containerResource", "V2ContainerResourceMetricSource"),
      ("external", "V2ExternalMetricSource"), ("object", "V2ObjectMetricSource"),
      ("pods", "V2PodsMetricSource"), ("resource", "V2ResourceMetricSource"), ("type", "str")]⟩,
    ⟨"V2ContainerResourceMetricSource", [("container", "str"), ("name", "str"),
      ("target", "V2MetricTarget")]⟩,
    ⟨"V2ExternalMetricSource", [("metric", "V2MetricIdentifier"), ("target", "V2MetricTarget")]⟩,
    ⟨"V2ObjectMetricSource", [("describedObject", "V2CrossVersionObjectReference"),
      ("metric", "V2MetricIdentifier"), ("target", "V2MetricTarget")]⟩,
    ⟨"V2PodsMetricSource", [("metric", "V2MetricIdentifier"), ("target", "V2MetricTarget")]⟩,
    ⟨"V2ResourceMetricSource", [("name", "str"), ("target", "V2MetricTarget")]⟩,
    ⟨"V2MetricTarget", [("averageUtilization", "int"), ("averageValue", "str"), ("type", "str"),
      ("value", "str")]⟩,
    ⟨"V2MetricIdentifier", [("name", "str"), ("selector", "V1LabelSelector")]⟩,
    ⟨"V2HorizontalPodAutoscalerStatus", [("conditions", "list[V2HorizontalPodAutoscalerCondition]"),
      ("currentMetrics", "list[V2MetricStatus]"), ("currentReplicas", "int"),
      ("desiredReplicas", "int"), ("lastScaleTime", "datetime"), ("observedGeneration", "int")]⟩,
    ⟨"V2HorizontalPodAutoscalerCondition", [("lastTransitionTime", "datetime"),
      ("message", "str"), ("reason", "str"), ("status", "str"), ("type", "str")]⟩,
    ⟨"V2MetricStatus", [("containerResource", "V2ContainerResourceMetricStatus"),
      ("external", "V2ExternalMetricStatus"), ("object", "V2ObjectMetricStatus"),
      ("pods", "V2PodsMetricStatus"), ("resource", "V2ResourceMetricStatus"), ("type", "str")]⟩,
    ⟨"V2ContainerResourceMetricStatus", [("container", "str"), ("current", "V2MetricValueStatus"),
      ("name", "str")]⟩,
    ⟨"V2ExternalMetricStatus", [("current", "V2MetricValueStatus"),
      ("metric", "V2MetricIdentifier")]⟩,
    ⟨"V2ObjectMetricStatus", [("current", "V2MetricValueStatus"),
      ("describedObject", "V2CrossVersionObjectReference"), ("metric", "V2MetricIdentifier")]⟩,
    ⟨"V2PodsMetricStatus", [("current", "V2MetricValueStatus"),
      ("metric", "V2MetricIdentifier")]⟩,
    ⟨"V2ResourceMetricStatus", [("current", "V2MetricValueStatus"), ("name", "str")]⟩,
    ⟨"V2MetricValueStatus", [("averageUtilization", "int"), ("averageValue", "str"),
      ("value", "str")]⟩]

end Reconciler.Schema
