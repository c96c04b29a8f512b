import Reconciler.Schema.Model.Basic

/-!
# Models of workloads

The fields that the server declares for controllers that keep pods running and jobs that run
to completion, in the order of their names.
-/

namespace Reconciler.Schema

/-- Controllers that keep pods running and jobs that run to completion. -/
def workloadModels : List Model := [
    ⟨"V1ReplicationController", [("apiVersion", "str"), ("kind", "str"),
      ("metadata", "V1ObjectMeta"), ("spec", "V1ReplicationControllerSpec"),
      ("status", "V1ReplicationControllerStatus")]⟩,
    ⟨"V1ReplicationControllerSpec", [("minReadySeconds", "int"), ("replicas", "int"),
      ("selector", "dict[str, str]"), ("template", "V1PodTemplateSpec")]⟩,
    ⟨"V1ReplicationControllerStatus", [("availableReplicas", "int"),
      ("conditions", "list[V1ReplicationControllerCondition]"), ("fullyLabeledReplicas", "int"),
      ("observedGeneration", "int"), ("readyReplicas", "int"), ("replicas", "int")]⟩,
    ⟨"V1ReplicationControllerCondition", [("lastTransitionTime", "datetime"), ("message", "str"),
      ("reason", "str"), ("status", "str"), ("type", "str")]⟩,
    ⟨"V1Deployment", [("apiVersion", "str"), ("kind", "str"), ("metadata", "V1ObjectMeta"),
      ("spec", "V1DeploymentSpec"), ("status", "V1DeploymentStatus")]⟩,
    ⟨"V1DeploymentSpec", [("minReadySeconds", "int"), ("paused", "bool"),
      ("progressDeadlineSeconds", "int"), ("replicas", "int"), ("revisionHistoryLimit", "int"),
      ("selector", "V1LabelSelector"), ("strategy", "V1DeploymentStrategy"),
      ("template", "V1PodTemplateSpec")]⟩,
    ⟨"V1DeploymentStrategy", [("rollingUpdate", "V1RollingUpdateDeployment"), ("type", "str")]⟩,
    ⟨"V1RollingUpdateDeployment", [("maxSurge", "object"), ("maxUnavailable", "object")]⟩,
    ⟨"V1DeploymentStatus", [("availableReplicas", "int"), ("collisionCount", "int"),
      ("conditions", "list[V1DeploymentCondition]"), ("observedGeneration", "int"),
      ("readyReplicas", "int"), ("replicas", "int"), ("terminatingReplicas", "int"),
      ("unavailableReplicas", "int"), ("updatedReplicas", "int")]⟩,
    ⟨"V1DeploymentCondition", [("lastTransitionTime", "datetime"), ("lastUpdateTime", "datetime"),
      ("message", "str"), ("reason", "str"), ("status", "str"), ("type", "str")]⟩,
    ⟨"V1DaemonSet", [("apiVersion", "str"), ("kind", "str"), ("metadata", "V1ObjectMeta"),
      ("spec", "V1DaemonSetSpec"), ("status", "V1DaemonSetStatus")]⟩,
    ⟨"V1DaemonSetSpec", [("minReadySeconds", "int"), ("revisionHistoryLimit", "int"),
      ("selector", "V1LabelSelector"), ("template", "V1PodTemplateSpec"),
      ("updateStrategy", "V1DaemonSetUpdateStrategy")]⟩,
    ⟨"V1DaemonSetUpdateStrategy", [("rollingUpdate", "V1RollingUpdateDaemonSet"),
      ("type", "str")]⟩,
    ⟨"V1RollingUpdateDaemonSet", [("maxSurge", "object"), ("maxUnavailable", "object")]⟩,
    ⟨"V1DaemonSetStatus", [("collisionCount", "int"),
      ("conditions", "list[V1DaemonSetCondition]"), ("currentNumberScheduled", "int"),
      ("desiredNumberScheduled", "int"), ("numberAvailable", "int"),
      ("numberMisscheduled", "int"), ("numberReady", "int"), ("numberUnavailable", "int"),
      ("observedGeneration", "int"), ("updatedNumberScheduled", "int")]⟩,
    ⟨"V1DaemonSetCondition", [("lastTransitionTime", "datetime"), ("message", "str"),
      ("reason", "str"), ("status", "str"), ("type", "str")]⟩,
    ⟨"V1StatefulSet", [("apiVersion", "str"), ("kind", "str"), ("metadata", "V1ObjectMeta"),
      ("spec", "V1StatefulSetSpec"), ("status", "V1StatefulSetStatus")]⟩,
    ⟨"V1StatefulSetSpec", [("minReadySeconds", "int"), ("ordinals", "V1StatefulSetOrdinals"),
      ("persistentVolumeClaimRetentionPolicy", "V1StatefulSetPersistentVolumeClaimRetentionPolicy"),
      ("podManagementPolicy", "str"), ("replicas", "int"), ("revisionHistoryLimit", "int"),
      ("selector", "V1LabelSelector"), ("serviceName", "str"), ("template", "V1PodTemplateSpec"),
      ("updateStrategy", "V1StatefulSetUpdateStrategy"),
      ("volumeClaimTemplates", "list[V1PersistentVolumeClaim]")]⟩,
    ⟨"V1StatefulSetOrdinals", [("start", "int")]⟩,
    ⟨"V1StatefulSetPersistentVolumeClaimRetentionPolicy", [("whenDeleted", "str"),
      ("whenScaled", "str")]⟩,
    ⟨"V1StatefulSetUpdateStrategy", [("rollingUpdate", "V1RollingUpdateStatefulSetStrategy"),
      ("type", "str")]⟩,
    ⟨"V1RollingUpdateStatefulSetStrategy", [("maxUnavailable", "object"), ("partition", "int")]⟩,
    ⟨"V1StatefulSetStatus", [("availableReplicas", "int"), ("collisionCount", "int"),
      ("conditions", "list[V1StatefulSetCondition]"), ("currentReplicas", "int"),
      ("currentRevision", "str"), ("observedGeneration", "int"), ("readyReplicas", "int"),
      ("replicas", "int"), ("updateRevision", "str"), ("updatedReplicas", "int")]⟩,
    ⟨"V1StatefulSetCondition", [("lastTransitionTime", "datetime"), ("message", "str"),
      ("reason", "str"), ("status", "str"), ("type", "str")]⟩,
    ⟨"V1ReplicaSet", [("apiVersion", "str"), ("kind", "str"), ("metadata", "V1ObjectMeta"),
      ("spec", "V1ReplicaSetSpec"), ("status", "V1ReplicaSetStatus")]⟩,
    ⟨"V1ReplicaSetSpec", [("minReadySeconds", "int"), ("replicas", "int"),
      ("selector", "V1LabelSelector"), ("template", "V1PodTemplateSpec")]⟩,
    ⟨"V1ReplicaSetStatus", [("availableReplicas", "int"),
      ("conditions", "list[V1ReplicaSetCondition]"), ("fullyLabeledReplicas", "int"),
      ("observedGeneration", "int"), ("readyReplicas", "int"), ("replicas", "int"),
      ("terminatingReplicas", "int")]⟩,
    ⟨"V1ReplicaSetCondition", [("lastTransitionTime", "datetime"), ("message", "str"),
      ("reason", "str"), ("status", "str"), ("type", "str")]⟩,
    ⟨"V1Job", [("apiVersion", "str"), ("kind", "str"), ("metadata", "V1ObjectMeta"),
      ("spec", "V1JobSpec"), ("status", "V1JobStatus")]⟩,
    ⟨"V1JobSpec", [("activeDeadlineSeconds", "int"), ("backoffLimit", "int"),
      ("backoffLimitPerIndex", "int"), ("completionMode", "str"), ("completions", "int"),
      ("managedBy", "str"), ("manualSelector", "bool"), ("maxFailedIndexes", "int"),
      ("parallelism", "int"), ("podFailurePolicy", "V1PodFailurePolicy"),
      ("podReplacementPolicy", "str"), ("selector", "V1LabelSelector"),
      ("successPolicy", "V1SuccessPolicy"), ("suspend", "bool"),
      ("template", "V1PodTemplateSpec"), ("ttlSecondsAfterFinished", "int")]⟩,
    ⟨"V1PodFailurePolicy", [("rules", "list[V1PodFailurePolicyRule]")]⟩,
    ⟨"V1PodFailurePolicyRule", [("action", "str"),
      ("onExitCodes", "V1PodFailurePolicyOnExitCodesRequirement"),
      ("onPodConditions", "list[V1PodFailurePolicyOnPodConditionsPattern]")]⟩,
    ⟨"V1PodFailurePolicyOnExitCodesRequirement", [("containerName", "str"), ("operator", "str"),
      ("values", "list[int]")]⟩,
    ⟨"V1PodFailurePolicyOnPodConditionsPattern", [("status", "str"), ("type", "str")]⟩,
    ⟨"V1SuccessPolicy", [("rules", "list[V1SuccessPolicyRule]")]⟩,
    ⟨"V1SuccessPolicyRule", [("succeededCount", "int"), ("succeededIndexes", "str")]⟩,
    ⟨"V1JobStatus", [("active", "int"), ("completedIndexes", "str"),
      ("completionTime", "datetime"), ("conditions", "list[V1JobCondition]"), ("failed", "int"),
      ("failedIndexes", "str"), ("ready", "int"), ("startTime", "datetime"), ("succeeded", "int"),
      ("terminating", "int"), ("uncountedTerminatedPods", "V1UncountedTerminatedPods")]⟩,
    ⟨"V1JobCondition", [("lastProbeTime", "datetime"), ("lastTransitionTime", "datetime"),
      ("message", "str"), ("reason", "str"), ("status", "str"), ("type", "str")]⟩,
    ⟨"V1UncountedTerminatedPods", [("failed", "list[str]"), ("succeeded", "list[str]")]⟩,
    ⟨"V1CronJob", [("apiVersion", "str"), ("kind", "str"), ("metadata", "V1ObjectMeta"),
      ("spec", "V1CronJobSpec"), ("status", "V1CronJobStatus")]⟩,
    ⟨"V1CronJobSpec", [("concurrencyPolicy", "str"), ("failedJobsHistoryLimit", "int"),
      ("jobTemplate", "V1JobTemplateSpec"), ("schedule", "str"),
      ("startingDeadlineSeconds", "int"), ("successfulJobsHistoryLimit", "int"),
      ("suspend", "bool"), ("timeZone", "str")]⟩,
    ⟨"V1JobTemplateSpec", [("metadata", "V1ObjectMeta"), ("spec", "V1JobSpec")]⟩,
    ⟨"V1CronJobStatus", [("active", "list[V1ObjectReference]"), ("lastScheduleTime", "datetime"),
      ("lastSuccessfulTime", "datetime")]⟩]

end Reconciler.Schema
