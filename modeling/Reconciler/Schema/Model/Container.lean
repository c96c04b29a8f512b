import Reconciler.Schema.Model.Basic

/-!
# Models of containers

The fields that the server declares for containers: their environment, probes, resources and
security, in the order of their names.
-/

namespace Reconciler.Schema

/-- Containers: their environment, probes, resources and security. -/
def containerModels : List Model := [
    ⟨"V1Container", [("args", "list[str]"), ("command", "list[str]"), ("env", "list[V1EnvVar]"),
      ("envFrom", "list[V1EnvFromSource]"), ("image", "str"), ("imagePullPolicy", "str"),
      ("lifecycle", "V1Lifecycle"), ("livenessProbe", "V1Probe"), ("name", "str"),
      ("ports", "list[V1ContainerPort]"), ("readinessProbe", "V1Probe"),
      ("resizePolicy", "list[V1ContainerResizePolicy]"), ("resources", "V1ResourceRequirements"),
      ("restartPolicy", "str"), ("restartPolicyRules", "list[V1ContainerRestartRule]"),
      ("securityContext", "V1SecurityContext"), ("startupProbe", "V1Probe"), ("stdin", "bool"),
      ("stdinOnce", "bool"), ("terminationMessagePath", "str"),
      ("terminationMessagePolicy", "str"), ("tty", "bool"),
      ("volumeDevices", "list[V1VolumeDevice]"), ("volumeMounts", "list[V1VolumeMount]"),
      ("workingDir", "str")]⟩,
    ⟨"V1EphemeralContainer", [("args", "list[str]"), ("command", "list[str]"),
      ("env", "list[V1EnvVar]"), ("envFrom", "list[V1EnvFromSource]"), ("image", "str"),
      ("imagePullPolicy", "str"), ("lifecycle", "V1Lifecycle"), ("livenessProbe", "V1Probe"),
      ("name", "str"), ("ports", "list[V1ContainerPort]"), ("readinessProbe", "V1Probe"),
      ("resizePolicy", "list[V1ContainerResizePolicy]"), ("resources", "V1ResourceRequirements"),
      ("restartPolicy", "str"), ("restartPolicyRules", "list[V1ContainerRestartRule]"),
      ("securityContext", "V1SecurityContext"), ("startupProbe", "V1Probe"), ("stdin", "bool"),
      ("stdinOnce", "bool"), ("targetContainerName", "str"), ("terminationMessagePath", "str"),
      ("terminationMessagePolicy", "str"), ("tty", "bool"),
      ("volumeDevices", "list[V1VolumeDevice]"), ("volumeMounts", "list[V1VolumeMount]"),
      ("workingDir", "str")]⟩,
    ⟨"V1ContainerRestartRule", [("action", "str"),
      ("exitCodes", "V1ContainerRestartRuleOnExitCodes")]⟩,
    ⟨"V1ContainerRestartRuleOnExitCodes", [("operator", "str"), ("values", "list[int]")]⟩,
    ⟨"V1EnvVar", [("name", "str"), ("value", "str"), ("valueFrom", "V1EnvVarSource")]⟩,
    ⟨"V1EnvVarSource", [("configMapKeyRef", "V1ConfigMapKeySelector"),
      ("fieldRef", "V1ObjectFieldSelector"), ("fileKeyRef", "V1FileKeySelector"),
      ("resourceFieldRef", "V1ResourceFieldSelector"), ("secretKeyRef", "V1SecretKeySelector")]⟩,
    ⟨"V1ConfigMapKeySelector", [("key", "str"), ("name", "str"), ("optional", "bool")]⟩,
    ⟨"V1SecretKeySelector", [("key", "str"), ("name", "str"), ("optional", "bool")]⟩,
    ⟨"V1ObjectFieldSelector", [("apiVersion", "str"), ("fieldPath", "str")]⟩,
    ⟨"V1ResourceFieldSelector", [("containerName", "str"), ("divisor", "str"),
      ("resource", "str")]⟩,
    ⟨"V1FileKeySelector", [("key", "str"), ("optional", "bool"), ("path", "str"),
      ("volumeName", "str")]⟩,
    ⟨"V1EnvFromSource", [("configMapRef", "V1ConfigMapEnvSource"), ("prefix", "str"),
      ("secretRef", "V1SecretEnvSource")]⟩,
    ⟨"V1ConfigMapEnvSource", [("name", "str"), ("optional", "bool")]⟩,
    ⟨"V1SecretEnvSource", [("name", "str"), ("optional", "bool")]⟩,
    ⟨"V1Lifecycle", [("postStart", "V1LifecycleHandler"), ("preStop", "V1LifecycleHandler"),
      ("stopSignal", "str")]⟩,
    ⟨"V1LifecycleHandler", [("exec", "V1ExecAction"), ("httpGet", "V1HTTPGetAction"),
      ("sleep", "V1SleepAction"), ("tcpSocket", "V1TCPSocketAction")]⟩,
    ⟨"V1ExecAction", [("command", "list[str]")]⟩,
    ⟨"V1HTTPGetAction", [("host", "str"), ("httpHeaders", "list[V1HTTPHeader]"), ("path", "str"),
      ("port", "object"), ("scheme", "str")]⟩,
    ⟨"V1HTTPHeader", [("name", "str"), ("value", "str")]⟩,
    ⟨"V1SleepAction", [("seconds", "int")]⟩,
    ⟨"V1TCPSocketAction", [("host", "str"), ("port", "object")]⟩,
    ⟨"V1GRPCAction", [("port", "int"), ("service", "str")]⟩,
    ⟨"V1Probe", [("exec", "V1ExecAction"), ("failureThreshold", "int"), ("grpc", "V1GRPCAction"),
      ("httpGet", "V1HTTPGetAction"), ("initialDelaySeconds", "int"), ("periodSeconds", "int"),
      ("successThreshold", "int"), ("tcpSocket", "V1TCPSocketAction"),
      ("terminationGracePeriodSeconds", "int"), ("timeoutSeconds", "int")]⟩,
    ⟨"V1ContainerPort", [("containerPort", "int"), ("hostIP", "str"), ("hostPort", "int"),
      ("name", "str"), ("protocol", "str")]⟩,
    ⟨"V1ContainerResizePolicy", [("resourceName", "str"), ("restartPolicy", "str")]⟩,
    ⟨"V1ResourceRequirements", [("claims", "list[CoreV1ResourceClaim]"),
      ("limits", "dict[str, str]"), ("requests", "dict[str, str]")]⟩,
    ⟨"CoreV1ResourceClaim", [("name", "str"), ("request", "str")]⟩,
    ⟨"V1SecurityContext", [("allowPrivilegeEscalation", "bool"),
      ("appArmorProfile", "V1AppArmorProfile"), ("capabilities", "V1Capabilities"),
      ("privileged", "bool"), ("procMount", "str"), ("readOnlyRootFilesystem", "bool"),
      ("runAsGroup", "int"), ("runAsNonRoot", "bool"), ("runAsUser", "int"),
      ("seLinuxOptions", "V1SELinuxOptions"), ("seccompProfile", "V1SeccompProfile"),
      ("windowsOptions", "V1WindowsSecurityContextOptions")]⟩,
    ⟨"V1AppArmorProfile", [("localhostProfile", "str"), ("type", "str")]⟩,
    ⟨"V1Capabilities", [("add", "list[str]"), ("drop", "list[str]")]⟩,
    ⟨"V1SELinuxOptions", [("level", "str"), ("role", "str"), ("type", "str"), ("user", "str")]⟩,
    ⟨"V1SeccompProfile", [("localhostProfile", "str"), ("type", "str")]⟩,
    ⟨"V1WindowsSecurityContextOptions", [("gmsaCredentialSpec", "str"),
      ("gmsaCredentialSpecName", "str"), ("hostProcess", "bool"), ("runAsUserName", "str")]⟩,
    ⟨"V1VolumeDevice", [("devicePath", "str"), ("name", "str")]⟩,
    ⟨"V1VolumeMount", [("mountPath", "str"), ("mountPropagation", "str"), ("name", "str"),
      ("readOnly", "bool"), ("recursiveReadOnly", "str"), ("subPath", "str"),
      ("subPathExpr", "str")]⟩,
    ⟨"V1ContainerStatus", [("allocatedResources", "dict[str, str]"),
      ("allocatedResourcesStatus", "list[V1ResourceStatus]"), ("containerID", "str"),
      ("image", "str"), ("imageID", "str"), ("lastState", "V1ContainerState"), ("name", "str"),
      ("ready", "bool"), ("resources", "V1ResourceRequirements"), ("restartCount", "int"),
      ("started", "bool"), ("state", "V1ContainerState"), ("stopSignal", "str"),
      ("user", "V1ContainerUser"), ("volumeMounts", "list[V1VolumeMountStatus]")]⟩,
    ⟨"V1ResourceStatus", [("name", "str"), ("resources", "list[V1ResourceHealth]")]⟩,
    ⟨"V1ResourceHealth", [("health", "str"), ("resourceID", "str")]⟩,
    ⟨"V1ContainerState", [("running", "V1ContainerStateRunning"),
      ("terminated", "V1ContainerStateTerminated"), ("waiting", "V1ContainerStateWaiting")]⟩,
    ⟨"V1ContainerStateRunning", [("startedAt", "datetime")]⟩,
    ⟨"V1ContainerStateTerminated", [("containerID", "str"), ("exitCode", "int"),
      ("finishedAt", "datetime"), ("message", "str"), ("reason", "str"), ("signal", "int"),
      ("startedAt", "datetime")]⟩,
    ⟨"V1ContainerStateWaiting", [("message", "str"), ("reason", "str")]⟩,
    ⟨"V1ContainerUser", [("linux", "V1LinuxContainerUser")]⟩,
    ⟨"V1LinuxContainerUser", [("gid", "int"), ("supplementalGroups", "list[int]"),
      ("uid", "int")]⟩,
    ⟨"V1VolumeMountStatus", [("mountPath", "str"), ("name", "str"), ("readOnly", "bool"),
      ("recursiveReadOnly", "str")]⟩]

end Reconciler.Schema
