import Reconciler.Schema.Model.Basic

/-!
# Models of persistent storage

The fields that the server declares for persistent volumes and the claims on them,
in the order of their names.
-/

namespace Reconciler.Schema

/-- Persistent volumes and the claims on them. -/
def storageModels : List Model := [
    ⟨"V1PersistentVolumeClaim", [("apiVersion", "str"), ("kind", "str"),
      ("metadata", "V1ObjectMeta"), ("spec", "V1PersistentVolumeClaimSpec"),
      ("status", "V1PersistentVolumeClaimStatus")]⟩,
    ⟨"V1PersistentVolumeClaimTemplate", [("metadata", "V1ObjectMeta"),
      ("spec", "V1PersistentVolumeClaimSpec")]⟩,
    ⟨"V1PersistentVolumeClaimSpec", [("accessModes", "list[str]"),
      ("dataSource", "V1TypedLocalObjectReference"), ("dataSourceRef", "V1TypedObjectReference"),
      ("resources", "V1VolumeResourceRequirements"), ("selector", "V1LabelSelector"),
      ("storageClassName", "str"), ("volumeAttributesClassName", "str"), ("volumeMode", "str"),
      ("volumeName", "str")]⟩,
    ⟨"V1VolumeResourceRequirements", [("limits", "dict[str, str]"),
      ("requests", "dict[str, str]")]⟩,
    ⟨"V1PersistentVolumeClaimStatus", [("accessModes", "list[str]"),
      ("allocatedResourceStatuses", "dict[str, str]"), ("allocatedResources", "dict[str, str]"),
      ("capacity", "dict[str, str]"), ("conditions", "list[V1PersistentVolumeClaimCondition]"),
      ("currentVolumeAttributesClassName", "str"), ("modifyVolumeStatus", "V1ModifyVolumeStatus"),
      ("phase", "str")]⟩,
    ⟨"V1PersistentVolumeClaimCondition", [("lastProbeTime", "datetime"),
      ("lastTransitionTime", "datetime"), ("message", "str"), ("reason", "str"),
      ("status", "str"), ("type", "str")]⟩,
    ⟨"V1ModifyVolumeStatus", [("status", "str"), ("targetVolumeAttributesClassName", "str")]⟩,
    ⟨"V1PersistentVolume", [("apiVersion", "str"), ("kind", "str"), ("metadata", "V1ObjectMeta"),
      ("spec", "V1PersistentVolumeSpec"), ("status", "V1PersistentVolumeStatus")]⟩,
    ⟨"V1PersistentVolumeSpec", [("accessModes", "list[str]"),
      ("awsElasticBlockStore", "V1AWSElasticBlockStoreVolumeSource"),
      ("azureDisk", "V1AzureDiskVolumeSource"),
      ("azureFile", "V1AzureFilePersistentVolumeSource"), ("capacity", "dict[str, str]"),
      ("cephfs", "V1CephFSPersistentVolumeSource"), ("cinder", "V1CinderPersistentVolumeSource"),
      ("claimRef", "V1ObjectReference"), ("csi", "V1CSIPersistentVolumeSource"),
      ("fc", "V1FCVolumeSource"), ("flexVolume", "V1FlexPersistentVolumeSource"),
      ("flocker", "V1FlockerVolumeSource"),
      ("gcePersistentDisk", "V1GCEPersistentDiskVolumeSource"),
      ("glusterfs", "V1GlusterfsPersistentVolumeSource"), ("hostPath", "V1HostPathVolumeSource"),
      ("iscsi", "V1ISCSIPersistentVolumeSource"), ("local", "V1LocalVolumeSource"),
      ("mountOptions", "list[str]"), ("nfs", "V1NFSVolumeSource"),
      ("nodeAffinity", "V1VolumeNodeAffinity"), ("persistentVolumeReclaimPolicy", "str"),
      ("photonPersistentDisk", "V1PhotonPersistentDiskVolumeSource"),
      ("portworxVolume", "V1PortworxVolumeSource"), ("quobyte", "V1QuobyteVolumeSource"),
      ("rbd", "V1RBDPersistentVolumeSource"), ("scaleIO", "V1ScaleIOPersistentVolumeSource"),
      ("storageClassName", "str"), ("storageos", "V1StorageOSPersistentVolumeSource"),
      ("volumeAttributesClassName", "str"), ("volumeMode", "str"),
      ("vsphereVolume", "V1VsphereVirtualDiskVolumeSource")]⟩,
    ⟨"V1AzureFilePersistentVolumeSource", [("readOnly", "bool"), ("secretName", "str"),
      ("secretNamespace", "str"), ("shareName", "str")]⟩,
    ⟨"V1CephFSPersistentVolumeSource", [("monitors", "list[str]"), ("path", "str"),
      ("readOnly", "bool"), ("secretFile", "str"), ("secretRef", "V1SecretReference"),
      ("user", "str")]⟩,
    ⟨"V1CinderPersistentVolumeSource", [("fsType", "str"), ("readOnly", "bool"),
      ("secretRef", "V1SecretReference"), ("volumeID", "str")]⟩,
    ⟨"V1CSIPersistentVolumeSource", [("controllerExpandSecretRef", "V1SecretReference"),
      ("controllerPublishSecretRef", "V1SecretReference"), ("driver", "str"), ("fsType", "str"),
      ("nodeExpandSecretRef", "V1SecretReference"), ("nodePublishSecretRef", "V1SecretReference"),
      ("nodeStageSecretRef", "V1SecretReference"), ("readOnly", "bool"),
      ("volumeAttributes", "dict[str, str]"), ("volumeHandle", "str")]⟩,
    ⟨"V1FlexPersistentVolumeSource", [("driver", "str"), ("fsType", "str"),
      ("options", "dict[str, str]"), ("readOnly", "bool"), ("secretRef", "V1SecretReference")]⟩,
    ⟨"V1GlusterfsPersistentVolumeSource", [("endpoints", "str"), ("endpointsNamespace", "str"),
      ("path", "str"), ("readOnly", "bool")]⟩,
    ⟨"V1ISCSIPersistentVolumeSource", [("chapAuthDiscovery", "bool"), ("chapAuthSession", "bool"),
      ("fsType", "str"), ("initiatorName", "str"), ("iqn", "str"), ("iscsiInterface", "str"),
      ("lun", "int"), ("portals", "list[str]"), ("readOnly", "bool"),
      ("secretRef", "V1SecretReference"), ("targetPortal", "str")]⟩,
    ⟨"V1LocalVolumeSource", [("fsType", "str"), ("path", "str")]⟩,
    ⟨"V1VolumeNodeAffinity", [("required", "V1NodeSelector")]⟩,
    ⟨"V1RBDPersistentVolumeSource", [("fsType", "str"), ("image", "str"), ("keyring", "str"),
      ("monitors", "list[str]"), ("pool", "str"), ("readOnly", "bool"),
      ("secretRef", "V1SecretReference"), ("user", "str")]⟩,
    ⟨"V1ScaleIOPersistentVolumeSource", [("fsType", "str"), ("gateway", "str"),
      ("protectionDomain", "str"), ("readOnly", "bool"), ("secretRef", "V1SecretReference"),
      ("sslEnabled", "bool"), ("storageMode", "str"), ("storagePool", "str"), ("system", "str"),
      ("volumeName", "str")]⟩,
    ⟨"V1StorageOSPersistentVolumeSource", [("fsType", "str"), ("readOnly", "bool"),
      ("secretRef", "V1ObjectReference"), ("volumeName", "str"), ("volumeNamespace", "str")]⟩,
    ⟨"V1PersistentVolumeStatus", [("lastPhaseTransitionTime", "datetime"), ("message", "str"),
      ("phase", "str"), ("reason", "str")]⟩]

end Reconciler.Schema
