import Reconciler.Schema.Model.Basic

/-!
# Models of volume sources

The fields that the server declares for the sources from which a pod mounts volumes,
in the order of their names.
-/

namespace Reconciler.Schema

/-- The sources from which a pod mounts volumes. -/
def volumeModels : List Model := [
    ⟨"V1Volume", [("awsElasticBlockStore", "V1AWSElasticBlockStoreVolumeSource"),
      ("azureDisk", "V1AzureDiskVolumeSource"), ("azureFile", "V1AzureFileVolumeSource"),
      ("cephfs", "V1CephFSVolumeSource"), ("cinder", "V1CinderVolumeSource"),
      ("configMap", "V1ConfigMapVolumeSource"), ("csi", "V1CSIVolumeSource"),
      ("downwardAPI", "V1DownwardAPIVolumeSource"), ("emptyDir", "V1EmptyDirVolumeSource"),
      ("ephemeral", "V1EphemeralVolumeSource"), ("fc", "V1FCVolumeSource"),
      ("flexVolume", "V1FlexVolumeSource"), ("flocker", "V1FlockerVolumeSource"),
      ("gcePersistentDisk", "V1GCEPersistentDiskVolumeSource"),
      ("gitRepo", "V1GitRepoVolumeSource"), ("glusterfs", "V1GlusterfsVolumeSource"),
      ("hostPath", "V1HostPathVolumeSource"), ("image", "V1ImageVolumeSource"),
      ("iscsi", "V1ISCSIVolumeSource"), ("name", "str"), ("nfs", "V1NFSVolumeSource"),
      ("persistentVolumeClaim", "V1PersistentVolumeClaimVolumeSource"),
      ("photonPersistentDisk", "V1PhotonPersistentDiskVolumeSource"),
      ("portworxVolume", "V1PortworxVolumeSource"), ("projected", "V1ProjectedVolumeSource"),
      ("quobyte", "V1QuobyteVolumeSource"), ("rbd", "V1RBDVolumeSource"),
      ("scaleIO", "V1ScaleIOVolumeSource"), ("secret", "V1SecretVolumeSource"),
      ("storageos", "V1StorageOSVolumeSource"),
      ("vsphereVolume", "V1VsphereVirtualDiskVolumeSource")]⟩,
    ⟨"V1AWSElasticBlockStoreVolumeSource", [("fsType", "str"), ("partition", "int"),
      ("readOnly", "bool"), ("volumeID", "str")]⟩,
    ⟨"V1AzureDiskVolumeSource", [("cachingMode", "str"), ("diskName", "str"), ("diskURI", "str"),
      ("fsType", "str"), ("kind", "str"), ("readOnly", "bool")]⟩,
    ⟨"V1AzureFileVolumeSource", [("readOnly", "bool"), ("secretName", "str"),
      ("shareName", "str")]⟩,
    ⟨"V1CephFSVolumeSource", [("monitors", "list[str]"), ("path", "str"), ("readOnly", "bool"),
      ("secretFile", "str"), ("secretRef", "V1LocalObjectReference"), ("user", "str")]⟩,
    ⟨"V1CinderVolumeSource", [("fsType", "str"), ("readOnly", "bool"),
      ("secretRef", "V1LocalObjectReference"), ("volumeID", "str")]⟩,
    ⟨"V1ConfigMapVolumeSource", [("defaultMode", "int"), ("items", "list[V1KeyToPath]"),
      ("name", "str"), ("optional", "bool")]⟩,
    ⟨"V1KeyToPath", [("key", "str"), ("mode", "int"), ("path", "str")]⟩,
    ⟨"V1CSIVolumeSource", [("driver", "str"), ("fsType", "str"),
      ("nodePublishSecretRef", "V1LocalObjectReference"), ("readOnly", "bool"),
      ("volumeAttributes", "dict[str, str]")]⟩,
    ⟨"V1DownwardAPIVolumeSource", [("defaultMode", "int"),
      ("items", "list[V1DownwardAPIVolumeFile]")]⟩,
    ⟨"V1DownwardAPIVolumeFile", [("fieldRef", "V1ObjectFieldSelector"), ("mode", "int"),
      ("path", "str"), ("resourceFieldRef", "V1ResourceFieldSelector")]⟩,
    ⟨"V1EmptyDirVolumeSource", [("medium", "str"), ("sizeLimit", "str")]⟩,
    ⟨"V1EphemeralVolumeSource", [("volumeClaimTemplate", "V1PersistentVolumeClaimTemplate")]⟩,
    ⟨"V1FCVolumeSource", [("fsType", "str"), ("lun", "int"), ("readOnly", "bool"),
      ("targetWWNs", "list[str]"), ("wwids", "list[str]")]⟩,
    ⟨"V1FlexVolumeSource", [("driver", "str"), ("fsType", "str"), ("options", "dict[str, str]"),
      ("readOnly", "bool"), ("secretRef", "V1LocalObjectReference")]⟩,
    ⟨"V1FlockerVolumeSource", [("datasetName", "str"), ("datasetUUID", "str")]⟩,
    ⟨"V1GCEPersistentDiskVolumeSource", [("fsType", "str"), ("partition", "int"),
      ("pdName", "str"), ("readOnly", "bool")]⟩,
    ⟨"V1GitRepoVolumeSource", [("directory", "str"), ("repository", "str"), ("revision", "str")]⟩,
    ⟨"V1GlusterfsVolumeSource", [("endpoints", "str"), ("path", "str"), ("readOnly", "bool")]⟩,
    ⟨"V1HostPathVolumeSource", [("path", "str"), ("type", "str")]⟩,
    ⟨"V1ImageVolumeSource", [("pullPolicy", "str"), ("reference", "str")]⟩,
    ⟨"V1ISCSIVolumeSource", [("chapAuthDiscovery", "bool"), ("chapAuthSession", "bool"),
      ("fsType", "str"), ("initiatorName", "str"), ("iqn", "str"), ("iscsiInterface", "str"),
      ("lun", "int"), ("portals", "list[str]"), ("readOnly", "bool"),
      ("secretRef", "V1LocalObjectReference"), ("targetPortal", "str")]⟩,
    ⟨"V1NFSVolumeSource", [("path", "str"), ("readOnly", "bool"), ("server", "str")]⟩,
    ⟨"V1PersistentVolumeClaimVolumeSource", [("claimName", "str"), ("readOnly", "bool")]⟩,
    ⟨"V1PhotonPersistentDiskVolumeSource", [("fsType", "str"), ("pdID", "str")]⟩,
    ⟨"V1PortworxVolumeSource", [("fsType", "str"), ("readOnly", "bool"), ("volumeID", "str")]⟩,
    ⟨"V1ProjectedVolumeSource", [("defaultMode", "int"),
      ("sources", "list[V1VolumeProjection]")]⟩,
    ⟨"V1VolumeProjection", [("clusterTrustBundle", "V1ClusterTrustBundleProjection"),
      ("configMap", "V1ConfigMapProjection"), ("downwardAPI", "V1DownwardAPIProjection"),
      ("podCertificate", "V1PodCertificateProjection"), ("secret", "V1SecretProjection"),
      ("serviceAccountToken", "V1ServiceAccountTokenProjection")]⟩,
    ⟨"V1ClusterTrustBundleProjection", [("labelSelector", "V1LabelSelector"), ("name", "str"),
      ("optional", "bool"), ("path", "str"), ("signerName", "str")]⟩,
    ⟨"V1ConfigMapProjection", [("items", "list[V1KeyToPath]"), ("name", "str"),
      ("optional", "bool")]⟩,
    ⟨"V1DownwardAPIProjection", [("items", "list[V1DownwardAPIVolumeFile]")]⟩,
    ⟨"V1PodCertificateProjection", [("certificateChainPath", "str"),
      ("credentialBundlePath", "str"), ("keyPath", "str"), ("keyType", "str"),
      ("maxExpirationSeconds", "int"), ("signerName", "str"),
      ("userAnnotations", "dict[str, str]")]⟩,
    ⟨"V1SecretProjection", [("items", "list[V1KeyToPath]"), ("name", "str"),
      ("optional", "bool")]⟩,
    ⟨"V1ServiceAccountTokenProjection", [("audience", "str"), ("expirationSeconds", "int"),
      ("path", "str")]⟩,
    ⟨"V1QuobyteVolumeSource", [("group", "str"), ("readOnly", "bool"), ("registry", "str"),
      ("tenant", "str"), ("user", "str"), ("volume", "str")]⟩,
    ⟨"V1RBDVolumeSource", [("fsType", "str"), ("image", "str"), ("keyring", "str"),
      ("monitors", "list[str]"), ("pool", "str"), ("readOnly", "bool"),
      ("secretRef", "V1LocalObjectReference"), ("user", "str")]⟩,
    ⟨"V1ScaleIOVolumeSource", [("fsType", "str"), ("gateway", "str"), ("protectionDomain", "str"),
      ("readOnly", "bool"), ("secretRef", "V1LocalObjectReference"), ("sslEnabled", "bool"),
      ("storageMode", "str"), ("storagePool", "str"), ("system", "str"), ("volumeName", "str")]⟩,
    ⟨"V1SecretVolumeSource", [("defaultMode", "int"), ("items", "list[V1KeyToPath]"),
      ("optional", "bool"), ("secretName", "str")]⟩,
    ⟨"V1StorageOSVolumeSource", [("fsType", "str"), ("readOnly", "bool"),
      ("secretRef", "V1LocalObjectReference"), ("volumeName", "str"),
      ("volumeNamespace", "str")]⟩,
    ⟨"V1VsphereVirtualDiskVolumeSource", [("fsType", "str"), ("storagePolicyID", "str"),
      ("storagePolicyName", "str"), ("volumePath", "str")]⟩]

end Reconciler.Schema
