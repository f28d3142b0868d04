import IngressOperator.Resource.Container

/-!
# Volumes

A volume of a pod with the source that it has. The operator looks into volumes of config maps, of secrets and of paths of the
node; the records of all other sources are carried along.
-/

namespace IngressOperator

open Wire

/-! ### Config maps, secrets and the node -/

/-- The file of a volume for one key. -/
structure KeyToPath where
  key : String := ""
  mode : Option Int32 := none
  path : String := ""
deriving DecidableEq, Inhabited

instance : Wire KeyToPath where
  encode x := .record [always "key" x.key, present "mode" x.mode, always "path" x.path]
  decode? j := do
    let ms ← j.members?
    pure { key := ← lenient? ms "key", mode := ← optional? ms "mode", path := ← lenient? ms "path" }

/-- A volume with the keys of a secret. -/
structure SecretVolume where
  defaultMode : Option Int32 := none
  items : Option (List KeyToPath) := none
  optional : Option Bool := none
  secretName : Option String := none
deriving DecidableEq, Inhabited

instance : Wire SecretVolume where
  encode x := .record [
    present "defaultMode" x.defaultMode, present "items" x.items, present "optional" x.optional,
    present "secretName" x.secretName]
  decode? j := do
    let ms ← j.members?
    pure {
      defaultMode := ← optional? ms "defaultMode", items := ← optional? ms "items",
      optional := ← optional? ms "optional", secretName := ← optional? ms "secretName" }

/-- A volume with the keys of a config map. -/
structure ConfigMapVolume where
  defaultMode : Option Int32 := none
  items : Option (List KeyToPath) := none
  name : String := ""
  optional : Option Bool := none
deriving DecidableEq, Inhabited

instance : Wire ConfigMapVolume where
  encode x := .record [
    present "defaultMode" x.defaultMode, present "items" x.items, always "name" x.name, present "optional" x.optional]
  decode? j := do
    let ms ← j.members?
    pure {
      defaultMode := ← optional? ms "defaultMode", items := ← optional? ms "items", name := ← lenient? ms "name",
      optional := ← optional? ms "optional" }

/-- A volume that is a path of the node. -/
structure HostPathVolume where
  path : String := ""
  type : Option String := none
deriving DecidableEq, Inhabited

instance : Wire HostPathVolume where
  encode x := .record [always "path" x.path, present "type" x.type]
  decode? j := do
    let ms ← j.members?
    pure { path := ← lenient? ms "path", type := ← optional? ms "type" }

/-- A volume that lives as long as the pod. -/
structure EmptyDirVolume where
  medium : Option String := none
  sizeLimit : Option String := none
deriving DecidableEq, Inhabited

instance : Wire EmptyDirVolume where
  encode x := .record [present "medium" x.medium, present "sizeLimit" x.sizeLimit]
  decode? j := do
    let ms ← j.members?
    pure { medium := ← optional? ms "medium", sizeLimit := ← optional? ms "sizeLimit" }

/-! ### Disks and file systems

Each of these is named for what provides it.
-/

abbrev AwsDisk := Carried [
  .optional "fsType" String, .optional "partition" Int32, .optional "readOnly" Bool, .always "volumeID" String]

abbrev AzureDisk := Carried [
  .optional "cachingMode" String, .always "diskName" String, .always "diskURI" String, .optional "fsType" String,
  .optional "kind" String, .optional "readOnly" Bool]

abbrev AzureFile := Carried [.optional "readOnly" Bool, .always "secretName" String, .always "shareName" String]

abbrev CephFs := Carried [
  .always "monitors" (List String), .optional "path" String, .optional "readOnly" Bool, .optional "secretFile" String,
  .optional "secretRef" Named, .optional "user" String]

abbrev Cinder := Carried [
  .optional "fsType" String, .optional "readOnly" Bool, .optional "secretRef" Named, .always "volumeID" String]

abbrev Csi := Carried [
  .always "driver" String, .optional "fsType" String, .optional "nodePublishSecretRef" Named,
  .optional "readOnly" Bool, .optional "volumeAttributes" (Dict String)]

abbrev FibreChannel := Carried [
  .optional "fsType" String, .optional "lun" Int32, .optional "readOnly" Bool, .optional "targetWWNs" (List String),
  .optional "wwids" (List String)]

abbrev FlexVolume := Carried [
  .always "driver" String, .optional "fsType" String, .optional "options" (Dict String), .optional "readOnly" Bool,
  .optional "secretRef" Named]

abbrev Flocker := Carried [.optional "datasetName" String, .optional "datasetUUID" String]

abbrev GceDisk := Carried [
  .optional "fsType" String, .optional "partition" Int32, .always "pdName" String, .optional "readOnly" Bool]

abbrev GitRepo := Carried [.optional "directory" String, .always "repository" String, .optional "revision" String]

abbrev Glusterfs := Carried [.always "endpoints" String, .always "path" String, .optional "readOnly" Bool]

abbrev ImageVolume := Carried [.optional "pullPolicy" String, .optional "reference" String]

abbrev Iscsi := Carried [
  .optional "chapAuthDiscovery" Bool, .optional "chapAuthSession" Bool, .optional "fsType" String,
  .optional "initiatorName" String, .always "iqn" String, .optional "iscsiInterface" String, .always "lun" Int32,
  .optional "portals" (List String), .optional "readOnly" Bool, .optional "secretRef" Named,
  .always "targetPortal" String]

abbrev Nfs := Carried [.always "path" String, .optional "readOnly" Bool, .always "server" String]

abbrev PhotonDisk := Carried [.optional "fsType" String, .always "pdID" String]

abbrev PortworxVolume := Carried [.optional "fsType" String, .optional "readOnly" Bool, .always "volumeID" String]

abbrev Quobyte := Carried [
  .optional "group" String, .optional "readOnly" Bool, .always "registry" String, .optional "tenant" String,
  .optional "user" String, .always "volume" String]

abbrev Rbd := Carried [
  .optional "fsType" String, .always "image" String, .optional "keyring" String, .always "monitors" (List String),
  .optional "pool" String, .optional "readOnly" Bool, .optional "secretRef" Named, .optional "user" String]

abbrev ScaleIo := Carried [
  .optional "fsType" String, .always "gateway" String, .optional "protectionDomain" String, .optional "readOnly" Bool,
  .always "secretRef" Named, .optional "sslEnabled" Bool, .optional "storageMode" String,
  .optional "storagePool" String, .always "system" String, .optional "volumeName" String]

abbrev StorageOs := Carried [
  .optional "fsType" String, .optional "readOnly" Bool, .optional "secretRef" Named, .optional "volumeName" String,
  .optional "volumeNamespace" String]

abbrev VsphereVolume := Carried [
  .optional "fsType" String, .optional "storagePolicyID" String, .optional "storagePolicyName" String,
  .always "volumePath" String]

/-! ### Claims -/

/-- A volume to which there is a claim. -/
abbrev ClaimVolume := Carried [.always "claimName" String, .optional "readOnly" Bool]

/-- An object of the namespace from which a volume is filled. -/
abbrev DataSource := Carried [.optional "apiGroup" String, .always "kind" String, .always "name" String]

/-- An object of any namespace from which a volume is filled. -/
abbrev DataSourceRef := Carried [
  .optional "apiGroup" String, .always "kind" String, .always "name" String, .optional "namespace" String]

/-- How much of a volume is asked for. -/
abbrev VolumeResources := Carried [.optional "limits" (Dict String), .optional "requests" (Dict String)]

/-- What kind of volume is claimed. -/
abbrev ClaimSpec := Carried [
  .optional "accessModes" (List String), .optional "dataSource" DataSource, .optional "dataSourceRef" DataSourceRef,
  .optional "resources" VolumeResources, .optional "selector" LabelSelector, .optional "storageClassName" String,
  .optional "volumeAttributesClassName" String, .optional "volumeMode" String, .optional "volumeName" String]

/-- The claim that is made for one pod. -/
abbrev ClaimTemplate := Carried [.optional "metadata" Meta, .always "spec" ClaimSpec]

/-- A volume to which a claim is made for the pod. -/
abbrev EphemeralVolume := Carried [.optional "volumeClaimTemplate" ClaimTemplate]

/-! ### Files about the pod -/

/-- A file with a field of the pod. -/
abbrev DownwardFile := Carried [
  .optional "fieldRef" FieldRef, .optional "mode" Int32, .always "path" String,
  .optional "resourceFieldRef" ResourceFieldRef]

/-- A volume with fields of the pod. -/
abbrev DownwardVolume := Carried [.optional "defaultMode" Int32, .optional "items" (List DownwardFile)]

/-- Fields of the pod in a volume that has other files, too. -/
abbrev DownwardProjection := Carried [.optional "items" (List DownwardFile)]

/-- Certificates of authorities that the cluster keeps. -/
abbrev TrustBundleProjection := Carried [
  .optional "labelSelector" LabelSelector, .optional "name" String, .optional "optional" Bool, .always "path" String,
  .optional "signerName" String]

/-- The keys of a config map or of a secret. -/
abbrev MapProjection := Carried [
  .optional "items" (List KeyToPath), .always "name" String, .optional "optional" Bool]

/-- A token of the account of the pod. -/
abbrev TokenProjection := Carried [
  .optional "audience" String, .optional "expirationSeconds" Int64, .always "path" String]

/-- One of the sources of a volume that may have several. -/
abbrev Projection := Carried [
  .optional "clusterTrustBundle" TrustBundleProjection, .optional "configMap" MapProjection,
  .optional "downwardAPI" DownwardProjection, .optional "secret" MapProjection,
  .optional "serviceAccountToken" TokenProjection]

/-- A volume that may have several sources. -/
abbrev ProjectedVolume := Carried [.optional "defaultMode" Int32, .optional "sources" (List Projection)]

/-! ### Volumes -/

/-- A volume of a pod: its name and the one source that it has. -/
structure Volume where
  awsElasticBlockStore : Option AwsDisk := none
  azureDisk : Option AzureDisk := none
  azureFile : Option AzureFile := none
  cephfs : Option CephFs := none
  cinder : Option Cinder := none
  configMap : Option ConfigMapVolume := none
  csi : Option Csi := none
  downwardAPI : Option DownwardVolume := none
  emptyDir : Option EmptyDirVolume := none
  ephemeral : Option EphemeralVolume := none
  fc : Option FibreChannel := none
  flexVolume : Option FlexVolume := none
  flocker : Option Flocker := none
  gcePersistentDisk : Option GceDisk := none
  gitRepo : Option GitRepo := none
  glusterfs : Option Glusterfs := none
  hostPath : Option HostPathVolume := none
  image : Option ImageVolume := none
  iscsi : Option Iscsi := none
  name : String := ""
  nfs : Option Nfs := none
  persistentVolumeClaim : Option ClaimVolume := none
  photonPersistentDisk : Option PhotonDisk := none
  portworxVolume : Option PortworxVolume := none
  projected : Option ProjectedVolume := none
  quobyte : Option Quobyte := none
  rbd : Option Rbd := none
  scaleIO : Option ScaleIo := none
  secret : Option SecretVolume := none
  storageos : Option StorageOs := none
  vsphereVolume : Option VsphereVolume := none
deriving DecidableEq, Inhabited

instance : Wire Volume where
  encode x := .record [
    present "awsElasticBlockStore" x.awsElasticBlockStore, present "azureDisk" x.azureDisk, present "azureFile" x.azureFile,
    present "cephfs" x.cephfs, present "cinder" x.cinder, present "configMap" x.configMap, present "csi" x.csi,
    present "downwardAPI" x.downwardAPI, present "emptyDir" x.emptyDir, present "ephemeral" x.ephemeral, present "fc" x.fc,
    present "flexVolume" x.flexVolume, present "flocker" x.flocker, present "gcePersistentDisk" x.gcePersistentDisk,
    present "gitRepo" x.gitRepo, present "glusterfs" x.glusterfs, present "hostPath" x.hostPath, present "image" x.image,
    present "iscsi" x.iscsi, always "name" x.name, present "nfs" x.nfs,
    present "persistentVolumeClaim" x.persistentVolumeClaim, present "photonPersistentDisk" x.photonPersistentDisk,
    present "portworxVolume" x.portworxVolume, present "projected" x.projected, present "quobyte" x.quobyte,
    present "rbd" x.rbd, present "scaleIO" x.scaleIO, present "secret" x.secret, present "storageos" x.storageos,
    present "vsphereVolume" x.vsphereVolume]
  decode? j := do
    let ms ← j.members?
    pure {
      awsElasticBlockStore := ← optional? ms "awsElasticBlockStore", azureDisk := ← optional? ms "azureDisk",
      azureFile := ← optional? ms "azureFile", cephfs := ← optional? ms "cephfs", cinder := ← optional? ms "cinder",
      configMap := ← optional? ms "configMap", csi := ← optional? ms "csi", downwardAPI := ← optional? ms "downwardAPI",
      emptyDir := ← optional? ms "emptyDir", ephemeral := ← optional? ms "ephemeral", fc := ← optional? ms "fc",
      flexVolume := ← optional? ms "flexVolume", flocker := ← optional? ms "flocker",
      gcePersistentDisk := ← optional? ms "gcePersistentDisk", gitRepo := ← optional? ms "gitRepo",
      glusterfs := ← optional? ms "glusterfs", hostPath := ← optional? ms "hostPath", image := ← optional? ms "image",
      iscsi := ← optional? ms "iscsi", name := ← lenient? ms "name", nfs := ← optional? ms "nfs",
      persistentVolumeClaim := ← optional? ms "persistentVolumeClaim",
      photonPersistentDisk := ← optional? ms "photonPersistentDisk", portworxVolume := ← optional? ms "portworxVolume",
      projected := ← optional? ms "projected", quobyte := ← optional? ms "quobyte", rbd := ← optional? ms "rbd",
      scaleIO := ← optional? ms "scaleIO", secret := ← optional? ms "secret", storageos := ← optional? ms "storageos",
      vsphereVolume := ← optional? ms "vsphereVolume" }

end IngressOperator
