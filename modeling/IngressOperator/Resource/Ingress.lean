import IngressOperator.Resource.Pod

/-!
# The management ingress

The custom resource that the operator serves: what its user asks for, and the status that the operator reports back.
-/

namespace IngressOperator

open Wire

/-! ### Specification -/

/-- Whether the operator takes care of a custom resource. -/
inductive ManagementState where
  | managed
  | unmanaged
deriving DecidableEq, Inhabited

instance : Wire ManagementState where
  encode
    | .managed => .str "Managed"
    | .unmanaged => .str "Unmanaged"
  decode? j :=
    match constant? j with
    | some "Managed" => some .managed
    | some "Unmanaged" => some .unmanaged
    | _ => none

/-- The image of the operand, without its registry. -/
structure OperandImage where
  repository : String := ""
  tag : String := ""
deriving DecidableEq, Inhabited

instance : Wire OperandImage where
  encode x := .record [text "repository" x.repository, text "tag" x.tag]
  decode? j := do
    let ms ← positional? ["repository", "tag"] j
    pure { repository := ← defaulted? ms "repository", tag := ← defaulted? ms "tag" }

/-- Whether an issuer serves one namespace or the whole cluster. -/
inductive IssuerKind where
  | issuer
  | clusterIssuer
deriving DecidableEq, Inhabited

/-- The name of the kind. -/
def IssuerKind.name : IssuerKind → String
  | .issuer => "Issuer"
  | .clusterIssuer => "ClusterIssuer"

instance : Wire IssuerKind where
  encode k := .str k.name
  decode? j :=
    match constant? j with
    | some "Issuer" => some .issuer
    | some "ClusterIssuer" => some .clusterIssuer
    | _ => none

/-- An issuer that a user names. -/
structure CertIssuer where
  name : String := ""
  kind : IssuerKind := .issuer
deriving DecidableEq, Inhabited

instance : Wire CertIssuer where
  encode x := .record [always "name" x.name, always "kind" x.kind]
  decode? j := do
    let ms ← positional? ["name", "kind"] j
    pure { name := ← required? ms "name", kind := ← defaulted? ms "kind" }

/-- What a user asks of the certificates. -/
structure CertSpec where
  issuer : Option CertIssuer := none
  namespacedIssuer : Option CertIssuer := none
  dnsNames : List String := []
  ipAddresses : List String := []
deriving DecidableEq, Inhabited

instance : Wire CertSpec where
  encode x := .record [present "issuer" x.issuer, present "namespacedIssuer" x.namespacedIssuer, items "dnsNames" x.dnsNames,
    items "ipAddresses" x.ipAddresses]
  decode? j := do
    let ms ← positional? ["issuer", "namespacedIssuer", "dnsNames", "ipAddresses"] j
    pure {
      issuer := ← optional? ms "issuer", namespacedIssuer := ← optional? ms "namespacedIssuer",
      dnsNames := ← defaulted? ms "dnsNames", ipAddresses := ← defaulted? ms "ipAddresses" }

/-- What a user asks of the operator. -/
structure IngressSpec where
  managementState : ManagementState := .managed
  /-- The registry in front of the image's repository. -/
  imageRegistry : String := ""
  image : OperandImage := {}
  /-- The number of pods; one if unset or not positive. -/
  replicas : Option Int32 := none
  resources : Option Resources := none
  nodeSelector : Option (Dict String) := none
  tolerations : Option (List Toleration) := none
  allowedHostHeader : String := ""
  cert : CertSpec := {}
  /-- The external host; it is derived from the cluster's domain if empty. -/
  routeHost : String := ""
  /-- The configuration of the operand. -/
  config : Dict String := ∅
  fipsEnabled : Bool := false
  /-- Whether the console route goes without a certificate of its own. -/
  ignoreRouteCert : Bool := false
  /-- Whether derived hosts carry the namespace, so that several instances can share a cluster. -/
  multipleInstancesEnabled : Bool := false
deriving DecidableEq, Inhabited

instance : Wire IngressSpec where
  encode x := .record [
    always "managementState" x.managementState, text "imageRegistry" x.imageRegistry, always "image" x.image,
    present "replicas" x.replicas, present "resources" x.resources, present "nodeSelector" x.nodeSelector,
    present "tolerations" x.tolerations, text "allowedHostHeader" x.allowedHostHeader, always "cert" x.cert,
    text "routeHost" x.routeHost, entries "config" x.config, always "fipsEnabled" x.fipsEnabled,
    always "ignoreRouteCert" x.ignoreRouteCert, always "multipleInstancesEnabled" x.multipleInstancesEnabled]
  decode? j := do
    let ms ← positional? ["managementState", "imageRegistry", "image", "replicas", "resources", "nodeSelector", "tolerations",
      "allowedHostHeader", "cert", "routeHost", "config", "fipsEnabled", "ignoreRouteCert", "multipleInstancesEnabled"] j
    pure {
      managementState := ← defaulted? ms "managementState", imageRegistry := ← defaulted? ms "imageRegistry",
      image := ← defaulted? ms "image", replicas := ← optional? ms "replicas", resources := ← optional? ms "resources",
      nodeSelector := ← optional? ms "nodeSelector", tolerations := ← optional? ms "tolerations",
      allowedHostHeader := ← defaulted? ms "allowedHostHeader", cert := ← defaulted? ms "cert",
      routeHost := ← defaulted? ms "routeHost", config := ← defaulted? ms "config",
      fipsEnabled := ← defaulted? ms "fipsEnabled", ignoreRouteCert := ← defaulted? ms "ignoreRouteCert",
      multipleInstancesEnabled := ← defaulted? ms "multipleInstancesEnabled" }

/-! ### Status -/

/-- What a condition is about. -/
inductive ConditionType where
  /-- The objects of a kind are as they should be. -/
  | ready
  | resourceCreating
  | waitingResource
  | resourceFailedOnCreation
  | discoveringClusterInfo
deriving DecidableEq, Inhabited

/-- The name of a condition's type. -/
def ConditionType.name : ConditionType → String
  | .ready => "Ready"
  | .resourceCreating => "ResourceCreating"
  | .waitingResource => "WaitingResource"
  | .resourceFailedOnCreation => "ResourceFailedOnCreation"
  | .discoveringClusterInfo => "DiscoveringClusterInfo"

instance : Wire ConditionType where
  encode t := .str t.name
  decode? j :=
    match constant? j with
    | some "Ready" => some .ready
    | some "ResourceCreating" => some .resourceCreating
    | some "WaitingResource" => some .waitingResource
    | some "ResourceFailedOnCreation" => some .resourceFailedOnCreation
    | some "DiscoveringClusterInfo" => some .discoveringClusterInfo
    | _ => none

/-- Whether a condition holds. -/
inductive ConditionStatus where
  | true
  | false
  | unknown
deriving DecidableEq, Inhabited

instance : Wire ConditionStatus where
  encode
    | .true => .str "True"
    | .false => .str "False"
    | .unknown => .str "Unknown"
  decode? j :=
    match constant? j with
    | some "True" => some .true
    | some "False" => some .false
    | some "Unknown" => some .unknown
    | _ => none

/-- A condition with its reason and the time at which its status last changed. -/
structure Condition where
  type : ConditionType
  status : ConditionStatus
  lastTransitionTime : Instant
  reason : String := ""
  message : String := ""
deriving DecidableEq, Inhabited

instance : Wire Condition where
  encode x := .record [always "type" x.type, always "status" x.status, always "lastTransitionTime" x.lastTransitionTime,
    text "reason" x.reason, text "message" x.message]
  decode? j := do
    let ms ← positional? ["type", "status", "lastTransitionTime", "reason", "message"] j
    pure {
      type := ← required? ms "type", status := ← required? ms "status",
      lastTransitionTime := ← required? ms "lastTransitionTime", reason := ← defaulted? ms "reason",
      message := ← defaulted? ms "message" }

/-- The names of the operand's pods by how they fare. -/
structure PodState where
  ready : List String := []
  notReady : List String := []
  failed : List String := []
deriving DecidableEq, Inhabited

instance : Wire PodState where
  encode x := .record [items "ready" x.ready, items "notReady" x.notReady, items "failed" x.failed]
  decode? j := do
    let ms ← positional? ["ready", "notReady", "failed"] j
    pure { ready := ← defaulted? ms "ready", notReady := ← defaulted? ms "notReady", failed := ← defaulted? ms "failed" }

/-- How far the operand has come. -/
inductive OperandStatus where
  | deploying
  | successful
  | failed
deriving DecidableEq, Inhabited

instance : Wire OperandStatus where
  encode
    | .deploying => .str "Deploying"
    | .successful => .str "Successful"
    | .failed => .str "Failed"
  decode? j :=
    match constant? j with
    | some "Deploying" => some .deploying
    | some "Successful" => some .successful
    | some "Failed" => some .failed
    | _ => none

/-- How far the operand has come, in words too. -/
structure OperandState where
  status : OperandStatus := .deploying
  message : String := ""
deriving DecidableEq, Inhabited

instance : Wire OperandState where
  encode x := .record [always "status" x.status, always "message" x.message]
  decode? j := do
    let ms ← positional? ["status", "message"] j
    pure { status := ← defaulted? ms "status", message := ← defaulted? ms "message" }

/-- What the operator reports about a custom resource. -/
structure IngressStatus where
  /-- The conditions of every owned kind. -/
  conditions : Dict (List Condition) := ∅
  podState : PodState := {}
  /-- The external host. -/
  host : String := ""
  operandState : OperandState := {}
deriving DecidableEq, Inhabited

instance : Wire IngressStatus where
  encode x := .record [entries "condition" x.conditions, always "podstate" x.podState, always "host" x.host,
    always "operandState" x.operandState]
  decode? j := do
    let ms ← positional? ["condition", "podstate", "host", "operandState"] j
    pure {
      conditions := ← defaulted? ms "condition", podState := ← defaulted? ms "podstate", host := ← defaulted? ms "host",
      operandState := ← defaulted? ms "operandState" }

/-! ### The resource -/

/-- A management ingress. -/
structure ManagementIngress where
  metadata : Meta := {}
  spec : IngressSpec := {}
  status : Option IngressStatus := none
deriving DecidableEq, Inhabited

namespace ManagementIngress

/-- The group and version of the resource. -/
def apiVersion : String := "operator.ibm.com/v1alpha1"

/-- The name of its kind. -/
def kind : String := "ManagementIngress"

instance : Wire ManagementIngress where
  encode x := .record [always "apiVersion" apiVersion, always "kind" kind, always "metadata" x.metadata, always "spec" x.spec,
    present "status" x.status]
  decode? j := do
    let ms ← positional? ["metadata", "spec", "status"] j
    pure { metadata := ← required? ms "metadata", spec := ← required? ms "spec", status := ← optional? ms "status" }

/-- Whether the operator takes care of it. -/
def isManaged (i : ManagementIngress) : Bool := i.spec.managementState == .managed

/-- Whether it is being deleted. -/
def isDeleting (i : ManagementIngress) : Bool := i.metadata.deletionTimestamp.isSome

/-- The host of the last report; empty if there is none. -/
def statusHost (i : ManagementIngress) : String := (i.status.map (·.host)).getD ""

end ManagementIngress

end IngressOperator
