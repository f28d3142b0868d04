import IngressOperator.Resource.Volume

/-!
# Pods

A pod with its containers, its volumes and where it may run, and how it fares. Where the operator looks into none of this, it
is carried along.
-/

namespace IngressOperator

open Wire

/-- A taint of a node that a pod puts up with. -/
structure Toleration where
  effect : Option String := none
  key : Option String := none
  operator : Option String := none
  tolerationSeconds : Option Int64 := none
  value : Option String := none
deriving DecidableEq, Inhabited

instance : Wire Toleration where
  encode x := .record [
    present "effect" x.effect, present "key" x.key, present "operator" x.operator,
    present "tolerationSeconds" x.tolerationSeconds, present "value" x.value]
  decode? j := do
    let ms ← j.members?
    pure {
      effect := ← optional? ms "effect", key := ← optional? ms "key", operator := ← optional? ms "operator",
      tolerationSeconds := ← optional? ms "tolerationSeconds", value := ← optional? ms "value" }

/-- A set of pods, by label and by place. -/
structure PodAffinityTerm where
  labelSelector : Option LabelSelector := none
  matchLabelKeys : Option (List String) := none
  mismatchLabelKeys : Option (List String) := none
  namespaceSelector : Option LabelSelector := none
  namespaces : Option (List String) := none
  topologyKey : String := ""
deriving DecidableEq, Inhabited

instance : Wire PodAffinityTerm where
  encode x := .record [
    present "labelSelector" x.labelSelector, present "matchLabelKeys" x.matchLabelKeys,
    present "mismatchLabelKeys" x.mismatchLabelKeys, present "namespaceSelector" x.namespaceSelector,
    present "namespaces" x.namespaces, always "topologyKey" x.topologyKey]
  decode? j := do
    let ms ← j.members?
    pure {
      labelSelector := ← optional? ms "labelSelector", matchLabelKeys := ← optional? ms "matchLabelKeys",
      mismatchLabelKeys := ← optional? ms "mismatchLabelKeys",
      namespaceSelector := ← optional? ms "namespaceSelector", namespaces := ← optional? ms "namespaces",
      topologyKey := ← lenient? ms "topologyKey" }

/-- A set of pods with a weight. -/
structure WeightedPodAffinityTerm where
  podAffinityTerm : PodAffinityTerm := default
  weight : Int32 := 0
deriving DecidableEq, Inhabited

instance : Wire WeightedPodAffinityTerm where
  encode x := .record [always "podAffinityTerm" x.podAffinityTerm, always "weight" x.weight]
  decode? j := do
    let ms ← j.members?
    pure { podAffinityTerm := ← lenient? ms "podAffinityTerm", weight := ← lenient? ms "weight" }

/-- The pods near which, or away from which, a pod is to run. -/
structure PodAffinity where
  preferred : Option (List WeightedPodAffinityTerm) := none
  required : Option (List PodAffinityTerm) := none
deriving DecidableEq, Inhabited

instance : Wire PodAffinity where
  encode x := .record [
    present "preferredDuringSchedulingIgnoredDuringExecution" x.preferred,
    present "requiredDuringSchedulingIgnoredDuringExecution" x.required]
  decode? j := do
    let ms ← j.members?
    pure {
      preferred := ← optional? ms "preferredDuringSchedulingIgnoredDuringExecution",
      required := ← optional? ms "requiredDuringSchedulingIgnoredDuringExecution" }

/-- A set of nodes, by label and by field. -/
abbrev NodeSelectorTerm := Carried [
  .optional "matchExpressions" (List SelectorRequirement), .optional "matchFields" (List SelectorRequirement)]

/-- A set of nodes with a weight. -/
abbrev WeightedNodeTerm := Carried [.always "preference" NodeSelectorTerm, .always "weight" Int32]

/-- Nodes of any of several sets. -/
abbrev NodeSelector := Carried [.always "nodeSelectorTerms" (List NodeSelectorTerm)]

/-- The nodes on which a pod is to run. -/
abbrev NodeAffinity := Carried [
  .optional "preferredDuringSchedulingIgnoredDuringExecution" (List WeightedNodeTerm),
  .optional "requiredDuringSchedulingIgnoredDuringExecution" NodeSelector]

/-- Where a pod is to run. -/
structure Affinity where
  nodeAffinity : Option NodeAffinity := none
  podAffinity : Option PodAffinity := none
  podAntiAffinity : Option PodAffinity := none
deriving DecidableEq, Inhabited

instance : Wire Affinity where
  encode x := .record [
    present "nodeAffinity" x.nodeAffinity, present "podAffinity" x.podAffinity, present "podAntiAffinity" x.podAntiAffinity]
  decode? j := do
    let ms ← j.members?
    pure {
      nodeAffinity := ← optional? ms "nodeAffinity", podAffinity := ← optional? ms "podAffinity",
      podAntiAffinity := ← optional? ms "podAntiAffinity" }

/-- How the pods of an application are spread over a cluster. -/
structure TopologySpread where
  labelSelector : Option LabelSelector := none
  matchLabelKeys : Option (List String) := none
  maxSkew : Int32 := 0
  minDomains : Option Int32 := none
  nodeAffinityPolicy : Option String := none
  nodeTaintsPolicy : Option String := none
  topologyKey : String := ""
  whenUnsatisfiable : String := ""
deriving DecidableEq, Inhabited

instance : Wire TopologySpread where
  encode x := .record [
    present "labelSelector" x.labelSelector, present "matchLabelKeys" x.matchLabelKeys, always "maxSkew" x.maxSkew,
    present "minDomains" x.minDomains, present "nodeAffinityPolicy" x.nodeAffinityPolicy,
    present "nodeTaintsPolicy" x.nodeTaintsPolicy, always "topologyKey" x.topologyKey,
    always "whenUnsatisfiable" x.whenUnsatisfiable]
  decode? j := do
    let ms ← j.members?
    pure {
      labelSelector := ← optional? ms "labelSelector", matchLabelKeys := ← optional? ms "matchLabelKeys",
      maxSkew := ← lenient? ms "maxSkew", minDomains := ← optional? ms "minDomains",
      nodeAffinityPolicy := ← optional? ms "nodeAffinityPolicy",
      nodeTaintsPolicy := ← optional? ms "nodeTaintsPolicy", topologyKey := ← lenient? ms "topologyKey",
      whenUnsatisfiable := ← lenient? ms "whenUnsatisfiable" }

/-- A setting of how names are looked up. -/
abbrev DnsOption := Carried [.optional "name" String, .optional "value" String]

/-- How a pod looks up names. -/
abbrev DnsConfig := Carried [
  .optional "nameservers" (List String), .optional "options" (List DnsOption), .optional "searches" (List String)]

/-- Names of an address. -/
abbrev HostAlias := Carried [.optional "hostnames" (List String), .always "ip" String]

/-- A condition without which a pod is not ready. -/
abbrev ReadinessGate := Carried [.always "conditionType" String]

/-- A claim that a pod has on resources. -/
abbrev PodResourceClaim := Carried [
  .always "name" String, .optional "resourceClaimName" String, .optional "resourceClaimTemplateName" String]

/-- What the containers of a pod may do, unless they say so themselves. -/
abbrev PodSecurityContext := Carried [
  .optional "appArmorProfile" SecurityProfile, .optional "fsGroup" Int64, .optional "fsGroupChangePolicy" String,
  .optional "runAsGroup" Int64, .optional "runAsNonRoot" Bool, .optional "runAsUser" Int64,
  .optional "seLinuxChangePolicy" String, .optional "seLinuxOptions" SELinuxOptions,
  .optional "seccompProfile" SecurityProfile, .optional "supplementalGroups" (List Int64),
  .optional "supplementalGroupsPolicy" String, .optional "sysctls" (List NamedText),
  .optional "windowsOptions" WindowsOptions]

/-- What a pod runs and where. -/
structure PodSpec where
  activeDeadlineSeconds : Option Int64 := none
  affinity : Option Affinity := none
  automountServiceAccountToken : Option Bool := none
  containers : List Container := []
  dnsConfig : Option DnsConfig := none
  dnsPolicy : Option String := none
  enableServiceLinks : Option Bool := none
  ephemeralContainers : Option (List EphemeralContainer) := none
  hostAliases : Option (List HostAlias) := none
  hostIPC : Option Bool := none
  hostNetwork : Option Bool := none
  hostPID : Option Bool := none
  hostUsers : Option Bool := none
  hostname : Option String := none
  imagePullSecrets : Option (List Named) := none
  initContainers : Option (List Container) := none
  nodeName : Option String := none
  nodeSelector : Option (Dict String) := none
  os : Option Named := none
  overhead : Option (Dict String) := none
  preemptionPolicy : Option String := none
  priority : Option Int32 := none
  priorityClassName : Option String := none
  readinessGates : Option (List ReadinessGate) := none
  resourceClaims : Option (List PodResourceClaim) := none
  resources : Option Resources := none
  restartPolicy : Option String := none
  runtimeClassName : Option String := none
  schedulerName : Option String := none
  schedulingGates : Option (List Named) := none
  securityContext : Option PodSecurityContext := none
  serviceAccount : Option String := none
  serviceAccountName : Option String := none
  setHostnameAsFQDN : Option Bool := none
  shareProcessNamespace : Option Bool := none
  subdomain : Option String := none
  terminationGracePeriodSeconds : Option Int64 := none
  tolerations : Option (List Toleration) := none
  topologySpreadConstraints : Option (List TopologySpread) := none
  volumes : Option (List Volume) := none
deriving DecidableEq, Inhabited

instance : Wire PodSpec where
  encode x := .record [
    present "activeDeadlineSeconds" x.activeDeadlineSeconds, present "affinity" x.affinity,
    present "automountServiceAccountToken" x.automountServiceAccountToken, always "containers" x.containers,
    present "dnsConfig" x.dnsConfig, present "dnsPolicy" x.dnsPolicy, present "enableServiceLinks" x.enableServiceLinks,
    present "ephemeralContainers" x.ephemeralContainers, present "hostAliases" x.hostAliases, present "hostIPC" x.hostIPC,
    present "hostNetwork" x.hostNetwork, present "hostPID" x.hostPID, present "hostUsers" x.hostUsers,
    present "hostname" x.hostname, present "imagePullSecrets" x.imagePullSecrets, present "initContainers" x.initContainers,
    present "nodeName" x.nodeName, present "nodeSelector" x.nodeSelector, present "os" x.os, present "overhead" x.overhead,
    present "preemptionPolicy" x.preemptionPolicy, present "priority" x.priority,
    present "priorityClassName" x.priorityClassName, present "readinessGates" x.readinessGates,
    present "resourceClaims" x.resourceClaims, present "resources" x.resources, present "restartPolicy" x.restartPolicy,
    present "runtimeClassName" x.runtimeClassName, present "schedulerName" x.schedulerName,
    present "schedulingGates" x.schedulingGates, present "securityContext" x.securityContext,
    present "serviceAccount" x.serviceAccount, present "serviceAccountName" x.serviceAccountName,
    present "setHostnameAsFQDN" x.setHostnameAsFQDN, present "shareProcessNamespace" x.shareProcessNamespace,
    present "subdomain" x.subdomain, present "terminationGracePeriodSeconds" x.terminationGracePeriodSeconds,
    present "tolerations" x.tolerations, present "topologySpreadConstraints" x.topologySpreadConstraints,
    present "volumes" x.volumes]
  decode? j := do
    let ms ← j.members?
    pure {
      activeDeadlineSeconds := ← optional? ms "activeDeadlineSeconds", affinity := ← optional? ms "affinity",
      automountServiceAccountToken := ← optional? ms "automountServiceAccountToken",
      containers := ← lenient? ms "containers", dnsConfig := ← optional? ms "dnsConfig",
      dnsPolicy := ← optional? ms "dnsPolicy", enableServiceLinks := ← optional? ms "enableServiceLinks",
      ephemeralContainers := ← optional? ms "ephemeralContainers", hostAliases := ← optional? ms "hostAliases",
      hostIPC := ← optional? ms "hostIPC", hostNetwork := ← optional? ms "hostNetwork", hostPID := ← optional? ms "hostPID",
      hostUsers := ← optional? ms "hostUsers", hostname := ← optional? ms "hostname",
      imagePullSecrets := ← optional? ms "imagePullSecrets", initContainers := ← optional? ms "initContainers",
      nodeName := ← optional? ms "nodeName", nodeSelector := ← optional? ms "nodeSelector", os := ← optional? ms "os",
      overhead := ← optional? ms "overhead", preemptionPolicy := ← optional? ms "preemptionPolicy",
      priority := ← optional? ms "priority", priorityClassName := ← optional? ms "priorityClassName",
      readinessGates := ← optional? ms "readinessGates", resourceClaims := ← optional? ms "resourceClaims",
      resources := ← optional? ms "resources", restartPolicy := ← optional? ms "restartPolicy",
      runtimeClassName := ← optional? ms "runtimeClassName", schedulerName := ← optional? ms "schedulerName",
      schedulingGates := ← optional? ms "schedulingGates", securityContext := ← optional? ms "securityContext",
      serviceAccount := ← optional? ms "serviceAccount", serviceAccountName := ← optional? ms "serviceAccountName",
      setHostnameAsFQDN := ← optional? ms "setHostnameAsFQDN",
      shareProcessNamespace := ← optional? ms "shareProcessNamespace", subdomain := ← optional? ms "subdomain",
      terminationGracePeriodSeconds := ← optional? ms "terminationGracePeriodSeconds",
      tolerations := ← optional? ms "tolerations", topologySpreadConstraints := ← optional? ms "topologySpreadConstraints",
      volumes := ← optional? ms "volumes" }

/-- A container that runs. -/
abbrev RunningState := Carried [.optional "startedAt" Stamp]

/-- A container that has ended. -/
abbrev TerminatedState := Carried [
  .optional "containerID" String, .always "exitCode" Int32, .optional "finishedAt" Stamp, .optional "message" String,
  .optional "reason" String, .optional "signal" Int32, .optional "startedAt" Stamp]

/-- A container that is yet to start. -/
abbrev WaitingState := Carried [.optional "message" String, .optional "reason" String]

/-- Whether a container runs, has ended or is yet to start. -/
abbrev ContainerState := Carried [
  .optional "running" RunningState, .optional "terminated" TerminatedState, .optional "waiting" WaitingState]

/-- Whether a resource is well. -/
abbrev ResourceHealth := Carried [.optional "health" String, .always "resourceID" String]

/-- Whether the resources of one name that a container was given are well. -/
abbrev ResourceStatus := Carried [.always "name" String, .optional "resources" (List ResourceHealth)]

/-- A user of the operating system. -/
abbrev LinuxUser := Carried [.always "gid" Int64, .optional "supplementalGroups" (List Int64), .always "uid" Int64]

/-- The user that a container was started as. -/
abbrev ContainerUser := Carried [.optional "linux" LinuxUser]

/-- How a volume was mounted. -/
abbrev MountStatus := Carried [
  .always "mountPath" String, .always "name" String, .optional "readOnly" Bool, .optional "recursiveReadOnly" String]

/-- How a container fares. -/
structure ContainerStatus where
  allocatedResources : Option (Dict String) := none
  allocatedResourcesStatus : Option (List ResourceStatus) := none
  containerID : Option String := none
  image : String := ""
  imageID : String := ""
  lastState : Option ContainerState := none
  name : String := ""
  ready : Bool := false
  resources : Option Resources := none
  restartCount : Int32 := 0
  started : Option Bool := none
  state : Option ContainerState := none
  stopSignal : Option String := none
  user : Option ContainerUser := none
  volumeMounts : Option (List MountStatus) := none
deriving DecidableEq, Inhabited

instance : Wire ContainerStatus where
  encode x := .record [
    present "allocatedResources" x.allocatedResources, present "allocatedResourcesStatus" x.allocatedResourcesStatus,
    present "containerID" x.containerID, always "image" x.image, always "imageID" x.imageID,
    present "lastState" x.lastState, always "name" x.name, always "ready" x.ready, present "resources" x.resources,
    always "restartCount" x.restartCount, present "started" x.started, present "state" x.state,
    present "stopSignal" x.stopSignal, present "user" x.user, present "volumeMounts" x.volumeMounts]
  decode? j := do
    let ms ← j.members?
    pure {
      allocatedResources := ← optional? ms "allocatedResources",
      allocatedResourcesStatus := ← optional? ms "allocatedResourcesStatus", containerID := ← optional? ms "containerID",
      image := ← lenient? ms "image", imageID := ← lenient? ms "imageID", lastState := ← optional? ms "lastState",
      name := ← lenient? ms "name", ready := ← lenient? ms "ready", resources := ← optional? ms "resources",
      restartCount := ← lenient? ms "restartCount", started := ← optional? ms "started", state := ← optional? ms "state",
      stopSignal := ← optional? ms "stopSignal", user := ← optional? ms "user",
      volumeMounts := ← optional? ms "volumeMounts" }

/-- Something that is or is not true of a pod. -/
abbrev PodCondition := Carried [
  .optional "lastProbeTime" Stamp, .optional "lastTransitionTime" Stamp, .optional "message" String,
  .optional "observedGeneration" Int64, .optional "reason" String, .always "status" String, .always "type" String]

/-- An address of a pod or of its node. -/
abbrev PodAddress := Carried [.always "ip" String]

/-- The claim that was made for a pod. -/
abbrev ResourceClaimStatus := Carried [.always "name" String, .optional "resourceClaimName" String]

/-- How a pod fares. -/
structure PodStatus where
  conditions : Option (List PodCondition) := none
  containerStatuses : Option (List ContainerStatus) := none
  ephemeralContainerStatuses : Option (List ContainerStatus) := none
  hostIP : Option String := none
  hostIPs : Option (List PodAddress) := none
  initContainerStatuses : Option (List ContainerStatus) := none
  message : Option String := none
  nominatedNodeName : Option String := none
  observedGeneration : Option Int64 := none
  phase : Option String := none
  podIP : Option String := none
  podIPs : Option (List PodAddress) := none
  qosClass : Option String := none
  reason : Option String := none
  resize : Option String := none
  resourceClaimStatuses : Option (List ResourceClaimStatus) := none
  startTime : Option Stamp := none
deriving DecidableEq, Inhabited

instance : Wire PodStatus where
  encode x := .record [
    present "conditions" x.conditions, present "containerStatuses" x.containerStatuses,
    present "ephemeralContainerStatuses" x.ephemeralContainerStatuses, present "hostIP" x.hostIP,
    present "hostIPs" x.hostIPs, present "initContainerStatuses" x.initContainerStatuses, present "message" x.message,
    present "nominatedNodeName" x.nominatedNodeName, present "observedGeneration" x.observedGeneration,
    present "phase" x.phase, present "podIP" x.podIP, present "podIPs" x.podIPs, present "qosClass" x.qosClass,
    present "reason" x.reason, present "resize" x.resize, present "resourceClaimStatuses" x.resourceClaimStatuses,
    present "startTime" x.startTime]
  decode? j := do
    let ms ← j.members?
    pure {
      conditions := ← optional? ms "conditions", containerStatuses := ← optional? ms "containerStatuses",
      ephemeralContainerStatuses := ← optional? ms "ephemeralContainerStatuses", hostIP := ← optional? ms "hostIP",
      hostIPs := ← optional? ms "hostIPs", initContainerStatuses := ← optional? ms "initContainerStatuses",
      message := ← optional? ms "message", nominatedNodeName := ← optional? ms "nominatedNodeName",
      observedGeneration := ← optional? ms "observedGeneration", phase := ← optional? ms "phase",
      podIP := ← optional? ms "podIP", podIPs := ← optional? ms "podIPs", qosClass := ← optional? ms "qosClass",
      reason := ← optional? ms "reason", resize := ← optional? ms "resize",
      resourceClaimStatuses := ← optional? ms "resourceClaimStatuses", startTime := ← optional? ms "startTime" }

/-- A pod. -/
structure Pod where
  metadata : Meta := {}
  spec : Option PodSpec := none
  status : Option PodStatus := none
deriving DecidableEq, Inhabited

instance : Wire Pod where
  encode x := .record [always "apiVersion" "v1", always "kind" "Pod", always "metadata" x.metadata, present "spec" x.spec,
    present "status" x.status]
  decode? j := do
    let ms ← j.members?
    fixed? ms "apiVersion" "v1"
    fixed? ms "kind" "Pod"
    pure { metadata := ← lenient? ms "metadata", spec := ← optional? ms "spec", status := ← optional? ms "status" }

end IngressOperator
