import IngressOperator.Resource.Meta

/-!
# Services

The service in front of the operand.
-/

namespace IngressOperator

open Wire

/-- A port of a service. -/
structure ServicePort where
  appProtocol : Option String := none
  name : Option String := none
  nodePort : Option Int32 := none
  port : Int32 := 0
  protocol : Option String := none
  targetPort : Option IntOrString := none
deriving DecidableEq, Inhabited

instance : Wire ServicePort where
  encode x := .record [
    present "appProtocol" x.appProtocol, present "name" x.name, present "nodePort" x.nodePort, always "port" x.port,
    present "protocol" x.protocol, present "targetPort" x.targetPort]
  decode? j := do
    let ms ← j.members?
    pure {
      appProtocol := ← optional? ms "appProtocol", name := ← optional? ms "name",
      nodePort := ← optional? ms "nodePort", port := ← lenient? ms "port", protocol := ← optional? ms "protocol",
      targetPort := ← optional? ms "targetPort" }

/-- How long an address is led to the same pod. -/
abbrev ClientAffinity := Carried [.optional "timeoutSeconds" Int32]

/-- How long a client is led to the same pod. -/
abbrev SessionAffinityConfig := Carried [.optional "clientIP" ClientAffinity]

/-- Which pods a service leads to, and through which ports. -/
structure ServiceSpec where
  allocateLoadBalancerNodePorts : Option Bool := none
  clusterIP : Option String := none
  clusterIPs : Option (List String) := none
  externalIPs : Option (List String) := none
  externalName : Option String := none
  externalTrafficPolicy : Option String := none
  healthCheckNodePort : Option Int32 := none
  internalTrafficPolicy : Option String := none
  ipFamilies : Option (List String) := none
  ipFamilyPolicy : Option String := none
  loadBalancerClass : Option String := none
  loadBalancerIP : Option String := none
  loadBalancerSourceRanges : Option (List String) := none
  ports : Option (List ServicePort) := none
  publishNotReadyAddresses : Option Bool := none
  selector : Option (Dict String) := none
  sessionAffinity : Option String := none
  sessionAffinityConfig : Option SessionAffinityConfig := none
  trafficDistribution : Option String := none
  type : Option String := none
deriving DecidableEq, Inhabited

instance : Wire ServiceSpec where
  encode x := .record [
    present "allocateLoadBalancerNodePorts" x.allocateLoadBalancerNodePorts, present "clusterIP" x.clusterIP,
    present "clusterIPs" x.clusterIPs, present "externalIPs" x.externalIPs, present "externalName" x.externalName,
    present "externalTrafficPolicy" x.externalTrafficPolicy, present "healthCheckNodePort" x.healthCheckNodePort,
    present "internalTrafficPolicy" x.internalTrafficPolicy, present "ipFamilies" x.ipFamilies,
    present "ipFamilyPolicy" x.ipFamilyPolicy, present "loadBalancerClass" x.loadBalancerClass,
    present "loadBalancerIP" x.loadBalancerIP, present "loadBalancerSourceRanges" x.loadBalancerSourceRanges,
    present "ports" x.ports, present "publishNotReadyAddresses" x.publishNotReadyAddresses, present "selector" x.selector,
    present "sessionAffinity" x.sessionAffinity, present "sessionAffinityConfig" x.sessionAffinityConfig,
    present "trafficDistribution" x.trafficDistribution, present "type" x.type]
  decode? j := do
    let ms ← j.members?
    pure {
      allocateLoadBalancerNodePorts := ← optional? ms "allocateLoadBalancerNodePorts",
      clusterIP := ← optional? ms "clusterIP", clusterIPs := ← optional? ms "clusterIPs",
      externalIPs := ← optional? ms "externalIPs", externalName := ← optional? ms "externalName",
      externalTrafficPolicy := ← optional? ms "externalTrafficPolicy",
      healthCheckNodePort := ← optional? ms "healthCheckNodePort",
      internalTrafficPolicy := ← optional? ms "internalTrafficPolicy", ipFamilies := ← optional? ms "ipFamilies",
      ipFamilyPolicy := ← optional? ms "ipFamilyPolicy", loadBalancerClass := ← optional? ms "loadBalancerClass",
      loadBalancerIP := ← optional? ms "loadBalancerIP",
      loadBalancerSourceRanges := ← optional? ms "loadBalancerSourceRanges", ports := ← optional? ms "ports",
      publishNotReadyAddresses := ← optional? ms "publishNotReadyAddresses", selector := ← optional? ms "selector",
      sessionAffinity := ← optional? ms "sessionAffinity", sessionAffinityConfig := ← optional? ms "sessionAffinityConfig",
      trafficDistribution := ← optional? ms "trafficDistribution", type := ← optional? ms "type" }

/-- How a load balancer serves a port. -/
abbrev LoadBalancerPort := Carried [.optional "error" String, .always "port" Int32, .always "protocol" String]

/-- An address at which a load balancer is reached. -/
structure LoadBalancerIngress where
  hostname : Option String := none
  ip : Option String := none
  ipMode : Option String := none
  ports : Option (List LoadBalancerPort) := none
deriving DecidableEq, Inhabited

instance : Wire LoadBalancerIngress where
  encode x := .record [
    present "hostname" x.hostname, present "ip" x.ip, present "ipMode" x.ipMode, present "ports" x.ports]
  decode? j := do
    let ms ← j.members?
    pure {
      hostname := ← optional? ms "hostname", ip := ← optional? ms "ip", ipMode := ← optional? ms "ipMode",
      ports := ← optional? ms "ports" }

/-- The addresses of a load balancer. -/
structure LoadBalancerStatus where
  ingress : Option (List LoadBalancerIngress) := none
deriving DecidableEq, Inhabited

instance : Wire LoadBalancerStatus where
  encode x := .record [present "ingress" x.ingress]
  decode? j := do
    let ms ← j.members?
    pure { ingress := ← optional? ms "ingress" }

/-- Something that is or is not true of a service. -/
abbrev ServiceCondition := Carried [
  .always "lastTransitionTime" Stamp, .always "message" String, .optional "observedGeneration" Int64,
  .always "reason" String, .always "status" String, .always "type" String]

/-- How a service is reached from outside. -/
structure ServiceStatus where
  conditions : Option (List ServiceCondition) := none
  loadBalancer : Option LoadBalancerStatus := none
deriving DecidableEq, Inhabited

instance : Wire ServiceStatus where
  encode x := .record [
    present "conditions" x.conditions, present "loadBalancer" x.loadBalancer]
  decode? j := do
    let ms ← j.members?
    pure {
      conditions := ← optional? ms "conditions", loadBalancer := ← optional? ms "loadBalancer" }

/-- A service. -/
structure Service where
  metadata : Meta := {}
  spec : Option ServiceSpec := none
  status : Option ServiceStatus := none
deriving DecidableEq, Inhabited

instance : Wire Service where
  encode x := .record [always "apiVersion" "v1", always "kind" "Service", always "metadata" x.metadata, present "spec" x.spec,
    present "status" x.status]
  decode? j := do
    let ms ← j.members?
    fixed? ms "apiVersion" "v1"
    fixed? ms "kind" "Service"
    pure { metadata := ← lenient? ms "metadata", spec := ← optional? ms "spec", status := ← optional? ms "status" }

end IngressOperator
