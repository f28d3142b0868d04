import IngressOperator.Desired.Certificate
import IngressOperator.Failure
import IngressOperator.Text.Blank

/-!
# The desired deployment
-/

namespace IngressOperator.Desired

/-- What the pods of the operand depend on besides the custom resource. -/
structure DeploymentParams where
  ns : String := ""
  image : String := ""
  /-- The domain of names within the cluster. -/
  clusterDomain : String := ""
  allowedHostHeader : String := ""
  /-- Whether the operand is restricted to the namespaces of its scope. -/
  namespacedWatch : Bool := false
deriving DecidableEq, Inhabited

/-! ### Image and host names -/

/-- The registry of an image without blanks around it and without slashes at its end. -/
def registryOf (s : String) : List Char := Text.dropEndWhile (· == '/') (Text.trim s.toList)

/-- The image of the operand: registry, repository and tag of the custom resource, else the fallback. -/
def operandImage (spec : IngressSpec) (fallback : Option String) : Except Failure String :=
  let repository := Text.trim spec.image.repository.toList
  if !repository.isEmpty then
    let registry := registryOf spec.imageRegistry
    let path := if registry.isEmpty then repository else registry ++ '/' :: repository
    let tag := spec.image.tag.toList
    .ok (String.ofList (if tag.isEmpty then path else path ++ ':' :: tag))
  else
    match fallback.filter fun image => !image.isEmpty with
    | some image => .ok image
    | none => .error (.invalidArgument .noOperandImage)

/-- The names that the operand accepts in a Host header: those of the user, the external host, and the names of the services. -/
def allowedHostHeader (spec : IngressSpec) (host ns : String) : String :=
  let services := [Names.service, Names.iamTokenService].flatMap fun s => [s, s!"{s}.{ns}", s!"{s}.{ns}.svc"]
  let own := if spec.allowedHostHeader.isEmpty then [] else [spec.allowedHostHeader]
  " ".intercalate (own ++ host :: services)

/-- Whether a deployment selects its pods by an empty managed-by label; such a one cannot be changed and has to go. -/
def isLegacy (d : Deployment) : Bool :=
  ((d.spec.bind (·.selector.matchLabels)).bind (·.get? Names.managedByLabel)).any (·.isEmpty)

/-! ### The container -/

/-- The port of the operand for encrypted requests. -/
def httpsPort : Int32 := 8443

/-- The port of the operand for all other requests. -/
def httpPort : Int32 := 8080

/-- The volume with the certificate of the service. -/
def tlsVolume : String := "tls-secret"

/-- The resources of the operand unless the custom resource names others. -/
def defaultResources : Resources :=
  { limits := some (.ofList [("memory", "512Mi"), ("cpu", "200m")])
    requests := some (.ofList [("memory", "300Mi"), ("cpu", "50m")]) }

/-- A variable with a given value. -/
def envValue (name value : String) : EnvVar := { name := name, value := some value }

/-- A variable whose value is the key of a config map. -/
def envConfig (name map key : String) : EnvVar :=
  { name := name, valueFrom := some { configMapKeyRef := some { name := map, key := key } } }

/-- A variable whose value is the key of a secret. -/
def envSecret (name secret key : String) : EnvVar :=
  { name := name, valueFrom := some { secretKeyRef := some { name := secret, key := key } } }

/-- A variable whose value is a field of the pod. -/
def envField (name path : String) : EnvVar :=
  { name := name, valueFrom := some { fieldRef := some { apiVersion := some "v1", fieldPath := path } } }

/-- The environment of the operand. -/
def environment (spec : IngressSpec) (params : DeploymentParams) : List EnvVar := [
  envConfig "WATCH_NAMESPACE" Names.namespaceScope "namespaces",
  envValue "ENABLE_IMPERSONATION" "false",
  envValue "APISERVER_SECURE_PORT" "6443",
  envValue "CLUSTER_DOMAIN" params.clusterDomain,
  envValue "HOST_HEADERS_CHECK_ENABLED" "false",
  envValue "ALLOWED_HOST_HEADERS" params.allowedHostHeader,
  envConfig "OIDC_ISSUER_URL" Names.platformAuth "OIDC_ISSUER_URL",
  envSecret "WLP_CLIENT_ID" Names.platformCredentials "WLP_CLIENT_ID",
  envField "POD_NAME" "metadata.name",
  envField "POD_NAMESPACE" "metadata.namespace",
  envValue "FIPS_ENABLED" (if spec.fipsEnabled then "true" else "false")]

/-- The command of the operand. -/
def command (params : DeploymentParams) : List String :=
  ["/icp-management-ingress",
    s!"--default-ssl-certificate=$(POD_NAMESPACE)/{Names.serviceSecret}",
    s!"--configmap=$(POD_NAMESPACE)/{Names.config}",
    s!"--http-port={httpPort.toInt}",
    s!"--https-port={httpsPort.toInt}"] ++
  if params.namespacedWatch then ["--watch-namespace=$(WATCH_NAMESPACE)"] else []

/-- The question whether the operand is well. -/
def healthProbe (failureThreshold : Option Int32) : Probe :=
  { httpGet := some { path := some "/healthz", port := .int httpPort, scheme := some "HTTP" }
    timeoutSeconds := some 1
    initialDelaySeconds := some 10
    periodSeconds := some 10
    failureThreshold := failureThreshold }

/-- The container of the operand. -/
def container (spec : IngressSpec) (params : DeploymentParams) : Container :=
  { name := Names.app
    image := some params.image
    imagePullPolicy := some "IfNotPresent"
    command := some (command params)
    resources := some (spec.resources.getD defaultResources)
    ports := some [
      { name := some "https", containerPort := httpsPort, protocol := some "TCP" },
      { name := some "http", containerPort := httpPort, protocol := some "TCP" }]
    env := some (environment spec params)
    securityContext := some { privileged := some false, allowPrivilegeEscalation := some false }
    livenessProbe := some (healthProbe (some 10))
    readinessProbe := some (healthProbe none)
    volumeMounts := some [{ name := tlsVolume, mountPath := "/var/run/secrets/tls" }] }

/-! ### The pods -/

/-- Puts up with a node under pressure. -/
def pressureToleration (key : String) : Toleration :=
  { key := some key, operator := some "Exists", effect := some "NoSchedule" }

/-- The pods of the operand are spread over zones and regions. -/
def spread (topologyKey : String) : TopologySpread :=
  { maxSkew := 1, topologyKey := topologyKey, whenUnsatisfiable := "ScheduleAnyway",
    labelSelector := some { matchLabels := some (.ofList [("app", Names.app)]) } }

/-- The pods of the operand keep apart if they can. -/
def antiAffinity : Affinity :=
  let requirement (key : String) : SelectorRequirement := { key := key, operator := "In", values := some [Names.app] }
  { podAntiAffinity := some {
      preferred := some [{
        weight := 100
        podAffinityTerm := {
          labelSelector := some { matchExpressions := some [requirement "app", requirement "component"] }
          topologyKey := "kubernetes.io/hostname" } }] } }

/-- The pods of the operand. -/
def podSpec (spec : IngressSpec) (params : DeploymentParams) : PodSpec :=
  { containers := [container spec params]
    serviceAccountName := some Names.serviceAccount
    nodeSelector := spec.nodeSelector
    tolerations := some (spec.tolerations.getD [] ++
      [pressureToleration "node.kubernetes.io/memory-pressure", pressureToleration "node.kubernetes.io/disk-pressure"])
    affinity := some antiAffinity
    topologySpreadConstraints := some [spread "topology.kubernetes.io/zone", spread "topology.kubernetes.io/region"]
    volumes := some [{
      name := tlsVolume, secret := some { secretName := some Names.serviceSecret, defaultMode := some 420 } }]
    terminationGracePeriodSeconds := some 30 }

/-- The number of pods: one if unset or not positive. -/
def replicas (spec : IngressSpec) : Int32 := (spec.replicas.filter fun n => 0 < n).getD 1

/-- The deployment of the operand. -/
def deployment (ingress : ManagementIngress) (params : DeploymentParams) : Deployment :=
  { metadata := { ownedMeta params.ns Names.app with annotations := some Names.annotations }
    spec := some {
      replicas := some (replicas ingress.spec)
      selector := { matchLabels := some Names.labels }
      template := {
        metadata := some {
          name := some Names.app
          labels := some (Names.labels.insert "intent" "projected")
          annotations := some (Names.annotations.insertMany [
            ("scheduler.alpha.kubernetes.io/critical-pod", ""),
            ("clusterhealth.ibm.com/dependencies", "cert-manager, auth-idp")]) }
        spec := some (podSpec ingress.spec params) } } }

end IngressOperator.Desired
