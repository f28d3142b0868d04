import IngressOperator.Desired.Deployment
import IngressOperator.Desired.Route
import IngressOperator.Ensure
import IngressOperator.Time.Rfc2822

/-!
# Steps

The steps of a pass, each of which keeps the objects of one kind: certificates, the service, config maps, routes with the
authority's secret, and the deployment. A step says what it did to each object, in order.
-/

namespace IngressOperator.Steps

/-! ### Certificates and service -/

/-- Keeps the certificate of the service and, unless it is not wanted, that of the console route. -/
def certificates (ingress : ManagementIngress) (ns host : String) : Action (List Synced) := do
  let cert := ingress.spec.cert
  let service ← ensure ingress .certificate (Desired.serviceCertificate ns cert)
  if ingress.spec.ignoreRouteCert then pure [service]
  else do
    let route ← ensure ingress .certificate (Desired.routeCertificate ns host cert)
    pure [service, route]

/-- Keeps the service. -/
def service (ingress : ManagementIngress) (ns : String) : Action Synced := ensure ingress .service (Desired.service ns)

/-! ### Config maps -/

/-- The deployment with the time of a change of its configuration noted on its pods. -/
def stamped (d : Deployment) (now : Instant) : Deployment :=
  let spec := d.spec.getD {}
  let metadata := spec.template.metadata.getD {}
  let annotations := (metadata.annotations.getD ∅).insert Names.configUpdated (Rfc2822.encode now)
  { d with
    spec := some
      { spec with
        template := { spec.template with metadata := some { metadata with annotations := some annotations } } } }

/-- Replaces the pods of the operand. A failure is passed over; a deployment that is missing will be created with the new
configuration anyway. -/
def restart (ns : String) : Action (List Synced) := do
  match ← Action.attempt (Action.get .deployment ns Names.app) with
  | .ok (some deployment) =>
    let now ← Action.now
    match ← Action.attempt (Action.update .deployment (stamped deployment now)) with
    | .ok _ => pure [⟨.deployment, Names.app, .updated⟩]
    | .error _ => pure []
  | _ => pure []

/-- Keeps a config map; if it had to be changed and the operand reads it when it starts, the operand's pods are replaced. -/
def configMap (ingress : ManagementIngress) (desired : ConfigMap) (restarts : Bool) : Action (List Synced) := do
  let synced ← ensure ingress .configMap desired
  if restarts && synced.outcome == .updated then do
    let restarted ← restart (desired.metadata.ns.getD "")
    pure (synced :: restarted)
  else pure [synced]

/-! ### Secrets and routes -/

/-- Whether a secret holds a certificate. -/
def hasCertificate (s : Secret) : Bool := !(s.value "tls.crt").isEmpty

/-- Waits until a secret exists and holds a certificate. -/
def awaitSecret (wait : WaitPolicy) (ns name : String) : Action Secret :=
  Action.ofRequest (waitFor Proc.clock wait s!"secret {name}" do
    match ← Proc.request (.get .secret ns name) with
    | .ok found => pure (.ok (Option.filter hasCertificate found))
    | .error e => pure (.error e))

/-- Publishes the authority of a secret. -/
def clusterCa (ingress : ManagementIngress) (ns : String) (source : Secret) : Action Synced :=
  ensure ingress .secret (Desired.clusterCa ns (source.value Desired.caKey))

/-- The certificates of the console route and the secret whose authority is published: those of the service alone if the route
goes without a certificate of its own. -/
def routeMaterial (ingress : ManagementIngress) (wait : WaitPolicy) (ns : String) (serviceSecret : Secret) :
    Action (Option Desired.TlsMaterial × Secret) :=
  if ingress.spec.ignoreRouteCert then pure (none, serviceSecret)
  else do
    let routeSecret ← awaitSecret wait ns Names.routeSecret
    pure (some (Desired.TlsMaterial.ofSecrets routeSecret serviceSecret), routeSecret)

/-- Publishes the authority, and keeps the routes of the console and the proxy. -/
def publish (ingress : ManagementIngress) (ns consoleHost proxyHost : String) (material : Option Desired.TlsMaterial)
    (source : Secret) : Action (List Synced) := do
  let ca ← clusterCa ingress ns source
  let console ← ensure ingress .route (Desired.route ns Names.consoleRoute Names.service consoleHost material)
  let proxy ← ensureCreated ingress .route (Desired.route ns Names.proxyRoute Names.proxyService proxyHost none)
  pure [ca, console, proxy]

/-- Waits for the secrets that the routes need, and keeps the routes. -/
def routes (ingress : ManagementIngress) (wait : WaitPolicy) (ns consoleHost proxyHost : String) : Action (List Synced) := do
  let serviceSecret ← awaitSecret wait ns Names.serviceSecret
  let (material, source) ← routeMaterial ingress wait ns serviceSecret
  publish ingress ns consoleHost proxyHost material source

/-- Waits for the secret whose authority is published on a cluster without routes, and publishes it. -/
def clusterCaOnly (ingress : ManagementIngress) (wait : WaitPolicy) (ns : String) : Action (List Synced) := do
  let source ← awaitSecret wait ns (if ingress.spec.ignoreRouteCert then Names.serviceSecret else Names.routeSecret)
  let ca ← clusterCa ingress ns source
  pure [ca]

/-! ### Deployment -/

/-- Keeps the deployment. -/
def deployment (ingress : ManagementIngress) (params : Desired.DeploymentParams) : Action Synced :=
  ensure ingress .deployment (Desired.deployment ingress params)

end IngressOperator.Steps
