import IngressOperator.Status.Mark
import IngressOperator.Steps

/-!
# Passes

A pass brings everything that one custom resource stands for to what it should be. It finds the external host, runs the steps
of the cluster's plan one after the other, and reports. A step that fails is reported and ends the pass; the next pass tries
again.
-/

namespace IngressOperator

/-! ### The plan -/

/-- A step of a pass. -/
inductive Step where
  | certificates
  | service
  | config
  | routes
  | clusterCa
  | deployment
deriving DecidableEq, Inhabited

namespace Step

/-- The name of a step. -/
def name : Step → String
  | certificates => "Certificates"
  | service => "Service"
  | config => "Config"
  | routes => "Routes"
  | clusterCa => "ClusterCa"
  | deployment => "Deployment"

/-- The kind of objects by which a step is reported. -/
def kind : Step → OwnedKind
  | certificates => .certificate
  | service => .service
  | config => .configMap
  | routes => .route
  | clusterCa => .secret
  | deployment => .deployment

end Step

/-- The steps of a pass, in order. -/
def Flavor.plan : Flavor → List Step
  | standard => [.certificates, .service, .config, .routes, .deployment]
  | cncf _ => [.certificates, .service, .config, .clusterCa, .deployment]

/-- What a pass depends on besides the custom resource and the cluster. -/
structure Setup where
  settings : Settings := {}
  flavor : Flavor := .standard
  /-- Whether the cluster knows certificates. -/
  certificatesServed : Bool := true
deriving DecidableEq, Inhabited

/-- The steps that are run: all of the plan, but certificates only where the cluster knows them. -/
def Setup.steps (s : Setup) : List Step := s.flavor.plan.filter fun step => step != .certificates || s.certificatesServed

/-- How a pass ends. -/
inductive PassOutcome where
  /-- Every step ran; this is what was done to each object. -/
  | completed (synced : List Synced)
  /-- The pass is to be run again after so many seconds. -/
  | requeue (seconds : Nat)
deriving DecidableEq

namespace Pass

/-! ### Hosts -/

/-- An action of a pass: it remembers the base domain, which is asked for at most once. -/
abbrev Remembering := StateT (Option String) Action

/-- The base domain. -/
def baseDomain : Remembering String := do
  match ← get with
  | some domain => pure domain
  | none =>
    let domain ← Action.baseDomain
    set (some domain)
    pure domain

/-- The external host: the custom resource's, else one derived from the cluster's domain. -/
def resolveHost (setup : Setup) (ingress : ManagementIngress) (ns : String) : Remembering String :=
  if !ingress.spec.routeHost.isEmpty then pure ingress.spec.routeHost
  else
    match setup.flavor with
    | .standard => do
      let base ← baseDomain
      pure (Host.console base ns ingress.spec.multipleInstancesEnabled)
    | .cncf domain => pure (Host.plainConsole domain)

/-! ### Steps -/

/-- What the cluster is said to be like. -/
def clusterInfo (setup : Setup) (ingress : ManagementIngress) (ns host : String) : Remembering (Dict String) :=
  match setup.flavor with
  | .standard => do
    let base ← baseDomain
    let api ← Action.apiServer
    let proxy := Host.proxy base ns ingress.spec.multipleInstancesEnabled
    pure (Desired.standardClusterInfo setup.settings ns host base api proxy)
  | .cncf domain => pure (Desired.plainClusterInfo setup.settings ns domain)

/-- Keeps the three config maps. -/
def config (setup : Setup) (ingress : ManagementIngress) (ns host : String) : Remembering (List Synced) := do
  let own ← Steps.configMap ingress (Desired.configMap ns Names.config ingress.spec.config) true
  let bind ← Steps.configMap ingress (Desired.configMap ns Names.bindInfo (Desired.bindInfo host)) false
  let info ← clusterInfo setup ingress ns host
  let cluster ← Steps.configMap ingress (Desired.configMap ns Names.clusterInfo info) false
  pure (own ++ bind ++ cluster)

/-- The domain of names within the cluster. -/
def clusterDomain (setup : Setup) : Action String :=
  match setup.flavor with
  | .standard => Action.clusterDomain
  | .cncf _ => pure Names.plainClusterDomain

/-- Keeps the deployment. -/
def deployment (setup : Setup) (ingress : ManagementIngress) (ns host : String) : Action Synced := do
  let clusterDomain ← clusterDomain setup
  let image ← ExceptT.mk (pure (Desired.operandImage ingress.spec setup.settings.image))
  Steps.deployment ingress {
    ns := ns
    image := image
    clusterDomain := clusterDomain
    allowedHostHeader := Desired.allowedHostHeader ingress.spec host ns
    namespacedWatch := setup.settings.watched.isSome }

/-- Runs a step for the external host. -/
def runStep (setup : Setup) (ingress : ManagementIngress) (ns host : String) : Step → Remembering (List Synced)
  | .certificates => Steps.certificates ingress ns (Host.withoutPort host)
  | .service => do
    let synced ← Steps.service ingress ns
    pure [synced]
  | .config => config setup ingress ns host
  | .routes => do
    let base ← baseDomain
    let proxy := Host.proxy base ns ingress.spec.multipleInstancesEnabled
    Steps.routes ingress setup.settings.secretWait ns (Host.withoutPort host) proxy
  | .clusterCa => Steps.clusterCaOnly ingress setup.settings.secretWait ns
  | .deployment => do
    let synced ← deployment setup ingress ns (Host.withoutPort host)
    pure [synced]

/-- Runs steps up to the first that fails, and marks in the status how each of them ended. -/
def runSteps (setup : Setup) (ingress : ManagementIngress) (ns host : String) :
    List Step → Option String → IngressStatus → Proc (IngressStatus × Except (OwnedKind × Failure) (List Synced))
  | [], _, status => pure (status, .ok [])
  | step :: rest, base, status => do
    match ← ((runStep setup ingress ns host step).run base).run with
    | .ok (done, base) =>
      let now ← Proc.request .now
      let (status, result) ← runSteps setup ingress ns host rest base (status.markReady step.kind.name now)
      pure (status, result.map (done ++ ·))
    | .error cause =>
      let now ← Proc.request .now
      let marked := status.markFailed step.kind.name cause.condition cause.message now
      pure (marked.withOperand .failed cause.message, .error (step.kind, cause))

/-! ### Reporting -/

/-- Writes the status unless it is what was written last; the answer is what is written then. -/
def writeStatus (ingress : ManagementIngress) (written status : IngressStatus) : Action IngressStatus :=
  if written = status then pure written
  else do
    Action.updateStatus ingress status
    pure status

/-- Begins a new report if the host is not that of the last one. -/
def announceHost (ingress : ManagementIngress) (written : IngressStatus) (host : String) : Action IngressStatus :=
  if written.host.isEmpty || written.host != host then do
    let now ← Action.now
    let message := s!"Get router host for management ingress at {now.plainText}"
    writeStatus ingress written (({ host := host } : IngressStatus).withOperand .deploying message)
  else pure written

/-- The message of a pass that completed. -/
def successMessage : String := "The management ingress is deployed successfully"

/-- Deletes a deployment that cannot be brought to what it should be; whether there was one. -/
def removeLegacy (ns : String) : Action Bool := do
  match ← Action.get .deployment ns Names.app with
  | none => pure false
  | some deployment =>
    if Desired.isLegacy deployment then do
      Action.delete .deployment ns Names.app
      pure true
    else pure false

/-- Reports a pass whose steps all ran: the pods of the operand, and that it is there. -/
def finish (ingress : ManagementIngress) (ns : String) (written status : IngressStatus) : Action Unit := do
  let pods ← Action.attempt (Action.list .pod ns s!"app={Names.app}")
  let status := match pods with
    | .ok pods => status.withPods pods
    | .error _ => status
  let _ ← writeStatus ingress written (status.withOperand .successful successMessage)

/-! ### The pass -/

/-- The part of a pass that knows the host. -/
def runWithHost (setup : Setup) (ingress : ManagementIngress) (ns : String) (written : IngressStatus) (host : String)
    (base : Option String) : Proc (Except PassFailure PassOutcome) := do
  match ← (announceHost ingress written host).run with
  | .error cause => pure (.error (.plain cause))
  | .ok written =>
    let (status, result) ← runSteps setup ingress ns host setup.steps base written
    match result with
    | .error (kind, cause) =>
      let _ ← (writeStatus ingress written status).run
      pure (.error (.step kind ingress.metadata.shownName cause))
    | .ok synced =>
      match ← (finish ingress ns written status).run with
      | .error cause => pure (.error (.plain cause))
      | .ok () => pure (.ok (.completed synced))

/-- Runs a pass for a custom resource. -/
def run (setup : Setup) (ingress : ManagementIngress) : Proc (Except PassFailure PassOutcome) := do
  let name := ingress.metadata.shownName
  match ingress.metadata.ns with
  | none => pure (.error (.plain (.metadataMissing (.namespaceOf ManagementIngress.kind name))))
  | some ns =>
    match ← (removeLegacy ns).run with
    | .error cause => pure (.error (.step .deployment name cause))
    | .ok true => pure (.ok (.requeue 5))
    | .ok false =>
      let written := ingress.status.getD {}
      match ← ((resolveHost setup ingress ns).run none).run with
      | .error cause =>
        let _ ← (writeStatus ingress written (written.withOperand .failed cause.message)).run
        pure (.error (.plain cause))
      | .ok (host, base) => runWithHost setup ingress ns written host base

end Pass

/-- Finds out whether the cluster serves routes: it does unless its platform's configuration says otherwise. -/
def detectFlavor (ns : String) : Action Flavor := do
  match ← Action.get .configMap ns Names.platformConfig with
  | none => pure .standard
  | some config =>
    let data := ConfigMap.data config |>.getD ∅
    if data.get? "kubernetes_cluster_type" != some "cncf" then pure .standard
    else
      match (data.get? "domain_name").filter fun d => !d.isEmpty with
      | some domain => pure (.cncf domain)
      | none => throw (.invalidArgument .noDomainName)

end IngressOperator
