import IngressOperator.Proofs.Steps.Targets

/-!
# The pieces of passes

Every step of a plan asks for things that it only looks at, and keeps the objects of its own; that of config maps also replaces the
pods of the operand. A pass besides that removes a deployment which cannot stay, and reports. What is kept when a program goes on,
and is so of each of these pieces, is so of every pass by the plan.

## Main statements

* `Pass.Units.runStep`: a property of what the steps of a plan are made of is one of each of them.
* `Pass.Entire.run`: a property of the pieces of a pass is one of the pass.
-/

namespace IngressOperator

/-- Whether a request asks for nothing to be written. -/
def Request.Looks : Request → Prop
  | .create _ _ | .update _ _ | .delete _ _ _ | .updateStatus _ _ => False
  | _ => True

/-- Whether a request asks for objects or the time, or lets time pass. -/
def Request.Observes : Request → Prop
  | .get _ _ _ | .list _ _ _ | .now | .sleep _ => True
  | _ => False

/-- Whether a request asks what the cluster is like. -/
def Request.Discovers : Request → Prop
  | .baseDomain | .clusterDomain | .apiServer => True
  | _ => False

/-- A request that asks for nothing to be written names no object to be changed. -/
theorem Request.Looks.target?_eq_none {r : Request} (hr : r.Looks) : r.target? = none := by
  cases r with
  | create _ _ => exact absurd hr id
  | update _ _ => exact absurd hr id
  | delete _ _ _ => exact absurd hr id
  | updateStatus _ _ => exact absurd hr id
  | _ => rfl

/-- Asking for objects or the time writes nothing. -/
theorem Request.Observes.looks {r : Request} (hr : r.Observes) : r.Looks := by
  cases r with
  | get _ _ _ => trivial
  | list _ _ _ => trivial
  | now => trivial
  | sleep _ => trivial
  | _ => exact absurd hr id

/-- Asking what the cluster is like writes nothing. -/
theorem Request.Discovers.looks {r : Request} (hr : r.Discovers) : r.Looks := by
  cases r with
  | baseDomain => trivial
  | clusterDomain => trivial
  | apiServer => trivial
  | _ => exact absurd hr id

variable {α β : Type} {P : {α : Type} → Proc α → Prop}

/-! ### Going on -/

/-- An action that remembers the base domain and goes on has what both of its parts have. -/
theorem Proc.Composes.remembering (hP : Proc.Composes P) {x : Pass.Remembering α} {f : α → Pass.Remembering β}
    {base : Option String} (hx : P (x.run base).run) (hf : ∀ a base, P ((f a).run base).run) : P ((x >>= f).run base).run :=
  hP.action hx fun y => hf y.1 y.2

theorem Proc.Composes.lift (hP : Proc.Composes P) {a : Action α} (ha : P a.run) (base : Option String) :
    P ((liftM a : Pass.Remembering α).run base).run :=
  hP.action ha fun _ => hP.done _

/-- Keeping a config map has what keeping the object has, and replacing the pods of the operand if that may follow. -/
theorem Proc.Composes.configMap (hP : Proc.Composes P) {ingress : ManagementIngress} {desired : ConfigMap} {ns : String}
    {restarts : Bool} (hns : desired.metadata.ns = some ns) (hensure : P (ensure ingress .configMap desired).run)
    (hrestart : restarts = true → P (Steps.restart ns).run) : P (Steps.configMap ingress desired restarts).run := by
  refine hP.action hensure fun synced => ?_
  split
  · next hupdated =>
    have hrestarts : restarts = true := (Bool.and_eq_true_iff.1 hupdated).1
    refine hP.action ?_ fun restarted => hP.done _
    rw [hns]
    exact hrestart hrestarts
  · exact hP.done _

/-- The certificates of a route have what waiting for its secret has. -/
theorem Proc.Composes.routeMaterial (hP : Proc.Composes P) {ingress : ManagementIngress} {wait : WaitPolicy} {ns : String}
    (serviceSecret : Secret) (hawait : P (Steps.awaitSecret wait ns Names.routeSecret).run) :
    P (Steps.routeMaterial ingress wait ns serviceSecret).run := by
  unfold Steps.routeMaterial
  split
  · exact hP.done _
  · exact hP.action hawait fun routeSecret => hP.done _

/-! ### Inquiring -/

/-- Whether a property of programs is one of those that ask what the cluster is like, if they may. -/
structure Proc.Inquires (discovers : Prop) (P : {α : Type} → Proc α → Prop) : Prop extends Proc.Composes P where
  discover : discovers → ∀ r : Request, r.Discovers → P (Proc.request r)

namespace Proc.Inquires

variable {discovers : Prop} (hP : Proc.Inquires discovers P) {ingress : ManagementIngress} {ns : String} (setup : Setup)

include hP

theorem baseDomain (hd : discovers) (base : Option String) : P (Pass.baseDomain.run base).run := by
  cases base with
  | some domain => exact hP.done _
  | none =>
    rw [Pass.run_baseDomain_none]
    exact hP.ask (hP.discover hd _ trivial) fun _ => hP.done _

theorem clusterInfo (hd : setup.flavor = .standard → discovers) (host : String) (base : Option String) :
    P ((Pass.clusterInfo setup ingress ns host).run base).run := by
  unfold Pass.clusterInfo
  cases hf : setup.flavor with
  | cncf domain => exact hP.done _
  | standard =>
    refine hP.remembering (hP.baseDomain (hd hf) base) fun domain base => ?_
    exact hP.remembering (hP.lift (hP.discover (hd hf) .apiServer trivial) base) fun api base => hP.done _

theorem clusterDomain (hd : setup.flavor = .standard → discovers) : P (Pass.clusterDomain setup).run := by
  unfold Pass.clusterDomain
  cases hf : setup.flavor with
  | standard => exact hP.discover (hd hf) .clusterDomain trivial
  | cncf domain => exact hP.done _

/-- The external host is found by looking. -/
theorem resolveHost (hd : setup.flavor = .standard → discovers) (base : Option String) :
    P ((Pass.resolveHost setup ingress ns).run base).run := by
  unfold Pass.resolveHost
  split
  · exact hP.done _
  · cases hf : setup.flavor with
    | standard => exact hP.remembering (hP.baseDomain (hd hf) base) fun domain base => hP.done _
    | cncf domain => exact hP.done _

end Proc.Inquires

/-! ### Looking -/

/-- Whether a property of programs is one of all that only look, and of those that ask what the cluster is like if they may. -/
structure Proc.Peeks (discovers : Prop) (P : {α : Type} → Proc α → Prop) : Prop extends Proc.Inquires discovers P where
  look : ∀ r : Request, r.Observes → P (Proc.request r)

/-- What every request of a program is like is so of all that only look, if it is of requests that do. -/
theorem Proc.Asks.peeks {discovers : Prop} {A : (r : Request) → r.Answer → Prop} {P : Request → Prop}
    (hlook : ∀ r : Request, r.Observes → P r) (hdiscover : discovers → ∀ r : Request, r.Discovers → P r) :
    Proc.Peeks discovers fun p => p.Asks A P :=
  { Proc.Asks.composes with
    look := fun r hr => Proc.Asks.request (hlook r hr)
    discover := fun hd r hr => Proc.Asks.request (hdiscover hd r hr) }

namespace Proc.Peeks

variable {discovers : Prop} (hP : Proc.Peeks discovers P) {ingress : ManagementIngress} {ns : String}

include hP

/-- Waiting for a secret only looks. -/
theorem awaitSecret (wait : WaitPolicy) (name : String) : P (Steps.awaitSecret wait ns name).run :=
  Steps.composes_awaitSecret hP.toComposes wait (hP.look _ trivial) (hP.look _ trivial) fun _ => hP.look _ trivial

/-- A deployment is looked at, and deleted if it has to go. -/
theorem removeLegacy (hr : P (Proc.request (.delete .deployment ns Names.app))) : P (Pass.removeLegacy ns).run := by
  refine hP.action (hP.look (.get .deployment ns Names.app) trivial) fun found => ?_
  cases found with
  | none => exact hP.done _
  | some deployment =>
    dsimp only
    split
    · exact hP.action hr fun _ => hP.done _
    · exact hP.done _

/-! ### Reporting -/

variable (hreport : ∀ status : IngressStatus, P (Proc.request (.updateStatus ingress status)))

include hreport

theorem writeStatus (written status : IngressStatus) : P (Pass.writeStatus ingress written status).run := by
  unfold Pass.writeStatus
  split
  · exact hP.done _
  · exact hP.action (hreport status) fun _ => hP.done _

theorem announceHost (written : IngressStatus) (host : String) : P (Pass.announceHost ingress written host).run := by
  unfold Pass.announceHost
  split
  · refine hP.action ?_ fun now => hP.writeStatus hreport _ _
    exact hP.ask (hP.look .now trivial) fun _ => hP.done _
  · exact hP.done _

theorem finish (written status : IngressStatus) : P (Pass.finish ingress ns written status).run := by
  refine hP.action ?_ fun pods => hP.action (hP.writeStatus hreport _ _) fun _ => hP.done _
  exact hP.ask (hP.look _ trivial) fun _ => hP.done _

end Proc.Peeks

/-! ### Steps -/

/-- The objects that the steps of a pass bring to what is desired. The operand's own configuration is kept in another way, as its
change replaces the operand's pods, and so is the route of the proxy, which is only to exist. -/
inductive Tracked (ingress : ManagementIngress) (ns : String) : Step → (k : OwnedKind) → k.kind.Object → Prop where
  | serviceCertificate : Tracked ingress ns .certificates .certificate (Desired.serviceCertificate ns ingress.spec.cert)
  | routeCertificate (hroute : ingress.spec.ignoreRouteCert = false) (host : String) :
    Tracked ingress ns .certificates .certificate (Desired.routeCertificate ns host ingress.spec.cert)
  | service : Tracked ingress ns .service .service (Desired.service ns)
  | bindInfo (host : String) :
    Tracked ingress ns .config .configMap (Desired.configMap ns Names.bindInfo (Desired.bindInfo host))
  | clusterInfo (info : Dict String) : Tracked ingress ns .config .configMap (Desired.configMap ns Names.clusterInfo info)
  | routesCa (ca : List UInt8) : Tracked ingress ns .routes .secret (Desired.clusterCa ns ca)
  | consoleRoute (host : String) (material : Option Desired.TlsMaterial) :
    Tracked ingress ns .routes .route (Desired.route ns Names.consoleRoute Names.service host material)
  | clusterCa (ca : List UInt8) : Tracked ingress ns .clusterCa .secret (Desired.clusterCa ns ca)
  | deployment (params : Desired.DeploymentParams) (hns : params.ns = ns) :
    Tracked ingress ns .deployment .deployment (Desired.deployment ingress params)

namespace Pass

/-- Whether a property of programs is one of the waits, and of the objects kept, that the steps of a plan are made of; they may ask
what the cluster is like if `discovers` holds. -/
structure Units (plan : List Step) (discovers : Prop) (ingress : ManagementIngress) (ns : String)
    (P : {α : Type} → Proc α → Prop) : Prop extends Proc.Inquires discovers P where
  await : Step.routes ∈ plan ∨ Step.clusterCa ∈ plan → ∀ wait : WaitPolicy, ∀ name ∈ [Names.serviceSecret, Names.routeSecret],
    P (Steps.awaitSecret wait ns name).run
  ensure : ∀ {step : Step} {k : OwnedKind} {desired : k.kind.Object}, step ∈ plan → Tracked ingress ns step k desired →
    P (IngressOperator.ensure ingress k desired).run
  configuration : Step.config ∈ plan →
    P (Steps.configMap ingress (Desired.configMap ns Names.config ingress.spec.config) true).run
  proxyRoute : Step.routes ∈ plan → ∀ host : String,
    P (ensureCreated ingress .route (Desired.route ns Names.proxyRoute Names.proxyService host none)).run

/-- Whether a property of programs is one of all that the steps of a plan are made of; they may ask what the cluster is like if
`discovers` holds. -/
structure Pieces (plan : List Step) (discovers : Prop) (ingress : ManagementIngress) (ns : String)
    (P : {α : Type} → Proc α → Prop) : Prop extends Proc.Peeks discovers P where
  ensure : ∀ {step : Step} {k : OwnedKind} {desired : k.kind.Object}, step ∈ plan → Tracked ingress ns step k desired →
    P (IngressOperator.ensure ingress k desired).run
  configuration : Step.config ∈ plan →
    P (Steps.configMap ingress (Desired.configMap ns Names.config ingress.spec.config) true).run
  proxyRoute : Step.routes ∈ plan → ∀ host : String,
    P (ensureCreated ingress .route (Desired.route ns Names.proxyRoute Names.proxyService host none)).run

/-- Whether a property of programs is one of all that a pass by a plan is made of. -/
structure Entire (plan : List Step) (discovers : Prop) (ingress : ManagementIngress) (ns : String)
    (P : {α : Type} → Proc α → Prop) : Prop extends Pieces plan discovers ingress ns P where
  legacy : P (removeLegacy ns).run
  report : ∀ status : IngressStatus, P (Proc.request (.updateStatus ingress status))

namespace Units

variable {plan : List Step} {discovers : Prop} {ingress : ManagementIngress} {ns : String}
  (hP : Units plan discovers ingress ns P) {setup : Setup} (host : String)

include hP

theorem certificates (hm : Step.certificates ∈ plan) : P (Steps.certificates ingress ns host).run := by
  refine hP.action (hP.ensure hm .serviceCertificate) fun service => ?_
  split
  · exact hP.done _
  · next hroute => exact hP.action (hP.ensure hm (.routeCertificate (Bool.not_eq_true _ ▸ hroute) host)) fun route => hP.done _

/-- A config map that the operand does not read is only kept. -/
theorem info {name : String} {data : Dict String} (hm : Step.config ∈ plan)
    (hw : Tracked ingress ns .config .configMap (Desired.configMap ns name data)) :
    P (Steps.configMap ingress (Desired.configMap ns name data) false).run :=
  hP.configMap rfl (hP.ensure hm hw) nofun

theorem config (hm : Step.config ∈ plan) (hd : setup.flavor = .standard → discovers) (base : Option String) :
    P ((Pass.config setup ingress ns host).run base).run := by
  refine hP.remembering (hP.lift (hP.configuration hm) base) fun own base => ?_
  refine hP.remembering (hP.lift (hP.info hm (.bindInfo host)) base) fun bind base => ?_
  refine hP.remembering (hP.clusterInfo setup hd host base) fun info base => ?_
  exact hP.remembering (hP.lift (hP.info hm (.clusterInfo info)) base) fun cluster base => hP.done _

theorem routes (hm : Step.routes ∈ plan) (wait : WaitPolicy) (proxyHost : String) :
    P (Steps.routes ingress wait ns host proxyHost).run := by
  refine hP.action (hP.await (.inl hm) wait _ (.head _)) fun serviceSecret => ?_
  refine hP.action (hP.routeMaterial serviceSecret (hP.await (.inl hm) wait _ (.tail _ (.head _)))) fun found => ?_
  refine hP.action (hP.ensure hm (.routesCa _)) fun ca => ?_
  refine hP.action (hP.ensure hm (.consoleRoute host _)) fun console => ?_
  exact hP.action (hP.proxyRoute hm proxyHost) fun proxy => hP.done _

theorem clusterCaOnly (hm : Step.clusterCa ∈ plan) (wait : WaitPolicy) : P (Steps.clusterCaOnly ingress wait ns).run := by
  refine hP.action (hP.await (.inr hm) wait _ ?_) fun source => ?_
  · split
    · exact .head _
    · exact .tail _ (.head _)
  exact hP.action (hP.ensure hm (.clusterCa _)) fun ca => hP.done _

theorem deployment (hm : Step.deployment ∈ plan) (hd : setup.flavor = .standard → discovers) :
    P (Pass.deployment setup ingress ns host).run := by
  refine hP.action (hP.clusterDomain setup hd) fun domain => ?_
  refine hP.action (hP.done _) fun image => ?_
  exact hP.ensure hm (.deployment _ rfl)

/-- A property of what the steps of a plan are made of is one of each of them. -/
theorem runStep {step : Step} (hm : step ∈ plan) (hd : setup.flavor = .standard ∨ step = .routes → discovers)
    (base : Option String) : P ((Pass.runStep setup ingress ns host step).run base).run := by
  have hflavor (hf : setup.flavor = .standard) : discovers := hd (.inl hf)
  cases step with
  | certificates => exact hP.lift (hP.certificates _ hm) base
  | service => exact hP.remembering (hP.lift (hP.ensure hm .service) base) fun synced base => hP.done _
  | config => exact hP.config host hm hflavor base
  | routes =>
    refine hP.remembering (hP.baseDomain (hd (.inr rfl)) base) fun domain base => ?_
    exact hP.lift (hP.routes _ hm _ _) base
  | clusterCa => exact hP.lift (hP.clusterCaOnly hm _) base
  | deployment => exact hP.remembering (hP.lift (hP.deployment _ hm hflavor) base) fun synced base => hP.done _

end Units

namespace Pieces

variable {plan : List Step} {discovers : Prop} {ingress : ManagementIngress} {ns : String}
  (hP : Pieces plan discovers ingress ns P) {setup : Setup} (host : String)

include hP

/-- Who only looks may wait. -/
theorem units : Units plan discovers ingress ns P :=
  { hP with await := fun _ wait name _ => hP.awaitSecret wait name }

/-- A property of the pieces of a plan is one of each of its steps. -/
theorem runStep {step : Step} (hm : step ∈ plan) (hd : setup.flavor = .standard ∨ step = .routes → discovers)
    (base : Option String) : P ((Pass.runStep setup ingress ns host step).run base).run :=
  hP.units.runStep host hm hd base

/-- It is one of its steps, one after the other. -/
theorem runSteps {steps : List Step} (hm : ∀ step ∈ steps, step ∈ plan)
    (hd : setup.flavor = .standard ∨ .routes ∈ steps → discovers) (base : Option String) (status : IngressStatus) :
    P (Pass.runSteps setup ingress ns host steps base status) := by
  induction steps generalizing base status with
  | nil => exact hP.done _
  | cons step rest ih =>
    have hstep : setup.flavor = .standard ∨ step = .routes → discovers := by
      rintro (hf | rfl)
      · exact hd (.inl hf)
      · exact hd (.inr List.mem_cons_self)
    have hrest : setup.flavor = .standard ∨ .routes ∈ rest → discovers := fun h => hd (h.imp_right (List.mem_cons_of_mem _))
    unfold Pass.runSteps
    refine hP.bind (hP.runStep host (hm _ List.mem_cons_self) hstep base) fun ended => ?_
    rcases ended with cause | ⟨synced, base'⟩
    · exact hP.bind (hP.look .now trivial) fun now => hP.done _
    · refine hP.bind (hP.look .now trivial) fun now => ?_
      exact hP.bind (ih (fun s hs => hm s (List.mem_cons_of_mem _ hs)) hrest base' _) fun _ => hP.done _

end Pieces

/-! ### Passes -/

/-- Routes are kept on a cluster that serves them. -/
theorem standard_of_routes_mem {setup : Setup} (hm : Step.routes ∈ setup.steps) : setup.flavor = .standard := by
  have hplan := (List.mem_filter.1 hm).1
  cases hf : setup.flavor with
  | standard => rfl
  | cncf domain =>
    rw [hf] at hplan
    simp [Flavor.plan] at hplan

/-- A property of the pieces of a pass is one of the pass. -/
theorem Entire.run {plan : List Step} {discovers : Prop} {ingress : ManagementIngress} {ns : String} {setup : Setup}
    (hP : Entire plan discovers ingress ns P) (hns : ingress.metadata.ns = some ns) (hm : ∀ step ∈ setup.steps, step ∈ plan)
    (hd : setup.flavor = .standard → discovers) : P (Pass.run setup ingress) := by
  unfold Pass.run
  simp only [hns]
  refine hP.bind hP.legacy fun legacy => ?_
  rcases legacy with cause | (_ | _)
  · exact hP.done _
  · refine hP.bind (hP.resolveHost setup hd none) fun resolved => ?_
    rcases resolved with cause | ⟨host, base⟩
    · exact hP.bind (hP.writeStatus hP.report _ _) fun _ => hP.done _
    · unfold runWithHost
      refine hP.bind (hP.announceHost hP.report _ host) fun announced => ?_
      rcases announced with cause | written
      · exact hP.done _
      · have hsteps : setup.flavor = .standard ∨ .routes ∈ setup.steps → discovers := fun h =>
          hd (h.elim id standard_of_routes_mem)
        refine hP.bind (hP.runSteps host hm hsteps base written) fun ended => ?_
        obtain ⟨status, result⟩ := ended
        rcases result with ⟨kind, cause⟩ | synced
        · exact hP.bind (hP.writeStatus hP.report _ _) fun _ => hP.done _
        · refine hP.bind (hP.finish hP.report _ _) fun reported => ?_
          cases reported with
          | error cause => exact hP.done _
          | ok _ => exact hP.done _
  · exact hP.done _

end Pass

end IngressOperator
