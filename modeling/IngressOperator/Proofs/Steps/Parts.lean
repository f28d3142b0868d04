import IngressOperator.Proofs.Ensure.Preserve
import IngressOperator.Proofs.Steps.Pieces

/-!
# What passes are made of

Whatever its plan, a pass looks, keeps desired objects, replaces the pods of the operand, deletes its deployment and reports. What
is kept when a program goes on, and is so of each of these, is so of every step and every pass.

## Main statements

* `Pass.Parts.runSteps`: a property of the parts of steps is one of all steps, one after the other.
* `Pass.Whole.run`: a property of the parts of a pass is one of every pass.
-/

namespace IngressOperator

/-! ### Desired objects -/

/-- What the objects are like that a pass in a namespace keeps: they have names, do not differ from themselves, may stay, and
have no owners of their own. -/
structure Sought (ns : String) (k : OwnedKind) (desired : k.kind.Object) : Prop where
  key : ∃ name, k.kind.key desired = .ok (ns, name)
  same : (Drift.object k desired desired).changed = false
  durable : k.Durable desired
  unowned : (k.kind.metadata desired).ownerReferences = none

/-- The desired deployment knows the container of the operand alone. -/
theorem fits_deployment (ingress : ManagementIngress) (params : Desired.DeploymentParams) :
    OwnedKind.deployment.Fits (Desired.deployment ingress params) := by
  intro spec pod hs hp c hc
  cases hs
  cases hp
  rw [List.mem_singleton.1 hc]
  rfl

/-- The desired deployment selects its pods by a label that is not empty. -/
theorem durable_deployment (ingress : ManagementIngress) (params : Desired.DeploymentParams) :
    OwnedKind.deployment.Durable (Desired.deployment ingress params) := by
  have hlabel : (Names.labels.get? Names.managedByLabel).any (·.isEmpty) = false := by decide
  exact hlabel

theorem sought_certificate {ns name : String} {x : Certificate} (hk : Kind.certificate.key x = .ok (ns, name))
    (ho : x.metadata.ownerReferences = none) : Sought ns .certificate x :=
  ⟨⟨name, hk⟩, Drift.certificate_self x, trivial, ho⟩

theorem sought_configMap {ns name : String} {x : ConfigMap} (hk : Kind.configMap.key x = .ok (ns, name))
    (ho : x.metadata.ownerReferences = none) : Sought ns .configMap x :=
  ⟨⟨name, hk⟩, Drift.configMap_self x, trivial, ho⟩

theorem sought_route {ns name : String} {x : Route} (hk : Kind.route.key x = .ok (ns, name))
    (ho : x.metadata.ownerReferences = none) : Sought ns .route x :=
  ⟨⟨name, hk⟩, Drift.route_self x, trivial, ho⟩

theorem sought_service (ns : String) : Sought ns .service (Desired.service ns) :=
  ⟨⟨Names.service, rfl⟩, Drift.service_self ns, trivial, rfl⟩

theorem sought_clusterCa (ns : String) (ca : List UInt8) : Sought ns .secret (Desired.clusterCa ns ca) :=
  ⟨⟨Names.clusterCa, rfl⟩, Drift.secret_self _, trivial, rfl⟩

theorem sought_deployment {ns : String} (ingress : ManagementIngress) {params : Desired.DeploymentParams} (hns : params.ns = ns) :
    Sought ns .deployment (Desired.deployment ingress params) :=
  ⟨⟨Names.app, hns ▸ rfl⟩, Drift.deployment_self ingress params, durable_deployment ingress params, rfl⟩

/-- What a pass brings to a desired form is sought. -/
theorem Tracked.sought {ingress : ManagementIngress} {ns : String} {step : Step} {k : OwnedKind} {desired : k.kind.Object}
    (hw : Tracked ingress ns step k desired) : Sought ns k desired := by
  cases hw with
  | serviceCertificate => exact sought_certificate rfl rfl
  | routeCertificate hroute host => exact sought_certificate rfl rfl
  | service => exact sought_service ns
  | bindInfo host => exact sought_configMap rfl rfl
  | clusterInfo info => exact sought_configMap rfl rfl
  | routesCa ca => exact sought_clusterCa ns ca
  | consoleRoute host material => exact sought_route rfl rfl
  | clusterCa ca => exact sought_clusterCa ns ca
  | deployment params hns => exact sought_deployment ingress hns

/-- Live objects are brought to what a pass brings to a desired form. -/
theorem Tracked.fits {ingress : ManagementIngress} {ns : String} {step : Step} {k : OwnedKind} {desired : k.kind.Object}
    (hw : Tracked ingress ns step k desired) : k.Fits desired := by
  cases hw with
  | consoleRoute host material => rfl
  | deployment params hns => exact fits_deployment ingress params
  | _ => trivial

/-! ### Parts -/

namespace Pass

/-- Whether a property of programs is one of all that the steps of a pass are made of. -/
structure Parts (ingress : ManagementIngress) (ns : String) (P : {α : Type} → Proc α → Prop) : Prop extends
    Proc.Composes P where
  look : ∀ r : Request, r.Looks → P (Proc.request r)
  ensure : ∀ (k : OwnedKind) (desired : k.kind.Object), Sought ns k desired → k.Fits desired →
    P (IngressOperator.ensure ingress k desired).run
  ensureCreated : ∀ (k : OwnedKind) (desired : k.kind.Object), Sought ns k desired →
    P (IngressOperator.ensureCreated ingress k.kind desired).run
  restart : P (Steps.restart ns).run

/-- Whether a property of programs is one of all that a pass is made of. -/
structure Whole (ingress : ManagementIngress) (ns : String) (P : {α : Type} → Proc α → Prop) : Prop extends
    Parts ingress ns P where
  remove : P (Proc.request (.delete .deployment ns Names.app))
  report : ∀ status : IngressStatus, P (Proc.request (.updateStatus ingress status))

/-- What is so of all requests that look, create or update is so of all requests of steps. -/
theorem asks_parts {A : (r : Request) → r.Answer → Prop} {P : Request → Prop} (ingress : ManagementIngress) (ns : String)
    (hlook : ∀ r : Request, r.Looks → P r) (hcreate : ∀ (k : Kind) (x : k.Object), P (.create k x))
    (hupdate : ∀ (k : Kind) (x : k.Object), P (.update k x)) : Parts ingress ns fun p => p.Asks A P where
  toComposes := Proc.Asks.composes
  look r hr := Proc.Asks.request (hlook r hr)
  ensure k desired hd _ := by
    obtain ⟨name, hk⟩ := hd.key
    rw [ensure_eq]
    exact asks_keeping (key_owned ingress hk) (hcreate _ _) (hlook _ trivial) fun _ _ => hupdate _ _
  ensureCreated k desired hd := by
    obtain ⟨name, hk⟩ := hd.key
    rw [ensureCreated_eq]
    exact asks_keeping (key_owned ingress hk) (hcreate _ _) (hlook _ trivial) fun _ _ => hupdate _ _
  restart := Steps.asks_restart (hlook _ trivial) (hlook _ trivial) fun _ _ => hupdate _ _

variable {P : {α : Type} → Proc α → Prop} {ingress : ManagementIngress} {ns : String}

namespace Parts

variable (hP : Parts ingress ns P)

include hP

theorem configMap {desired : ConfigMap} {name : String} (restarts : Bool) (hk : Kind.configMap.key desired = .ok (ns, name))
    (ho : desired.metadata.ownerReferences = none) : P (Steps.configMap ingress desired restarts).run :=
  hP.toComposes.configMap (Kind.key_eq_ok.1 hk).1 (hP.ensure .configMap desired (sought_configMap hk ho) trivial) fun _ =>
    hP.restart

/-- A property of the parts of steps is one of the pieces of every plan, whatever they may ask. -/
theorem pieces (plan : List Step) : Pieces plan True ingress ns P where
  toComposes := hP.toComposes
  look r hr := hP.look r hr.looks
  discover _ r hr := hP.look r hr.looks
  ensure _ hw := hP.ensure _ _ hw.sought hw.fits
  configuration _ := hP.configMap true rfl rfl
  proxyRoute _ _ := hP.ensureCreated .route _ (sought_route rfl rfl)

/-- A property of the parts of steps is one of all steps, one after the other. -/
theorem runSteps (setup : Setup) (host : String) (steps : List Step) (base : Option String) (status : IngressStatus) :
    P (Pass.runSteps setup ingress ns host steps base status) :=
  (hP.pieces steps).runSteps host (fun _ hm => hm) (fun _ => trivial) base status

/-- The external host is found by looking. -/
theorem resolveHost (setup : Setup) (base : Option String) : P ((Pass.resolveHost setup ingress ns).run base).run :=
  (hP.pieces []).toPeeks.resolveHost setup (fun _ => trivial) base

/-- A deployment is looked at, and deleted if it has to go. -/
theorem removeLegacy (hr : P (Proc.request (.delete .deployment ns Names.app))) : P (Pass.removeLegacy ns).run :=
  (hP.pieces []).toPeeks.removeLegacy hr

end Parts

/-- A property of the parts of a pass is one of every pass. -/
theorem Whole.run (hP : Whole ingress ns P) (setup : Setup) (hns : ingress.metadata.ns = some ns) :
    P (Pass.run setup ingress) := by
  have hentire : Entire setup.steps True ingress ns P :=
    { hP.pieces setup.steps with legacy := hP.removeLegacy hP.remove, report := hP.report }
  exact hentire.run hns (fun _ hm => hm) fun _ => trivial

end Pass

end IngressOperator
