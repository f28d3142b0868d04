import IngressOperator.Proofs.Steps.Repeat

/-!
# What a pass wants

The objects that a pass keeps, as functions of what it finds out about the cluster: each of them is brought to a desired form or
only has to exist. A step that ends well without writing anything attests that its objects are as they are wanted: it would have
written otherwise.

## Main statements

* `attests_keeping`: an object that is kept without being written needs no revision.
* `Pass.attests_runStep`: a step that ends well without writing found its objects as they are wanted.
-/

namespace IngressOperator

/-! ### Wanted objects -/

/-- An object that a pass keeps. -/
structure Wanted where
  kind : OwnedKind
  object : kind.kind.Object
  /-- Whether the object is brought to this form; else it only has to exist. -/
  tracked : Bool := true

/-- Whether a wanted object is there as it is wanted: the live one does not differ in what is tracked, and if the custom resource
can be an owner, then the object has an owner. -/
def Wanted.Met (owner : ManagementIngress) (w : Wanted) (stored : ObjectKey → Option Json) : Prop :=
  ∃ key j x, w.kind.kind.objectKey? w.object = some key ∧ stored key = some j ∧ w.kind.kind.decode? j = some x ∧
    (w.tracked = true → (Drift.object w.kind x w.object).changed = false) ∧
    adopts w.kind.kind x (owned owner w.kind.kind w.object) = false

/-- What a pass finds out about the cluster. -/
structure Findings where
  baseDomain : String
  apiServer : ApiAddress
  clusterDomain : String
  image : String
  /-- The secret with the certificate of the service. -/
  serviceSecret : Secret
  /-- The secret with the certificate of the console route. -/
  routeSecret : Secret

namespace Findings

variable (setup : Setup) (ingress : ManagementIngress) (ns : String) (f : Findings)

/-- The external host. -/
def host : String :=
  if !ingress.spec.routeHost.isEmpty then ingress.spec.routeHost
  else
    match setup.flavor with
    | .standard => Host.console f.baseDomain ns ingress.spec.multipleInstancesEnabled
    | .cncf domain => Host.plainConsole domain

/-- The host of the proxy. -/
def proxyHost : String := Host.proxy f.baseDomain ns ingress.spec.multipleInstancesEnabled

/-- What the cluster is said to be like. -/
def clusterInfo : Dict String :=
  match setup.flavor with
  | .standard =>
    Desired.standardClusterInfo setup.settings ns (f.host setup ingress ns) f.baseDomain f.apiServer (f.proxyHost ingress ns)
  | .cncf domain => Desired.plainClusterInfo setup.settings ns domain

/-- The certificates of the console route, if it has its own. -/
def material : Option Desired.TlsMaterial :=
  if ingress.spec.ignoreRouteCert then none else some (Desired.TlsMaterial.ofSecrets f.routeSecret f.serviceSecret)

/-- The secret whose authority is published. -/
def authority : Secret := if ingress.spec.ignoreRouteCert then f.serviceSecret else f.routeSecret

/-- What the pods of the operand depend on. -/
def params : Desired.DeploymentParams where
  ns := ns
  image := f.image
  clusterDomain := f.clusterDomain
  allowedHostHeader := Desired.allowedHostHeader ingress.spec (Host.withoutPort (f.host setup ingress ns)) ns
  namespacedWatch := setup.settings.watched.isSome

end Findings

/-- The objects that a step keeps. -/
def Step.wanted (setup : Setup) (ingress : ManagementIngress) (ns : String) (f : Findings) : Step → List Wanted
  | certificates =>
    let cert := ingress.spec.cert
    let host := Host.withoutPort (f.host setup ingress ns)
    ⟨.certificate, Desired.serviceCertificate ns cert, true⟩ ::
      if ingress.spec.ignoreRouteCert then [] else [⟨.certificate, Desired.routeCertificate ns host cert, true⟩]
  | service => [⟨.service, Desired.service ns, true⟩]
  | config => [
    ⟨.configMap, Desired.configMap ns Names.config ingress.spec.config, true⟩,
    ⟨.configMap, Desired.configMap ns Names.bindInfo (Desired.bindInfo (f.host setup ingress ns)), true⟩,
    ⟨.configMap, Desired.configMap ns Names.clusterInfo (f.clusterInfo setup ingress ns), true⟩]
  | routes =>
    let host := Host.withoutPort (f.host setup ingress ns)
    [⟨.secret, Desired.clusterCa ns ((f.authority ingress).value Desired.caKey), true⟩,
      ⟨.route, Desired.route ns Names.consoleRoute Names.service host (f.material ingress), true⟩,
      ⟨.route, Desired.route ns Names.proxyRoute Names.proxyService (f.proxyHost ingress ns) none, false⟩]
  | clusterCa => [⟨.secret, Desired.clusterCa ns ((f.authority ingress).value Desired.caKey), true⟩]
  | deployment => [⟨.deployment, Desired.deployment ingress (f.params setup ingress ns), true⟩]

/-! ### What is found out -/

section

variable {σ α β : Type} {h : Proc.Handler σ} (S : ObjectStore h) (setup : Setup) (ingress : ManagementIngress) (ns : String)

/-- Whether the findings that a step goes by are those of a state: the cluster says so, and the secrets hold these certificates. -/
def Step.Found (f : Findings) (z : σ) : Step → Prop
  | certificates | service => True
  | config => setup.flavor = .standard → (h .baseDomain z).1 = .ok f.baseDomain ∧ (h .apiServer z).1 = .ok f.apiServer
  | routes =>
    (h .baseDomain z).1 = .ok f.baseDomain ∧
      Steps.issued? (S.stored z (Kind.secret.keyAt ns Names.serviceSecret)) = some f.serviceSecret ∧
      (ingress.spec.ignoreRouteCert = false →
        Steps.issued? (S.stored z (Kind.secret.keyAt ns Names.routeSecret)) = some f.routeSecret)
  | clusterCa =>
    let name := if ingress.spec.ignoreRouteCert then Names.serviceSecret else Names.routeSecret
    Steps.issued? (S.stored z (Kind.secret.keyAt ns name)) = some (f.authority ingress)
  | deployment =>
    Desired.operandImage ingress.spec setup.settings.image = .ok f.image ∧
      match setup.flavor with
      | .standard => (h .clusterDomain z).1 = .ok f.clusterDomain
      | .cncf _ => f.clusterDomain = Names.plainClusterDomain

/-- Whether the findings that a step goes by are those of a state, in which its objects are there as they are wanted. -/
def Step.Settled (f : Findings) (z : σ) (step : Step) : Prop :=
  step.Found S setup ingress ns f z ∧ ∀ w ∈ step.wanted setup ingress ns f, w.Met ingress (S.stored z)

/-- What is to be found out in a state. -/
def Findings.ofState (z : σ) : Findings where
  baseDomain := (h .baseDomain z).1.toOption.getD ""
  apiServer := (h .apiServer z).1.toOption.getD default
  clusterDomain :=
    match setup.flavor with
    | .standard => (h .clusterDomain z).1.toOption.getD ""
    | .cncf _ => Names.plainClusterDomain
  image := (Desired.operandImage ingress.spec setup.settings.image).toOption.getD ""
  serviceSecret := (Steps.issued? (S.stored z (Kind.secret.keyAt ns Names.serviceSecret))).getD {}
  routeSecret := (Steps.issued? (S.stored z (Kind.secret.keyAt ns Names.routeSecret))).getD {}

namespace Findings

variable {S} {setup ingress ns} {z : σ}

/-- The base domain that is told is found. -/
theorem baseDomain_ofState {domain : String} (hd : (h .baseDomain z).1 = .ok domain) :
    (ofState S setup ingress ns z).baseDomain = domain := by
  rw [ofState, hd]
  rfl

theorem apiServer_ofState {api : ApiAddress} (ha : (h .apiServer z).1 = .ok api) :
    (ofState S setup ingress ns z).apiServer = api := by
  rw [ofState, ha]
  rfl

/-- The secret of the service that is there is found. -/
theorem serviceSecret_ofState {secret : Secret}
    (hs : Steps.issued? (S.stored z (Kind.secret.keyAt ns Names.serviceSecret)) = some secret) :
    (ofState S setup ingress ns z).serviceSecret = secret := by
  rw [ofState, hs]
  rfl

theorem routeSecret_ofState {secret : Secret}
    (hs : Steps.issued? (S.stored z (Kind.secret.keyAt ns Names.routeSecret)) = some secret) :
    (ofState S setup ingress ns z).routeSecret = secret := by
  rw [ofState, hs]
  rfl

end Findings

/-! ### Programs that attest -/

/-- Whether a property holds of every value with which a program ends well without writing, from a state whose documents are
those of `z`. -/
def Attests (z : σ) (p : Proc (Except Failure α)) (Q : α → Prop) : Prop :=
  ∀ s a t s', S.Holds s → S.stored s = S.stored z → p.Goes h s (.ok a) t s' → Silent t → Q a

namespace Attests

variable {S} {z : σ} {Q : α → Prop} {R : β → Prop}

theorem done {a : α} (hq : Q a) : Attests S z (.done (.ok a)) Q := by
  intro s a' t s' _ _ hg _
  obtain ⟨ha, -, -⟩ := hg.of_done
  cases ha
  exact hq

theorem mono {p : Proc (Except Failure α)} {Q' : α → Prop} (hp : Attests S z p Q) (hq : ∀ a, Q a → Q' a) : Attests S z p Q' :=
  fun s a t s' hs hst hg ht => hq a (hp s a t s' hs hst hg ht)

/-- What goes on attests what its second part attests, given what the first part does. -/
theorem action_bind {a : Action α} {f : α → Action β} (ha : Attests S z a.run Q) (hf : ∀ x, Q x → Attests S z (f x).run R) :
    Attests S z (a >>= f).run R := by
  intro s b t s' hs hst hg ht
  rw [ExceptT.run_bind] at hg
  obtain ⟨answer, t₁, s₁, t₂, hg₁, hg₂, rfl⟩ := hg.of_bind
  have ht₁ : Silent t₁ := fun x hx => ht x (List.mem_append_left _ hx)
  have ht₂ : Silent t₂ := fun x hx => ht x (List.mem_append_right _ hx)
  cases answer with
  | error e =>
    obtain ⟨hb, -, -⟩ := hg₂.of_done
    cases hb
  | ok x =>
    obtain ⟨hs₁, hst₁⟩ := S.stored_of_silent hs hg₁ ht₁
    exact hf x (ha s x t₁ s₁ hs hst hg₁ ht₁) s₁ b t₂ s' hs₁ (hst₁.trans hst) hg₂ ht₂

/-- An action whose value is only passed on attests what it attests. -/
theorem action_map {a : Action α} {f : α → β} (ha : Attests S z a.run Q) (hf : ∀ x, Q x → R (f x)) :
    Attests S z (a >>= fun x => pure (f x)).run R :=
  ha.action_bind fun x hx => done (hf x hx)

/-- Whatever a program comes to, it attests what is so anyway. -/
theorem of_true {p : Proc (Except Failure α)} {P : Prop} (hp : P) : Attests S z p fun _ => P := fun _ _ _ _ _ _ _ _ => hp

end Attests

variable {S} {z : σ}

/-- An object that is kept without being written needs no revision. -/
theorem attests_keeping {k : Kind} {desired : k.Object} {ns name : String} {revise : k.Object → Option k.Object} {idle : Outcome}
    (hm : k ≠ .managementIngress) (hk : k.key desired = .ok (ns, name)) (hr : Settles k desired revise) :
    Attests S z (keeping k desired revise idle).run fun _ =>
      ∃ j live, S.stored z (k.keyAt ns name) = some j ∧ k.decode? j = some live ∧ revise live = none := by
  intro s a t s' hs hst hg ht
  have hkept := Kept.of_run S idle hs hm hk hr
  have hsame := congrFun (S.stored_of_silent hs hg ht).2 (k.keyAt ns name)
  rw [hg.1] at hkept
  dsimp only at hkept
  rw [hsame, hst] at hkept
  generalize S.stored z (k.keyAt ns name) = doc at hkept
  cases hkept with
  | left j live hj hw => exact ⟨j, live, rfl, hj, hw⟩
  | written j live x v hj hw =>
    -- what was written is what was there, and that needs no revision
    rw [Kind.decode?_encode hm] at hj
    cases hj
    rw [hr.written hw v] at hw
    cases hw

section

variable (owner : ManagementIngress) {ns name : String}

/-- A desired object that is kept without being written is there as it is wanted. -/
theorem attests_ensure (k : OwnedKind) {desired : k.kind.Object} (hk : k.kind.key desired = .ok (ns, name))
    (hd : (Drift.object k desired desired).changed = false) :
    Attests S z (ensure owner k desired).run fun _ => Wanted.Met owner ⟨k, desired, true⟩ (S.stored z) := by
  have hm : k.kind ≠ .managementIngress := by cases k <;> nofun
  rw [ensure_eq]
  refine (attests_keeping hm (key_owned owner hk) (settles_revision k (changed_owned owner hd))).mono fun _ hmet => ?_
  obtain ⟨j, x, hj, hx, hr⟩ := hmet
  obtain ⟨hsame, hadopts⟩ := revision_eq_none.1 hr
  obtain ⟨refs, ho⟩ := owned_eq owner k.kind desired
  rw [ho, Drift.object_withMetadata] at hsame
  exact ⟨_, j, x, Kind.objectKey?_eq.2 (Kind.key_eq_ok.1 hk), hj, hx, fun _ => hsame, hadopts⟩

/-- Likewise for an object that is only to exist. -/
theorem attests_ensureCreated (k : OwnedKind) {desired : k.kind.Object} (hk : k.kind.key desired = .ok (ns, name)) :
    Attests S z (ensureCreated owner k.kind desired).run fun _ => Wanted.Met owner ⟨k, desired, false⟩ (S.stored z) := by
  have hm : k.kind ≠ .managementIngress := by cases k <;> nofun
  rw [ensureCreated_eq]
  refine (attests_keeping hm (key_owned owner hk) (settles_adoption k.kind _)).mono fun _ hmet => ?_
  obtain ⟨j, x, hj, hx, hr⟩ := hmet
  refine ⟨_, j, x, Kind.objectKey?_eq.2 (Kind.key_eq_ok.1 hk), hj, hx, nofun, ?_⟩
  unfold adoption at hr
  split at hr
  · cases hr
  · next ha => exact Bool.not_eq_true _ ▸ ha

/-- A secret that was waited for is there. -/
theorem Steps.attests_awaitSecret (wait : WaitPolicy) :
    Attests S z (awaitSecret wait ns name).run fun secret =>
      issued? (S.stored z (Kind.secret.keyAt ns name)) = some secret := by
  intro s secret t s' hs hst hg _
  obtain ⟨hr, -⟩ := awaitSecret_run S hs wait ns name
  rw [hg.1, hst] at hr
  unfold awaited at hr
  split at hr
  · cases hr
  · split at hr
    · next found hfound =>
      cases hr
      exact hfound
    · cases hr

end

namespace Pass

variable {setup : Setup} {ingress : ManagementIngress} {ns : String}

/-! ### Actions that remember the base domain -/

/-- Whether a remembered domain is the one that the cluster tells. -/
def Knows (h : Proc.Handler σ) (z : σ) (base : Option String) : Prop :=
  ∀ domain, base = some domain → (h .baseDomain z).1 = .ok domain

theorem knows_none (h : Proc.Handler σ) (z : σ) : Knows h z none := fun _ hd => absurd hd (by simp)

/-- Whether a value has a property, and a remembered domain is the one that the cluster tells. -/
def Aware (h : Proc.Handler σ) (z : σ) (Q : α → Prop) (p : α × Option String) : Prop := Q p.1 ∧ Knows h z p.2

/-- What goes on attests what its second part attests, given what the first part does. -/
theorem attests_bind {x : Remembering α} {f : α → Remembering β} {base : Option String} {Q : α → Prop}
    {R : β × Option String → Prop} (hx : Attests S z (x.run base).run (Aware h z Q))
    (hf : ∀ a base, Q a → Knows h z base → Attests S z ((f a).run base).run R) :
    Attests S z ((x >>= f).run base).run R :=
  Attests.action_bind hx fun p hp => hf p.1 p.2 hp.1 hp.2

/-- An action attests where a domain is remembered what it attests without. -/
theorem attests_lift {a : Action α} {base : Option String} {Q : α → Prop} (ha : Attests S z a.run Q) (hb : Knows h z base) :
    Attests S z ((liftM a : Remembering α).run base).run (Aware h z Q) :=
  ha.action_map fun _ hx => ⟨hx, hb⟩

/-- A fact about the cluster is told in every state as it is in `z`. -/
theorem attests_request {r : Request} {f : r.Answer → Except Failure α}
    (hr : ∀ s, S.Holds s → (h r s).1 = (h r z).1) : Attests S z (Proc.ask r fun answer => .done (f answer)) fun a =>
      f (h r z).1 = .ok a := by
  intro s a t s' hs _ hg _
  obtain ⟨hrun, -⟩ := hg
  rw [Proc.run_ask, hr s hs] at hrun
  exact congrArg Prod.fst hrun

variable (hS : S.Steady) (hz : S.Holds z)

include hS hz

/-- The base domain is the one that the cluster tells, whether it is remembered or not. -/
theorem attests_baseDomain {base : Option String} (hb : Knows h z base) :
    Attests S z (baseDomain.run base).run (Aware h z fun domain => (h .baseDomain z).1 = .ok domain) := by
  cases base with
  | some domain => exact .done ⟨hb domain rfl, hb⟩
  | none =>
    rw [run_baseDomain_none]
    refine (attests_request fun s hs => hS.baseDomain hs hz).mono fun p hp => ?_
    cases ha : (h .baseDomain z).1 with
    | error e =>
      rw [ha] at hp
      cases hp
    | ok domain =>
      rw [ha] at hp
      cases hp
      refine ⟨rfl, fun domain' hd => ?_⟩
      cases hd
      exact ha

/-- What a cluster is said to be like is what it tells. -/
theorem attests_clusterInfo {base : Option String} (hb : Knows h z base) :
    let f := Findings.ofState S setup ingress ns z
    Attests S z ((clusterInfo setup ingress ns (f.host setup ingress ns)).run base).run
      (Aware h z fun info => info = f.clusterInfo setup ingress ns ∧ Step.config.Found S setup ingress ns f z) := by
  intro f
  unfold clusterInfo Findings.clusterInfo Step.Found
  cases hf : setup.flavor with
  | cncf domain => exact .done ⟨⟨rfl, nofun⟩, hb⟩
  | standard =>
    refine attests_bind (attests_baseDomain hS hz hb) fun domain base hd hb => ?_
    have hapi : Attests S z Action.apiServer.run fun api => (h .apiServer z).1 = .ok api :=
      attests_request (r := .apiServer) (f := id) fun s hs => hS.apiServer hs hz
    refine attests_bind (attests_lift hapi hb) fun api base ha hb => .done ⟨⟨?_, fun _ => ?_⟩, hb⟩
    · rw [Findings.proxyHost, Findings.baseDomain_ofState hd, Findings.apiServer_ofState ha]
    · rw [Findings.baseDomain_ofState hd, Findings.apiServer_ofState ha]
      exact ⟨hd, ha⟩

omit hS hz

/-- The certificates that are kept without being written are as they are wanted. -/
theorem attests_certificates (f : Findings) :
    Attests S z (Steps.certificates ingress ns (Host.withoutPort (f.host setup ingress ns))).run fun _ =>
      Step.certificates.Settled S setup ingress ns f z := by
  refine (attests_ensure ingress .certificate rfl (Drift.certificate_self _)).action_bind fun _ hservice => ?_
  unfold Step.Settled Step.wanted
  split
  · refine .done ⟨trivial, fun w hw => ?_⟩
    cases List.mem_singleton.1 hw
    exact hservice
  · refine (attests_ensure ingress .certificate rfl (Drift.certificate_self _)).action_bind fun _ hroute => ?_
    refine .done ⟨trivial, fun w hw => ?_⟩
    rcases List.mem_cons.1 hw with rfl | hw
    · exact hservice
    · cases List.mem_singleton.1 hw
      exact hroute

theorem attests_service (f : Findings) :
    Attests S z (Steps.service ingress ns).run fun _ => Step.service.Settled S setup ingress ns f z := by
  refine (attests_ensure ingress .service rfl (Drift.service_self ns)).mono fun _ hservice => ⟨trivial, fun w hw => ?_⟩
  cases List.mem_singleton.1 hw
  exact hservice

/-- A config map that is kept without being written is as it is wanted, whether pods are replaced for it or not. -/
theorem attests_configMap {desired : ConfigMap} {name : String} (restarts : Bool)
    (hk : Kind.configMap.key desired = .ok (ns, name)) :
    Attests S z (Steps.configMap ingress desired restarts).run fun _ =>
      Wanted.Met ingress ⟨.configMap, desired, true⟩ (S.stored z) :=
  (attests_ensure ingress .configMap hk (Drift.configMap_self desired)).action_bind fun _ hmet => .of_true hmet

include hS hz in
/-- The config maps that are kept without being written are as they are wanted. -/
theorem attests_config {base : Option String} (hb : Knows h z base) :
    let f := Findings.ofState S setup ingress ns z
    Attests S z ((config setup ingress ns (f.host setup ingress ns)).run base).run
      (Aware h z fun _ => Step.config.Settled S setup ingress ns f z) := by
  intro f
  refine attests_bind (attests_lift (attests_configMap true rfl) hb) fun _ base hown hb => ?_
  refine attests_bind (attests_lift (attests_configMap false rfl) hb) fun _ base hbind hb => ?_
  refine attests_bind (attests_clusterInfo hS hz hb) fun info base hinfo hb => ?_
  obtain ⟨rfl, hfound⟩ := hinfo
  refine attests_bind (attests_lift (attests_configMap false rfl) hb) fun _ base hcluster hb => ?_
  refine .done ⟨⟨hfound, fun w hw => ?_⟩, hb⟩
  rcases List.mem_cons.1 hw with rfl | hw
  · exact hown
  · rcases List.mem_cons.1 hw with rfl | hw
    · exact hbind
    · cases List.mem_singleton.1 hw
      exact hcluster

/-- The certificates of the console route and the authority come from the secrets that are there. -/
theorem attests_routeMaterial (wait : WaitPolicy) :
    let f := Findings.ofState S setup ingress ns z
    Attests S z (Steps.routeMaterial ingress wait ns f.serviceSecret).run fun found =>
      found = (f.material ingress, f.authority ingress) ∧
        (ingress.spec.ignoreRouteCert = false →
          Steps.issued? (S.stored z (Kind.secret.keyAt ns Names.routeSecret)) = some f.routeSecret) := by
  intro f
  unfold Steps.routeMaterial Findings.material Findings.authority
  cases hi : ingress.spec.ignoreRouteCert with
  | true => exact .done ⟨rfl, nofun⟩
  | false =>
    refine (Steps.attests_awaitSecret wait).action_map fun secret hs => ?_
    have hsecret : f.routeSecret = secret := Findings.routeSecret_ofState hs
    refine ⟨?_, fun _ => hsecret ▸ hs⟩
    rw [hsecret]
    rfl

/-- The authority and the routes that are kept without being written are as they are wanted. -/
theorem attests_publish (host proxyHost : String) (material : Option Desired.TlsMaterial) (source : Secret) :
    Attests S z (Steps.publish ingress ns host proxyHost material source).run fun _ =>
      Wanted.Met ingress ⟨.secret, Desired.clusterCa ns (source.value Desired.caKey), true⟩ (S.stored z) ∧
        Wanted.Met ingress ⟨.route, Desired.route ns Names.consoleRoute Names.service host material, true⟩ (S.stored z) ∧
          Wanted.Met ingress ⟨.route, Desired.route ns Names.proxyRoute Names.proxyService proxyHost none, false⟩ (S.stored z) := by
  refine (attests_ensure ingress .secret rfl (Drift.secret_self _)).action_bind fun _ hca => ?_
  refine (attests_ensure ingress .route rfl (Drift.route_self _)).action_bind fun _ hconsole => ?_
  exact (attests_ensureCreated ingress .route rfl).action_map fun _ hproxy => ⟨hca, hconsole, hproxy⟩

theorem attests_routes (wait : WaitPolicy) (hd : (h .baseDomain z).1 = .ok (Findings.ofState S setup ingress ns z).baseDomain) :
    let f := Findings.ofState S setup ingress ns z
    Attests S z (Steps.routes ingress wait ns (Host.withoutPort (f.host setup ingress ns)) (f.proxyHost ingress ns)).run fun _ =>
      Step.routes.Settled S setup ingress ns f z := by
  intro f
  refine (Steps.attests_awaitSecret wait).action_bind fun serviceSecret hs => ?_
  have hservice : f.serviceSecret = serviceSecret := Findings.serviceSecret_ofState hs
  rw [← hservice] at hs ⊢
  refine (attests_routeMaterial wait).action_bind fun found hfound => ?_
  obtain ⟨rfl, hroute⟩ := hfound
  refine (attests_publish _ _ _ _).mono fun _ hmet => ⟨⟨hd, hs, hroute⟩, fun w hw => ?_⟩
  obtain ⟨hca, hconsole, hproxy⟩ := hmet
  rcases List.mem_cons.1 hw with rfl | hw
  · exact hca
  · rcases List.mem_cons.1 hw with rfl | hw
    · exact hconsole
    · cases List.mem_singleton.1 hw
      exact hproxy

theorem attests_clusterCaOnly (wait : WaitPolicy) :
    let f := Findings.ofState S setup ingress ns z
    Attests S z (Steps.clusterCaOnly ingress wait ns).run fun _ => Step.clusterCa.Settled S setup ingress ns f z := by
  intro f
  refine (Steps.attests_awaitSecret wait).action_bind fun source hs => ?_
  have hsource : f.authority ingress = source := by
    unfold Findings.authority
    split at hs
    · next hi =>
      rw [if_pos hi]
      exact Findings.serviceSecret_ofState hs
    · next hi =>
      rw [if_neg hi]
      exact Findings.routeSecret_ofState hs
  rw [← hsource] at hs ⊢
  refine (attests_ensure ingress .secret rfl (Drift.secret_self _)).action_map fun _ hca => ⟨hs, fun w hw => ?_⟩
  cases List.mem_singleton.1 hw
  exact hca

include hS hz in
/-- The deployment that is kept without being written is as it is wanted. -/
theorem attests_deployment :
    let f := Findings.ofState S setup ingress ns z
    Attests S z (deployment setup ingress ns (Host.withoutPort (f.host setup ingress ns))).run fun _ =>
      Step.deployment.Settled S setup ingress ns f z := by
  intro f
  have hdomain : Attests S z (clusterDomain setup).run fun domain =>
      f.clusterDomain = domain ∧
        match setup.flavor with
        | .standard => (h .clusterDomain z).1 = .ok domain
        | .cncf _ => domain = Names.plainClusterDomain := by
    unfold clusterDomain
    cases hf : setup.flavor with
    | cncf _ =>
      refine .done ⟨?_, rfl⟩
      simp [f, Findings.ofState, hf]
    | standard =>
      refine (attests_request (r := .clusterDomain) (f := id) fun s hs => hS.clusterDomain hs hz).mono fun domain hd => ⟨?_, hd⟩
      replace hd : (h .clusterDomain z).1 = .ok domain := hd
      simp only [f, Findings.ofState, hf, hd]
      rfl
  refine hdomain.action_bind fun domain hd => ?_
  obtain ⟨rfl, hd⟩ := hd
  have himage : Attests S z (ExceptT.mk (pure (Desired.operandImage ingress.spec setup.settings.image)) : Action String).run
      fun image => Desired.operandImage ingress.spec setup.settings.image = .ok image ∧ f.image = image := by
    intro s image t s' _ _ hg _
    obtain ⟨ha, -, -⟩ := hg.of_done
    refine ⟨ha.symm, ?_⟩
    simp only [f, Findings.ofState, ← ha]
    rfl
  refine himage.action_bind fun image hi => ?_
  obtain ⟨hi, rfl⟩ := hi
  refine (attests_ensure ingress .deployment rfl (Drift.deployment_self ingress _)).mono fun _ hmet => ⟨⟨hi, hd⟩, fun w hw => ?_⟩
  cases List.mem_singleton.1 hw
  exact hmet

include hS hz in
/-- A step that ends well without writing found its objects as they are wanted. -/
theorem attests_runStep (step : Step) {base : Option String} (hb : Knows h z base) :
    let f := Findings.ofState S setup ingress ns z
    Attests S z ((runStep setup ingress ns (f.host setup ingress ns) step).run base).run
      (Aware h z fun _ => step.Settled S setup ingress ns f z) := by
  intro f
  cases step with
  | certificates => exact attests_lift (attests_certificates f) hb
  | service => exact attests_bind (attests_lift (attests_service f) hb) fun _ base hs hb => .done ⟨hs, hb⟩
  | config => exact attests_config hS hz hb
  | routes =>
    refine attests_bind (attests_baseDomain hS hz hb) fun domain base hd hb => ?_
    have hdomain : f.baseDomain = domain := Findings.baseDomain_ofState hd
    rw [← hdomain] at hd ⊢
    exact attests_lift (attests_routes _ hd) hb
  | clusterCa => exact attests_lift (attests_clusterCaOnly _) hb
  | deployment => exact attests_bind (attests_lift (attests_deployment hS hz) hb) fun _ base hs hb => .done ⟨hs, hb⟩

end Pass

end

end IngressOperator
