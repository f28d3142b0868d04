import IngressOperator.Proofs.Pass.OneHost
import IngressOperator.Proofs.Program.Heeds

/-!
# One base domain

A pass on a cluster that serves routes may need the base domain of the cluster for the external host, for the config map that tells
what the cluster is like, and for the route of the proxy. It asks for it at most once, however the cluster would answer then, and
goes by this answer wherever it writes something that depends on it.

## Main statements

* `Pass.heeds_runSteps`: steps ask for the base domain only if nobody did, and write what goes by the answer.
* `Pass.one_base_domain`: so does the whole pass.
-/

namespace IngressOperator

/-! ### What goes by the base domain -/

/-- Whether an exchange asked for the base domain. -/
def Exchange.looksUp : Exchange → Bool
  | ⟨.baseDomain, _⟩ => true
  | _ => false

/-- Whether the pods of a deployment accept certain names, by a variable of which there is one at least and which has no other
value. -/
def Deployment.Accepts (d : Deployment) (header : String) : Prop :=
  ∀ c ∈ ((d.spec.getD {}).template.spec.getD {}).containers, c.name = Names.app →
    (∃ v ∈ c.env.getD [], v.name = "ALLOWED_HOST_HEADERS") ∧
      ∀ v ∈ c.env.getD [], v.name = "ALLOWED_HOST_HEADERS" → v.value = some header

section

variable (setup : Setup) (ingress : ManagementIngress) (ns : String) (t : List Exchange)

open Pass

/-- Whether a config map that tells of hosts tells of the external one, and of the proxy's under the domain that was told. -/
structure ConfigMap.GoesBy (x : ConfigMap) : Prop where
  bindInfo : x.metadata.name = some Names.bindInfo → ∃ host, External setup ingress ns t host ∧
    (x.data.getD ∅).get? "MANAGEMENT_INGRESS_ROUTE_HOST" = some host
  clusterInfo : x.metadata.name = some Names.clusterInfo → ∃ host base, External setup ingress ns t host ∧
    toldDomain? t = some base ∧ (x.data.getD ∅).get? "cluster_address" = some host ∧
      (x.data.getD ∅).get? "cluster_ca_domain" = some host ∧
      (x.data.getD ∅).get? "openshift_router_base_domain" = some base ∧
      (x.data.getD ∅).get? "proxy_address" = some (Host.proxy base ns ingress.spec.multipleInstancesEnabled)

/-- Whether the host of the console's route is the external one. -/
def Route.ConsoleGoesBy (x : Route) : Prop :=
  x.metadata.name = some Names.consoleRoute → ∃ host, External setup ingress ns t host ∧ x.spec.host = Host.withoutPort host

/-- Whether the host of the proxy's route is the one under the domain that was told. -/
def Route.ProxyGoesBy (x : Route) : Prop :=
  x.metadata.name = some Names.proxyRoute → ∃ base, toldDomain? t = some base ∧
    x.spec.host = Host.proxy base ns ingress.spec.multipleInstancesEnabled

/-- Whether the certificate of the console's route is for the external host. -/
def Certificate.GoesBy (x : Certificate) : Prop :=
  x.metadata.name = some Names.routeCert → ∃ host, External setup ingress ns t host ∧ x.spec.dnsNames = [Host.withoutPort host]

/-- Whether the pods of a deployment accept the external host. -/
def Deployment.GoesBy (x : Deployment) : Prop :=
  ∃ host, External setup ingress ns t host ∧ x.Accepts (Desired.allowedHostHeader ingress.spec (Host.withoutPort host) ns)

/-- Whether all that a request asks to be written goes by the base domain that was told in some exchanges, so far as it depends on it.
A route of the proxy that exists keeps its host. A deployment that was read may be written back with the time noted on its pods. A
status has the external host, or the one it had if no domain could be told. -/
def Request.GoesBy : Request → Prop
  | .create .configMap x | .update .configMap x => ConfigMap.GoesBy setup ingress ns t x
  | .create .route x => Route.ConsoleGoesBy setup ingress ns t x ∧ Route.ProxyGoesBy ingress ns t x
  | .update .route x => Route.ConsoleGoesBy setup ingress ns t x
  | .create .certificate x | .update .certificate x => Certificate.GoesBy setup ingress ns t x
  | .create .deployment x => Deployment.GoesBy setup ingress ns t x
  | .update .deployment x => Deployment.GoesBy setup ingress ns t x ∨
    ∃ d now, (⟨.get .deployment ns Names.app, .ok (some d)⟩ : Exchange) ∈ t ∧ x = Steps.stamped d now
  | .updateStatus _ status => External setup ingress ns t status.host ∨
    (∃ e, (⟨.baseDomain, .error e⟩ : Exchange) ∈ t) ∧ status.host = (ingress.status.getD {}).host
  | _ => True

end

namespace Pass

variable {setup : Setup} {ingress : ManagementIngress} {ns host : String} {t : List Exchange}

/-! ### What stays known -/

/-- A domain that was told stays the one that was told first. -/
theorem toldDomain?_append {base : String} (h : toldDomain? t = some base) (t' : List Exchange) :
    toldDomain? (t ++ t') = some base := by
  unfold toldDomain? at h ⊢
  rw [List.findSome?_append, h]
  rfl

/-- Where nobody asked for the domain, none was told. -/
theorem toldDomain?_eq_none (h : ∀ x ∈ t, x.looksUp = false) : toldDomain? t = none := by
  refine List.findSome?_eq_none_iff.2 fun x hx => ?_
  have hlooks := h x hx
  split
  · cases hlooks
  · rfl

theorem External.append (h : External setup ingress ns t host) (t' : List Exchange) : External setup ingress ns (t ++ t') host := by
  unfold External at h ⊢
  split
  · next hnamed => rwa [if_pos hnamed] at h
  · next hnamed =>
    rw [if_neg hnamed] at h
    cases hf : setup.flavor with
    | standard =>
      rw [hf] at h
      obtain ⟨base, hbase, hhost⟩ := h
      exact ⟨base, toldDomain?_append hbase t', hhost⟩
    | cncf domain =>
      rw [hf] at h
      exact h

end Pass

section

variable {setup : Setup} {ingress : ManagementIngress} {ns : String} {t : List Exchange}

theorem ConfigMap.GoesBy.append {x : ConfigMap} (h : ConfigMap.GoesBy setup ingress ns t x) (t' : List Exchange) :
    ConfigMap.GoesBy setup ingress ns (t ++ t') x where
  bindInfo hname := by
    obtain ⟨host, hhost, hdata⟩ := h.bindInfo hname
    exact ⟨host, hhost.append t', hdata⟩
  clusterInfo hname := by
    obtain ⟨host, base, hhost, hbase, hdata⟩ := h.clusterInfo hname
    exact ⟨host, base, hhost.append t', Pass.toldDomain?_append hbase t', hdata⟩

theorem Route.ConsoleGoesBy.append {x : Route} (h : Route.ConsoleGoesBy setup ingress ns t x) (t' : List Exchange) :
    Route.ConsoleGoesBy setup ingress ns (t ++ t') x := by
  intro hname
  obtain ⟨host, hhost, hx⟩ := h hname
  exact ⟨host, hhost.append t', hx⟩

theorem Route.ProxyGoesBy.append {x : Route} (h : Route.ProxyGoesBy ingress ns t x) (t' : List Exchange) :
    Route.ProxyGoesBy ingress ns (t ++ t') x := by
  intro hname
  obtain ⟨base, hbase, hx⟩ := h hname
  exact ⟨base, Pass.toldDomain?_append hbase t', hx⟩

theorem Certificate.GoesBy.append {x : Certificate} (h : Certificate.GoesBy setup ingress ns t x) (t' : List Exchange) :
    Certificate.GoesBy setup ingress ns (t ++ t') x := by
  intro hname
  obtain ⟨host, hhost, hx⟩ := h hname
  exact ⟨host, hhost.append t', hx⟩

theorem Deployment.GoesBy.append {x : Deployment} (h : Deployment.GoesBy setup ingress ns t x) (t' : List Exchange) :
    Deployment.GoesBy setup ingress ns (t ++ t') x := by
  obtain ⟨host, hhost, hx⟩ := h
  exact ⟨host, hhost.append t', hx⟩

/-- What goes by the domain that was told goes by it later on. -/
theorem Request.GoesBy.append {r : Request} (h : r.GoesBy setup ingress ns t) (t' : List Exchange) :
    r.GoesBy setup ingress ns (t ++ t') := by
  cases r with
  | create k x =>
    cases k with
    | configMap => exact ConfigMap.GoesBy.append h t'
    | route => exact ⟨h.1.append t', h.2.append t'⟩
    | certificate => exact Certificate.GoesBy.append h t'
    | deployment => exact Deployment.GoesBy.append h t'
    | _ => trivial
  | update k x =>
    cases k with
    | configMap => exact ConfigMap.GoesBy.append h t'
    | route => exact Route.ConsoleGoesBy.append h t'
    | certificate => exact Certificate.GoesBy.append h t'
    | deployment =>
      rcases h with h | ⟨d, now, hm, hx⟩
      · exact .inl (h.append t')
      · exact .inr ⟨d, now, List.mem_append_left _ hm, hx⟩
    | _ => trivial
  | updateStatus _ status =>
    rcases h with h | ⟨⟨e, hm⟩, hhost⟩
    · exact .inl (h.append t')
    · exact .inr ⟨⟨e, List.mem_append_left _ hm⟩, hhost⟩
  | _ => trivial

end

namespace Pass

/-! ### What a pass knows -/

/-- What is right to ask for after some exchanges: the base domain if nobody asked for it, and what goes by the one that was told. -/
def Right (setup : Setup) (ingress : ManagementIngress) (ns : String) (t : List Exchange) (r : Request) : Prop :=
  (r = .baseDomain → ∀ x ∈ t, x.looksUp = false) ∧ r.GoesBy setup ingress ns t

/-- What is known of the base domain where it is remembered, or is not. -/
def Remembers : Option String → List Exchange → Prop
  | none, t => ∀ x ∈ t, x.looksUp = false
  | some base, t => toldDomain? t = some base

/-- What is known after some exchanges by the parts of a pass that have a host. -/
structure Informed (setup : Setup) (ingress : ManagementIngress) (ns host : String) (base : Option String) (t : List Exchange) :
    Prop where
  base : Remembers base t
  host : External setup ingress ns t host

section

variable {setup : Setup} {ingress : ManagementIngress} {ns host : String} {base : Option String} {t : List Exchange}

/-- It stays known as long as nobody asks for the base domain. -/
theorem Remembers.ask (h : Remembers base t) {r : Request} (hr : r ≠ .baseDomain) (answer : r.Answer) :
    Remembers base (t ++ [⟨r, answer⟩]) := by
  cases base with
  | some base => exact toldDomain?_append h _
  | none =>
    intro x hx
    rcases List.mem_append.1 hx with hx | hx
    · exact h x hx
    · cases List.mem_singleton.1 hx
      cases r with
      | baseDomain => exact absurd rfl hr
      | _ => rfl

theorem Informed.ask (h : Informed setup ingress ns host base t) {r : Request} (hr : r ≠ .baseDomain) (answer : r.Answer) :
    Informed setup ingress ns host base (t ++ [⟨r, answer⟩]) :=
  ⟨h.base.ask hr answer, h.host.append _⟩

/-- A domain that is told when nobody asked for it before is remembered. -/
theorem remembers_told (h : Remembers none t) (domain : String) :
    Remembers (some domain) (t ++ [⟨.baseDomain, .ok domain⟩]) := by
  have hnone := toldDomain?_eq_none h
  change toldDomain? (t ++ _) = some domain
  unfold toldDomain? at hnone ⊢
  rw [List.findSome?_append, hnone]
  rfl

/-! ### Programs that do not ask for the domain -/

/-- Whether a request does not ask for the base domain and is right wherever something is so. -/
def Plain (setup : Setup) (ingress : ManagementIngress) (ns : String) (I : List Exchange → Prop) (r : Request) : Prop :=
  r ≠ .baseDomain ∧ ∀ t, I t → r.GoesBy setup ingress ns t

/-- A program of plain requests heeds what is known, and keeps it. -/
theorem heeds_of_asks {α : Type} {p : Proc α}
    (hp : p.Asks ObjectStore.Sensible (Plain setup ingress ns (Informed setup ingress ns host base)))
    (hi : Informed setup ingress ns host base t) :
    p.Heeds ObjectStore.Sensible (Right setup ingress ns) (fun t _ => Informed setup ingress ns host base t) t :=
  .of_asks hp (fun hi hr => ⟨⟨fun hb => absurd hb hr.1, hr.2 _ hi⟩, hi.ask hr.1⟩) hi

/-- A request that writes nothing that depends on the domain is plain. -/
theorem plain_of_looks {I : List Exchange → Prop} {r : Request} (hr : r.Looks) (hne : r ≠ .baseDomain) :
    Plain setup ingress ns I r := by
  refine ⟨hne, fun t _ => ?_⟩
  cases r with
  | create _ _ => exact absurd hr id
  | update _ _ => exact absurd hr id
  | delete _ _ _ => exact absurd hr id
  | updateStatus _ _ => exact absurd hr id
  | _ => trivial

/-- Asking for objects or the time is not asking for the domain. -/
theorem observes_ne_baseDomain {r : Request} (hr : r.Observes) : r ≠ .baseDomain := by
  intro he
  subst he
  exact hr

theorem plain_of_observes {I : List Exchange → Prop} {r : Request} (hr : r.Observes) : Plain setup ingress ns I r :=
  plain_of_looks hr.looks (observes_ne_baseDomain hr)

/-- What only looks for objects or the time is plain. -/
theorem plain_peeks (I : List Exchange → Prop) :
    Proc.Peeks False fun p => p.Asks ObjectStore.Sensible (Plain setup ingress ns I) :=
  Proc.Asks.peeks (fun _ hr => plain_of_observes hr) nofun

/-- It is right at any time to ask for objects or the time. -/
theorem right_of_observes {r : Request} (hr : r.Observes) : Right setup ingress ns t r := by
  have hplain : Plain setup ingress ns (· = t) r := plain_of_observes hr
  exact ⟨fun hb => absurd hb hplain.1, hplain.2 t rfl⟩

/-- Keeping an object is plain if it is to put any object of its name that does not differ from the desired one. -/
theorem plain_ensure {I : List Exchange → Prop} {k : OwnedKind} {desired : k.kind.Object} {name : String}
    (hk : k.kind.key desired = .ok (ns, name)) (hd : (Drift.object k desired desired).changed = false)
    (hput : ∀ x, (k.kind.metadata x).name = some name → (Drift.object k x desired).changed = false → ∀ t, I t →
      (Request.create k.kind x).GoesBy setup ingress ns t ∧ (Request.update k.kind x).GoesBy setup ingress ns t) :
    (ensure ingress k desired).run.Asks ObjectStore.Sensible (Plain setup ingress ns I) := by
  have hkey := key_owned ingress hk
  have hr := settles_revision k (changed_owned ingress hd)
  obtain ⟨refs, ho⟩ := owned_eq ingress k.kind desired
  have hsame (x : k.kind.Object) : (Drift.object k x (owned ingress k.kind desired)).changed = (Drift.object k x desired).changed := by
    rw [ho, Drift.object_withMetadata]
  rw [ensure_eq]
  refine asks_keeping hkey ⟨nofun, fun t hi => ?_⟩ (plain_of_observes trivial) ?_
  · have hchanged := changed_owned ingress hd
    rw [hsame] at hchanged
    exact (hput _ (Kind.key_eq_ok.1 hkey).2 hchanged t hi).1
  · intro live x hlive hx
    refine ⟨nofun, fun t hi => ?_⟩
    obtain ⟨hchanged, -⟩ := revision_eq_none.1 (hr.written hx "")
    rw [Kind.withVersion, Drift.changed_withMetadata, hsame] at hchanged
    exact (hput x ((hr.name hx).trans hlive.2) hchanged t hi).2

/-! ### Objects of steps -/

/-- The certificates are for the external host. -/
theorem plain_certificates :
    (Steps.certificates ingress ns (Host.withoutPort host)).run.Asks ObjectStore.Sensible
      (Plain setup ingress ns (Informed setup ingress ns host base)) := by
  unfold Steps.certificates
  refine Action.asks_bind ?_ fun service => ?_
  · refine plain_ensure (k := .certificate) rfl (Drift.certificate_self _) ?_
    intro x hname _ t _
    have hother : Certificate.GoesBy setup ingress ns t x := fun hn => absurd (hname.symm.trans hn) (by decide)
    exact ⟨hother, hother⟩
  · split
    · trivial
    · refine Action.asks_bind ?_ fun route => trivial
      refine plain_ensure (k := .certificate) rfl (Drift.certificate_self _) ?_
      intro x _ hsame t hi
      have hnames : Certificate.GoesBy setup ingress ns t x := fun _ => ⟨host, hi.host, Drift.certificate_agrees hsame⟩
      exact ⟨hnames, hnames⟩

theorem plain_service (I : List Exchange → Prop) :
    (Steps.service ingress ns).run.Asks ObjectStore.Sensible (Plain setup ingress ns I) :=
  plain_ensure (k := .service) rfl (Drift.service_self ns) fun _ _ _ _ _ => ⟨trivial, trivial⟩

/-- A config map is plain if all of its name that have the desired texts go by the domain. -/
theorem plain_configMap {I : List Exchange → Prop} {name : String} {data : Dict String}
    (hdata : ∀ x : ConfigMap, x.metadata.name = some name → x.data.getD ∅ = data → ∀ t, I t →
      ConfigMap.GoesBy setup ingress ns t x) :
    (ensure ingress .configMap (Desired.configMap ns name data)).run.Asks ObjectStore.Sensible (Plain setup ingress ns I) := by
  refine plain_ensure (k := .configMap) rfl (Drift.configMap_self _) ?_
  intro x hname hsame t hi
  have hgoes := hdata x hname (Drift.configMap_agrees hsame) t hi
  exact ⟨hgoes, hgoes⟩

/-- The operand's own configuration depends on no domain. -/
theorem plain_configuration (I : List Exchange → Prop) :
    (ensure ingress .configMap (Desired.configMap ns Names.config ingress.spec.config)).run.Asks ObjectStore.Sensible
      (Plain setup ingress ns I) :=
  plain_configMap fun x hname _ t _ =>
    ⟨fun hn => absurd (hname.symm.trans hn) (by decide), fun hn => absurd (hname.symm.trans hn) (by decide)⟩

/-- The config map for others tells of the external host. -/
theorem plain_bindInfo :
    (ensure ingress .configMap (Desired.configMap ns Names.bindInfo (Desired.bindInfo host))).run.Asks ObjectStore.Sensible
      (Plain setup ingress ns (Informed setup ingress ns host base)) := by
  refine plain_configMap fun x hname hdata t hi => ⟨fun _ => ⟨host, hi.host, ?_⟩, ?_⟩
  · rw [hdata]
    simp [Desired.bindInfo, SortedMap.ofList, SortedMap.insertMany, SortedMap.get?_insert_of_ne]
  · exact fun hn => absurd (hname.symm.trans hn) (by decide)

/-- The config map that tells what the cluster is like tells of the external host, of the domain and of the proxy's host under it. -/
theorem plain_clusterInfo {domain : String} (api : ApiAddress) :
    (ensure ingress .configMap (Desired.configMap ns Names.clusterInfo (Desired.standardClusterInfo setup.settings ns host domain api
      (Host.proxy domain ns ingress.spec.multipleInstancesEnabled)))).run.Asks ObjectStore.Sensible
      (Plain setup ingress ns (Informed setup ingress ns host (some domain))) := by
  refine plain_configMap fun x hname hdata t hi => ⟨?_, fun _ => ⟨host, domain, hi.host, hi.base, ?_⟩⟩
  · exact fun hn => absurd (hname.symm.trans hn) (by decide)
  · rw [hdata]
    simp [Desired.standardClusterInfo, Desired.commonClusterInfo, SortedMap.ofList, SortedMap.insertMany,
      SortedMap.get?_insert_of_ne]

/-- A route of the proxy is created with the host under the domain; one that exists keeps its host. -/
theorem plain_proxyRoute {domain : String} :
    (ensureCreated ingress .route (Desired.route ns Names.proxyRoute Names.proxyService
      (Host.proxy domain ns ingress.spec.multipleInstancesEnabled) none)).run.Asks ObjectStore.Sensible
      (Plain setup ingress ns (Informed setup ingress ns host (some domain))) := by
  rw [ensureCreated_eq]
  refine asks_keeping (key_owned ingress rfl) ⟨nofun, fun t hi => ?_⟩ (plain_of_observes trivial) ?_
  · obtain ⟨refs, ho⟩ := owned_eq ingress .route (Desired.route ns Names.proxyRoute Names.proxyService
      (Host.proxy domain ns ingress.spec.multipleInstancesEnabled) none)
    rw [ho]
    refine ⟨fun hn => ?_, fun _ => ⟨domain, hi.base, rfl⟩⟩
    have hname : Names.proxyRoute = Names.consoleRoute := Option.some.inj hn
    exact absurd hname (by decide)
  · intro live x hlive hx
    refine ⟨nofun, fun t _ hn => ?_⟩
    have hname := ((settles_adoption .route _).name hx).trans hlive.2
    exact absurd (hname.symm.trans hn) (by decide)

/-- The authority depends on no domain. -/
theorem plain_clusterCa (I : List Exchange → Prop) (source : Secret) :
    (Steps.clusterCa ingress ns source).run.Asks ObjectStore.Sensible (Plain setup ingress ns I) :=
  plain_ensure (k := .secret) rfl (Drift.secret_self _) fun _ _ _ _ _ => ⟨trivial, trivial⟩

/-- The routes have the external host, and the proxy's under the domain. -/
theorem plain_routes {domain : String} (wait : WaitPolicy) :
    (Steps.routes ingress wait ns (Host.withoutPort host)
      (Host.proxy domain ns ingress.spec.multipleInstancesEnabled)).run.Asks ObjectStore.Sensible
      (Plain setup ingress ns (Informed setup ingress ns host (some domain))) := by
  unfold Steps.routes
  refine Action.asks_bind ((plain_peeks _).awaitSecret wait _) fun serviceSecret => ?_
  refine Action.asks_bind (Proc.Asks.composes.routeMaterial serviceSecret ((plain_peeks _).awaitSecret wait _)) fun found => ?_
  refine Action.asks_bind (plain_clusterCa _ _) fun ca => ?_
  refine Action.asks_bind ?_ fun console => Action.asks_bind plain_proxyRoute fun proxy => trivial
  refine plain_ensure (k := .route) rfl (Drift.route_self _) ?_
  intro x hname hsame t hi
  have hconsole : Route.ConsoleGoesBy setup ingress ns t x := fun _ => ⟨host, hi.host, (Drift.route_agrees hsame).1⟩
  exact ⟨⟨hconsole, fun hn => absurd (hname.symm.trans hn) (by decide)⟩, hconsole⟩

theorem plain_clusterCaOnly (I : List Exchange → Prop) (wait : WaitPolicy) :
    (Steps.clusterCaOnly ingress wait ns).run.Asks ObjectStore.Sensible (Plain setup ingress ns I) := by
  unfold Steps.clusterCaOnly
  refine Action.asks_bind ((plain_peeks I).awaitSecret wait _) fun source => ?_
  exact Action.asks_bind (plain_clusterCa I source) fun ca => trivial

/-- The pods accept the external host. -/
theorem plain_deployment :
    (deployment setup ingress ns (Host.withoutPort host)).run.Asks ObjectStore.Sensible
      (Plain setup ingress ns (Informed setup ingress ns host base)) := by
  unfold deployment
  refine Action.asks_bind ?_ fun domain => Action.asks_bind trivial fun image => ?_
  · unfold clusterDomain
    split
    · exact Proc.Asks.request (plain_of_looks trivial nofun)
    · trivial
  · refine plain_ensure (k := .deployment) rfl (Drift.deployment_self ingress _) ?_
    intro x _ hsame t hi
    have haccepts : Deployment.GoesBy setup ingress ns t x :=
      ⟨host, hi.host, header_agrees (Desired.allowedHostHeader_ne_empty _ _ _) hsame⟩
    exact ⟨haccepts, .inl haccepts⟩

end

/-! ### Programs that ask for the domain -/

section

variable {setup : Setup} {ingress : ManagementIngress} {ns host : String} {base : Option String} {t : List Exchange}

/-- What the answer is where the base domain was needed: the one that was told, or why it is not known. -/
def Told (t : List Exchange) : Except Failure (String × Option String) → Prop
  | .ok (domain, base) => base = some domain ∧ toldDomain? t = some domain
  | .error cause => (⟨.baseDomain, .error cause⟩ : Exchange) ∈ t

/-- What is known after a step: it is remembered what was told, if the step ended well. -/
def Remembering.Ends (setup : Setup) (ingress : ManagementIngress) (ns host : String) {α : Type} (t : List Exchange) :
    Except Failure (α × Option String) → Prop
  | .ok (_, base) => Informed setup ingress ns host base t
  | .error _ => True

/-- A domain that is remembered is not asked for, and one that is not was not asked for before. -/
theorem heeds_baseDomain (h : Remembers base t) :
    (baseDomain.run base).run.Heeds ObjectStore.Sensible (Right setup ingress ns) Told t := by
  cases base with
  | some domain => exact ⟨rfl, h⟩
  | none =>
    rw [run_baseDomain_none]
    refine ⟨⟨fun _ => h, trivial⟩, fun answer _ => ?_⟩
    cases answer with
    | error cause => exact List.mem_append_right t List.mem_cons_self
    | ok domain => exact ⟨rfl, remembers_told h domain⟩

/-- An action leaves the domain remembered, or not remembered, if it keeps what is known. -/
theorem heeds_lift {α : Type} {a : Action α}
    (ha : a.run.Heeds ObjectStore.Sensible (Right setup ingress ns) (fun t _ => Informed setup ingress ns host base t) t) :
    ((liftM a : Remembering α).run base).run.Heeds ObjectStore.Sensible (Right setup ingress ns)
      (Remembering.Ends setup ingress ns host) t :=
  ha.action (fun _ _ hi => hi) fun _ _ _ => trivial

/-- What goes on after an action that keeps what is known goes on knowing it. -/
theorem heeds_lift_bind {α β : Type} {a : Action α} {f : α → Remembering β}
    (ha : a.run.Heeds ObjectStore.Sensible (Right setup ingress ns) (fun t _ => Informed setup ingress ns host base t) t)
    (hf : ∀ x t, Informed setup ingress ns host base t →
      ((f x).run base).run.Heeds ObjectStore.Sensible (Right setup ingress ns) (Remembering.Ends setup ingress ns host) t) :
    (((liftM a : Remembering α) >>= f).run base).run.Heeds ObjectStore.Sensible (Right setup ingress ns)
      (Remembering.Ends setup ingress ns host) t := by
  have hrun : ((liftM a : Remembering α) >>= f).run base = a >>= fun x => (f x).run base := by
    rw [StateT.run_bind]
    exact bind_assoc a (fun x => pure (x, base)) fun y => (f y.1).run y.2
  rw [hrun]
  exact ha.action (fun t x hi => hf x t hi) fun _ _ _ => trivial

/-- A part of a step that goes on with the domain goes on with the one that was told. -/
theorem heeds_withDomain {β : Type} {f : String → Remembering β} (hi : Informed setup ingress ns host base t)
    (hf : ∀ domain t, Informed setup ingress ns host (some domain) t →
      ((f domain).run (some domain)).run.Heeds ObjectStore.Sensible (Right setup ingress ns)
        (Remembering.Ends setup ingress ns host) t) :
    ((baseDomain >>= f).run base).run.Heeds ObjectStore.Sensible (Right setup ingress ns)
      (Remembering.Ends setup ingress ns host) t := by
  refine (heeds_baseDomain hi.base).grown.action ?_ fun _ _ _ => trivial
  rintro t' ⟨domain, base'⟩ ⟨⟨rfl, htold⟩, more, rfl⟩
  exact hf domain _ ⟨htold, hi.host.append more⟩

/-- A deployment that was read is written back with the time noted on its pods. -/
theorem heeds_restart (hi : Informed setup ingress ns host base t) :
    (Steps.restart ns).run.Heeds ObjectStore.Sensible (Right setup ingress ns)
      (fun t _ => Informed setup ingress ns host base t) t := by
  rw [Steps.run_restart]
  refine ⟨right_of_observes trivial, fun found _ => ?_⟩
  have hread := hi.ask (r := .get .deployment ns Names.app) (observes_ne_baseDomain trivial) found
  rcases found with e | (_ | d)
  · exact hread
  · exact hread
  · refine ⟨right_of_observes trivial, fun now _ => ⟨⟨nofun, .inr ⟨d, now, ?_, rfl⟩⟩, fun answer _ => ?_⟩⟩
    · exact List.mem_append_left _ (List.mem_append_right _ List.mem_cons_self)
    · have hnow := hread.ask (r := .now) (observes_ne_baseDomain trivial) now
      have hstamped := hnow.ask (r := .update .deployment (Steps.stamped d now)) nofun answer
      cases answer <;> exact hstamped

/-- Keeping the operand's own configuration may replace its pods. -/
theorem heeds_configuration (hi : Informed setup ingress ns host base t) :
    (Steps.configMap ingress (Desired.configMap ns Names.config ingress.spec.config) true).run.Heeds ObjectStore.Sensible
      (Right setup ingress ns) (fun t _ => Informed setup ingress ns host base t) t := by
  unfold Steps.configMap
  refine (heeds_of_asks (plain_configuration _) hi).action ?_ fun _ _ hi => hi
  intro t synced hi
  split
  · exact (heeds_restart hi).action (fun _ _ hi => hi) fun _ _ hi => hi
  · exact hi

variable (hflavor : setup.flavor = .standard)

include hflavor

/-- The config maps are kept, and the domain is asked for if nobody did. -/
theorem heeds_config (hi : Informed setup ingress ns host base t) :
    ((config setup ingress ns host).run base).run.Heeds ObjectStore.Sensible (Right setup ingress ns)
      (Remembering.Ends setup ingress ns host) t := by
  unfold config clusterInfo
  rw [hflavor]
  refine heeds_lift_bind (heeds_configuration hi) fun own t hi => ?_
  refine heeds_lift_bind (heeds_of_asks (Proc.Asks.composes.configMap rfl plain_bindInfo nofun) hi) fun bind t hi => ?_
  -- the domain that the map tells of is the one that is known where it is kept
  simp only [bind_assoc, pure_bind]
  refine heeds_withDomain hi fun domain t hi => ?_
  refine heeds_lift_bind (heeds_of_asks (Proc.Asks.request (plain_of_looks trivial nofun)) hi) fun api t hi => ?_
  refine heeds_lift_bind (heeds_of_asks (Proc.Asks.composes.configMap rfl (plain_clusterInfo api) nofun) hi) fun cluster t hi => ?_
  exact hi

/-- A step asks for the domain only if nobody did, and writes what goes by it. -/
theorem heeds_runStep (step : Step) (hi : Informed setup ingress ns host base t) :
    ((runStep setup ingress ns host step).run base).run.Heeds ObjectStore.Sensible (Right setup ingress ns)
      (Remembering.Ends setup ingress ns host) t := by
  cases step with
  | certificates => exact heeds_lift (heeds_of_asks plain_certificates hi)
  | service => exact heeds_lift_bind (heeds_of_asks (plain_service _) hi) fun synced t hi => hi
  | config => exact heeds_config hflavor hi
  | routes => exact heeds_withDomain hi fun domain t hi => heeds_lift (heeds_of_asks (plain_routes _) hi)
  | clusterCa => exact heeds_lift (heeds_of_asks (plain_clusterCaOnly _ _) hi)
  | deployment => exact heeds_lift_bind (heeds_of_asks plain_deployment hi) fun synced t hi => hi

/-- Steps ask for the domain only if nobody did, and write what goes by it; the status stays one of the host. -/
theorem heeds_runSteps (steps : List Step) {status : IngressStatus} (hstatus : status.host = host)
    (hi : Informed setup ingress ns host base t) :
    (runSteps setup ingress ns host steps base status).Heeds ObjectStore.Sensible (Right setup ingress ns)
      (fun t ended => ended.1.host = host ∧ External setup ingress ns t host) t := by
  induction steps generalizing base status t with
  | nil => exact ⟨hstatus, hi.host⟩
  | cons step rest ih =>
    unfold runSteps
    refine (heeds_runStep hflavor step hi).grown.bind ?_
    rintro t' (cause | ⟨synced, base'⟩) ⟨hends, more, rfl⟩
    · exact ⟨right_of_observes trivial, fun now _ => ⟨hstatus, (hi.host.append more).append _⟩⟩
    · refine ⟨right_of_observes trivial, fun now _ => ?_⟩
      have hmarked : (status.markReady step.kind.name now).host = host := hstatus
      have hi' : Informed setup ingress ns host base' (t ++ more) := hends
      exact (ih hmarked (hi'.ask (r := .now) (observes_ne_baseDomain trivial) now)).bind fun t ended hended => hended

omit hflavor

/-! ### Reporting -/

/-- A status that goes by the domain may be written. -/
theorem heeds_writeStatus {I : List Exchange → Prop} {written status : IngressStatus}
    (hI : ∀ answer, I (t ++ [⟨.updateStatus ingress status, answer⟩])) (ht : I t)
    (hgoes : (Request.updateStatus ingress status).GoesBy setup ingress ns t) :
    (writeStatus ingress written status).run.Heeds ObjectStore.Sensible (Right setup ingress ns)
      (fun t result => I t ∧ ∀ new, result = .ok new → new = status) t := by
  by_cases hne : written = status
  · rw [hne, writeStatus_self]
    refine ⟨ht, fun new he => ?_⟩
    cases he
    rfl
  · rw [run_writeStatus_of_ne hne]
    refine ⟨⟨nofun, hgoes⟩, fun answer _ => ⟨hI answer, fun new he => ?_⟩⟩
    cases answer with
    | error e => cases he
    | ok _ =>
      cases he
      rfl

/-- Writing it leaves nothing to be said. -/
theorem heeds_lastStatus {written status : IngressStatus}
    (hgoes : (Request.updateStatus ingress status).GoesBy setup ingress ns t) :
    (writeStatus ingress written status).run.Heeds ObjectStore.Sensible (Right setup ingress ns) (fun _ _ => True) t :=
  (heeds_writeStatus (I := fun _ => True) (fun _ => trivial) trivial hgoes).mono fun _ _ _ => trivial

/-- A new report is one of the external host. -/
theorem heeds_announceHost (written : IngressStatus) (hi : Informed setup ingress ns host base t) :
    (announceHost ingress written host).run.Heeds ObjectStore.Sensible (Right setup ingress ns)
      (fun t result => Informed setup ingress ns host base t ∧ ∀ new, result = .ok new → new.host = host) t := by
  by_cases ho : ofHost written host
  · rw [announceHost_same ingress ho]
    refine ⟨hi, fun new he => ?_⟩
    cases he
    exact ho.host
  · rw [run_announceHost_of_not ho]
    refine ⟨right_of_observes trivial, fun now _ => ?_⟩
    have hi' := hi.ask (r := .now) (observes_ne_baseDomain trivial) now
    have hkept := hi'.ask (r := .updateStatus ingress (begun host now)) nofun
    refine (heeds_writeStatus hkept hi' (.inl hi'.host)).mono fun t result hr => ?_
    exact ⟨hr.1, fun new he => (congrArg IngressStatus.host (hr.2 new he)).trans rfl⟩

/-- The report of a pass whose steps all ran is one of the external host. -/
theorem heeds_finish (written : IngressStatus) {status : IngressStatus} (hstatus : status.host = host)
    (hhost : External setup ingress ns t host) :
    (finish ingress ns written status).run.Heeds ObjectStore.Sensible (Right setup ingress ns) (fun _ _ => True) t := by
  rw [run_finish]
  refine ⟨right_of_observes trivial, fun pods _ => ?_⟩
  have hgoes : External setup ingress ns (t ++ [⟨.list .pod ns s!"app={Names.app}", pods⟩]) (concluded status pods).host := by
    rw [host_concluded, hstatus]
    exact hhost.append _
  exact (heeds_lastStatus (.inl hgoes)).bind fun _ _ _ => trivial

/-! ### The pass -/

/-- The deployment is looked at, and perhaps deleted, without asking for the domain. -/
theorem heeds_removeLegacy :
    (removeLegacy ns).run.Heeds ObjectStore.Sensible (Right setup ingress ns) (fun t _ => Remembers none t) [] := by
  have hasks : (removeLegacy ns).run.Asks ObjectStore.Sensible (Plain setup ingress ns (Remembers none)) :=
    (plain_peeks _).removeLegacy (Proc.Asks.request ⟨nofun, fun _ _ => trivial⟩)
  have hnone : Remembers none [] := fun _ hx => absurd hx List.not_mem_nil
  exact .of_asks hasks (fun h hr => ⟨⟨fun hb => absurd hb hr.1, hr.2 _ h⟩, h.ask hr.1⟩) hnone

/-- The host that is found is the external one; if none is found, no domain could be told. -/
theorem heeds_resolveHost (hflavor : setup.flavor = .standard) (h : Remembers none t) :
    ((resolveHost setup ingress ns).run none).run.Heeds ObjectStore.Sensible (Right setup ingress ns)
      (fun t result =>
        match result with
        | .ok (host, base) => Informed setup ingress ns host base t
        | .error cause => (⟨.baseDomain, .error cause⟩ : Exchange) ∈ t) t := by
  unfold resolveHost
  split
  · next hnamed =>
    refine ⟨h, ?_⟩
    unfold External
    rw [if_pos (by simpa using hnamed)]
  · next hunnamed =>
    rw [hflavor]
    refine (heeds_baseDomain h).action ?_ fun _ _ hm => hm
    rintro t ⟨domain, base⟩ ⟨rfl, htold⟩
    refine ⟨htold, ?_⟩
    unfold External
    rw [if_neg (by simpa using hunnamed), hflavor]
    exact ⟨domain, htold, rfl⟩

/-- A pass asks for the domain only if nobody did, and writes what goes by it. -/
theorem heeds_run (hflavor : setup.flavor = .standard) (hns : ingress.metadata.ns = some ns) :
    (run setup ingress).Heeds ObjectStore.Sensible (Right setup ingress ns) (fun _ _ => True) [] := by
  unfold run
  simp only [hns]
  refine heeds_removeLegacy.bind fun t legacy h => ?_
  rcases legacy with cause | (_ | _)
  · trivial
  · refine (heeds_resolveHost hflavor h).bind fun t resolved hresolved => ?_
    rcases resolved with cause | ⟨host, base⟩
    · have hgoes : (Request.updateStatus ingress ((ingress.status.getD {}).withOperand .failed cause.message)).GoesBy setup
          ingress ns t := .inr ⟨⟨cause, hresolved⟩, rfl⟩
      exact (heeds_lastStatus hgoes).bind fun _ _ _ => trivial
    · unfold runWithHost
      refine (heeds_announceHost _ hresolved).bind fun t announced hannounced => ?_
      rcases announced with cause | written
      · trivial
      · refine (heeds_runSteps hflavor _ (hannounced.2 written rfl) hannounced.1).bind fun t ended hended => ?_
        obtain ⟨status, result⟩ := ended
        obtain ⟨hstatus, hhost⟩ := hended
        rcases result with ⟨kind, cause⟩ | synced
        · have hgoes : External setup ingress ns t status.host := hstatus.symm ▸ hhost
          exact (heeds_lastStatus (.inl hgoes)).bind fun _ _ _ => trivial
        · refine (heeds_finish written hstatus hhost).bind fun t reported _ => ?_
          cases reported <;> trivial
  · trivial

/-- However its requests are answered, a pass on a cluster that serves routes asks for the base domain once at most, and all that it
asks to be written goes by what it was told, so far as it depends on it. -/
theorem one_base_domain {σ : Type} {R : Serving σ} {s s' : σ} {result : Except PassFailure PassOutcome}
    (hflavor : setup.flavor = .standard) (hy : (run setup ingress).Yields R s result t s')
    (hsensible : ∀ x ∈ t, ObjectStore.Sensible x.request x.answer) :
    t.countP Exchange.looksUp ≤ 1 ∧
      ∀ x ∈ t, ∃ ns, ingress.metadata.ns = some ns ∧ x.request.GoesBy setup ingress ns t := by
  cases hns : ingress.metadata.ns with
  | none =>
    unfold run at hy
    simp only [hns] at hy
    obtain ⟨-, rfl, -⟩ := hy.of_done
    exact ⟨Nat.zero_le 1, fun _ hx => absurd hx List.not_mem_nil⟩
  | some ns =>
    obtain ⟨-, hright⟩ := (heeds_run hflavor hns).yields hy hsensible
    constructor
    · refine countP_le_one fun before x after ht hx y hy => ?_
      have hask : x.request = .baseDomain := by
        obtain ⟨r, answer⟩ := x
        cases r with
        | baseDomain => rfl
        | _ => cases hx
      exact (hright before x after ht).1 hask y hy
    · intro x hx
      obtain ⟨before, after, rfl⟩ := List.append_of_mem hx
      exact ⟨ns, rfl, (hright before x after rfl).2.append (x :: after)⟩

end

open Cluster

namespace Restless

/-- Answers requests in a cluster that has another domain after each of them. -/
def handler : Proc.Handler Cluster := fun r c =>
  let (answer, c) := Direct.handler r c
  (answer, { c with facts := { c.facts with baseDomain := c.facts.baseDomain.map ("new." ++ ·) } })

/-- It reads objects of the names that were asked for, and stays calm otherwise. -/
theorem sensible {c c' : Cluster} {r : Request} {answer : r.Answer} (hc : ∃ facts, c.Calm facts)
    (hr : handler.serving c r answer c') : ObjectStore.Sensible r answer ∧ ∃ facts, c'.Calm facts := by
  obtain ⟨facts, hc⟩ := hc
  cases hr
  have hcalm : (Direct.handler r c).2.Calm facts := (Direct.store facts).holds r c hc
  exact ⟨(Direct.store facts).sensible hc r, _, hcalm.faults, hcalm.arrivals, hcalm.taken, rfl, hcalm.filed⟩

end Restless

/-- A pass over a cluster that has another domain after each request asks for one, and goes by it everywhere. -/
theorem restless_one_base_domain :
    let t := (run { certificatesServed := false } Small.ingress).trace Restless.handler Rerouted.cluster
    t.countP Exchange.looksUp ≤ 1 ∧ ∀ x ∈ t, ∃ ns, Small.ingress.metadata.ns = some ns ∧
      x.request.GoesBy { certificatesServed := false } Small.ingress ns t := by
  intro t
  have hg := Proc.Goes.of_run Restless.handler (run { certificatesServed := false } Small.ingress) Rerouted.cluster
  exact one_base_domain rfl hg.yields (hg.yields.answers Restless.sensible ⟨_, Rerouted.calm⟩)

end Pass

end IngressOperator
