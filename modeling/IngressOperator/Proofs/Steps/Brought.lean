import IngressOperator.Proofs.Steps.Wanted
import IngressOperator.Proofs.Store.Custody

/-!
# What steps bring about

A step that ends well has brought its objects to what is wanted, as far as nobody else writes to them: they are stored so when it
ends, whatever was stored before and whatever else the step found out.

## Main statements

* `Custody.brings_ensure`: an object that was kept is stored as it is wanted.
* `Custody.brings_runStep`: a step that ends well has brought the host to its objects.
-/

namespace IngressOperator

variable {σ α β : Type} {R : Serving σ} {docs : ObjectKey → Option Json}

namespace Custody

variable {C : Custody R}

/-! ### Objects -/

section

variable (owner : ManagementIngress) {ns name : String}

/-- An object that was kept is stored as it is wanted. -/
theorem brings_ensure (k : OwnedKind) {desired : k.kind.Object} (hk : k.kind.key desired = .ok (ns, name))
    (hd : (Drift.object k desired desired).changed = false) :
    C.Brings docs [k.kind.keyAt ns name] (ensure owner k desired).run fun _ => Wanted.Met owner ⟨k, desired, true⟩ docs := by
  intro s synced t s' hs hy hdocs
  obtain ⟨hc, hdoc⟩ := hdocs _ (List.mem_singleton_self _)
  have hm : k.kind ≠ .managementIngress := by cases k <;> nofun
  rw [ensure_eq] at hy
  obtain ⟨j, x, hj, hx, hr⟩ := C.stored_keeping hm (key_owned owner hk) (settles_revision k (changed_owned owner hd)) hc hs hy
  obtain ⟨hsame, hadopts⟩ := revision_eq_none.1 hr
  obtain ⟨refs, ho⟩ := owned_eq owner k.kind desired
  rw [ho, Drift.object_withMetadata] at hsame
  exact ⟨_, j, x, Kind.objectKey?_eq.2 (Kind.key_eq_ok.1 hk), hdoc.symm.trans hj, hx, fun _ => hsame, hadopts⟩

/-- A config map that was kept is stored as it is wanted, whether pods were replaced for it or not. -/
theorem brings_configMap {desired : ConfigMap} {restarts : Bool} (hk : Kind.configMap.key desired = .ok (ns, name)) :
    C.Brings docs [Kind.configMap.keyAt ns name] (Steps.configMap owner desired restarts).run fun _ =>
      Wanted.Met owner ⟨.configMap, desired, true⟩ docs := by
  have hns : desired.metadata.ns = some ns := (Kind.key_eq_ok.1 hk).1
  refine (brings_ensure owner .configMap hk (Drift.configMap_self desired)).action_bind (List.Subset.refl _) ?_
    (M := [Kind.deployment.keyAt ns Names.app]) ?_ ?_
  · intro synced hmet
    exact .of_true hmet
  · intro synced
    split
    · rw [hns]
      exact Action.writesOnly_bind (Pass.writesOnly_restart ns) fun _ => trivial
    · trivial
  · intro key hkey hm
    rw [List.mem_singleton.1 hkey] at hm
    have hkind := (Kind.keyAt_inj.1 (List.mem_singleton.1 hm)).1
    cases hkind

end

/-! ### Actions that remember the base domain -/

/-- What one action that remembers the base domain brought about, a later one leaves that writes elsewhere. -/
theorem Brings.remembering {x : Pass.Remembering α} {f : α → Pass.Remembering β} {base : Option String} {K L M : List ObjectKey}
    {Q : α → Prop} {T : β × Option String → Prop} (hx : C.Brings docs K (x.run base).run fun y => Q y.1) (hk : K ⊆ L)
    (hf : ∀ a base, Q a → C.Brings docs L ((f a).run base).run T) (hw : ∀ a base, ((f a).run base).run.WritesOnly M)
    (hd : ∀ key ∈ K, key ∉ M) : C.Brings docs L ((x >>= f).run base).run T :=
  Brings.action_bind hx hk (fun y hq => hf y.1 y.2 hq) (fun y => hw y.1 y.2) hd

/-- What a later action that remembers the base domain brings about, it does after whatever an earlier one did. -/
theorem Brings.remembering_after {x : Pass.Remembering α} {f : α → Pass.Remembering β} {base : Option String} {L : List ObjectKey}
    {T : β × Option String → Prop} (hf : ∀ a base, C.Brings docs L ((f a).run base).run T) :
    C.Brings docs L ((x >>= f).run base).run T :=
  Brings.action_after fun y => hf y.1 y.2

/-- An action brings about where a domain is remembered what it brings about without. -/
theorem Brings.lift {a : Action α} {K : List ObjectKey} {Q : α → Prop} (ha : C.Brings docs K a.run Q) (base : Option String) :
    C.Brings docs K ((liftM a : Pass.Remembering α).run base).run fun y => Q y.1 :=
  ha.action_map fun _ hq => hq

/-! ### Steps -/

section

variable {setup : Setup} {ingress : ManagementIngress} {ns host : String}

/-- The certificate of the console route, if there is to be one, is stored as it is wanted. -/
theorem brings_certificates :
    C.Brings docs (Step.certificates.targets ns) (Steps.certificates ingress ns host).run fun _ =>
      ingress.spec.ignoreRouteCert = false →
        Wanted.Met ingress ⟨.certificate, Desired.routeCertificate ns host ingress.spec.cert, true⟩ docs := by
  refine Brings.action_after fun service => ?_
  split
  · next hignore => exact .done fun hroute => absurd (hignore.symm.trans hroute) nofun
  · have hroute : C.Brings docs [Kind.certificate.keyAt ns Names.routeCert]
        (ensure ingress .certificate (Desired.routeCertificate ns host ingress.spec.cert)).run fun _ =>
          Wanted.Met ingress ⟨.certificate, Desired.routeCertificate ns host ingress.spec.cert, true⟩ docs :=
      brings_ensure ingress .certificate rfl (Drift.certificate_self _)
    exact (hroute.mono (List.subset_cons_self _ _)).action_map fun _ hmet _ => hmet

/-- The authority and the routes are stored as they are wanted; the route of the proxy is not looked at. -/
theorem brings_publish {proxyHost : String} {material : Option Desired.TlsMaterial} {source : Secret} :
    C.Brings docs (Step.routes.targets ns) (Steps.publish ingress ns host proxyHost material source).run fun _ =>
      Wanted.Met ingress ⟨.secret, Desired.clusterCa ns (source.value Desired.caKey), true⟩ docs ∧
        Wanted.Met ingress ⟨.route, Desired.route ns Names.consoleRoute Names.service host material, true⟩ docs := by
  have hca : C.Brings docs [Kind.secret.keyAt ns Names.clusterCa] (Steps.clusterCa ingress ns source).run fun _ =>
      Wanted.Met ingress ⟨.secret, Desired.clusterCa ns (source.value Desired.caKey), true⟩ docs :=
    brings_ensure ingress .secret rfl (Drift.secret_self _)
  have hconsole : C.Brings docs [Kind.route.keyAt ns Names.consoleRoute]
      (ensure ingress .route (Desired.route ns Names.consoleRoute Names.service host material)).run fun _ =>
        Wanted.Met ingress ⟨.route, Desired.route ns Names.consoleRoute Names.service host material, true⟩ docs :=
    brings_ensure ingress .route rfl (Drift.route_self _)
  have hproxy : (ensureCreated ingress .route (Desired.route ns Names.proxyRoute Names.proxyService proxyHost none)).run.WritesOnly
      [Kind.route.keyAt ns Names.proxyRoute] := writesOnly_ensureCreated ingress rfl
  refine hca.action_bind (fun key hkey => List.mem_singleton.1 hkey ▸ .head _) ?_
    (M := [Kind.route.keyAt ns Names.consoleRoute, Kind.route.keyAt ns Names.proxyRoute]) ?_ ?_
  · intro ca hmet
    refine hconsole.action_bind (fun key hkey => List.mem_singleton.1 hkey ▸ .tail _ (.head _)) ?_
      (M := [Kind.route.keyAt ns Names.proxyRoute]) ?_ ?_
    · intro console hmet'
      exact .of_true ⟨hmet, hmet'⟩
    · intro console
      exact Action.writesOnly_bind hproxy fun _ => trivial
    · simp [Kind.keyAt, Names.consoleRoute, Names.proxyRoute]
  · intro ca
    refine Action.writesOnly_bind ?_ fun console => ?_
    · exact Pass.writesOnly_ensure_mem ingress ns .route rfl (Drift.route_self _) (.head _)
    · exact Action.writesOnly_bind (hproxy.mono (List.subset_cons_self _ _)) fun _ => trivial
  · simp [Kind.keyAt, Kind.name]

/-! ### What a cluster is said to be like -/

end

end Custody

/-- Whether a cluster is said to have a certain address, and its authority the domain of it: the host where routes are served, and
else the console's name under the cluster's own domain. -/
def Describes (flavor : Flavor) (host : String) (info : Dict String) : Prop :=
  let address := match flavor with
    | .standard => host
    | .cncf domain => Host.plainConsole (Host.split domain).1
  info.get? "cluster_address" = some address ∧ info.get? "cluster_ca_domain" = some address

namespace Desired

/-- Entries under other keys leave the address of a cluster. -/
theorem address_commonClusterInfo (settings : Settings) (ns address : String) :
    (commonClusterInfo settings ns address).get? "cluster_address" = some address ∧
      (commonClusterInfo settings ns address).get? "cluster_ca_domain" = some address := by
  simp [commonClusterInfo, SortedMap.ofList, SortedMap.insertMany, SortedMap.get?_insert_of_ne]

theorem describes_standard (settings : Settings) (ns host base : String) (api : ApiAddress) (proxyHost : String) :
    Describes .standard host (standardClusterInfo settings ns host base api proxyHost) := by
  obtain ⟨haddress, hdomain⟩ := address_commonClusterInfo settings ns host
  simp [Describes, standardClusterInfo, SortedMap.insertMany, SortedMap.get?_insert_of_ne, haddress, hdomain]

theorem describes_plain (settings : Settings) (ns domain host : String) :
    Describes (.cncf domain) host (plainClusterInfo settings ns domain) := by
  obtain ⟨haddress, hdomain⟩ := address_commonClusterInfo settings ns (Host.plainConsole (Host.split domain).1)
  unfold plainClusterInfo
  dsimp only
  split
  · simp [Describes, SortedMap.get?_insert_of_ne, haddress, hdomain]
  · simp [Describes, SortedMap.get?_insert_of_ne, haddress, hdomain]

end Desired

namespace Custody

variable {C : Custody R} {setup : Setup} {ingress : ManagementIngress} {ns host : String}

/-- What a cluster is said to be like is its address, whatever it tells of itself. -/
theorem brings_clusterInfo (base : Option String) :
    C.Brings docs [] ((Pass.clusterInfo setup ingress ns host).run base).run fun y => Describes setup.flavor host y.1 := by
  unfold Pass.clusterInfo
  cases setup.flavor with
  | cncf domain => exact .done (Desired.describes_plain setup.settings ns domain host)
  | standard =>
    refine Brings.remembering_after fun domain base => Brings.remembering_after fun api base => ?_
    exact .done (Desired.describes_standard setup.settings ns host domain api _)

/-- The config maps that tell of the host are stored as they are wanted. -/
theorem brings_config (base : Option String) :
    C.Brings docs (Step.config.bases ns) ((Pass.config setup ingress ns host).run base).run fun _ =>
      Wanted.Met ingress ⟨.configMap, Desired.configMap ns Names.bindInfo (Desired.bindInfo host), true⟩ docs ∧
        ∃ info, Describes setup.flavor host info ∧
          Wanted.Met ingress ⟨.configMap, Desired.configMap ns Names.clusterInfo info, true⟩ docs := by
  have hrest {own bind : List Synced} (info : Dict String) (base : Option String) :
      ((do
        let cluster ← (liftM (Steps.configMap ingress (Desired.configMap ns Names.clusterInfo info) false) : Pass.Remembering _)
        pure (own ++ bind ++ cluster) : Pass.Remembering (List Synced)).run base).run.WritesOnly
        [Kind.configMap.keyAt ns Names.clusterInfo] := by
    refine Pass.writesOnly_bind (Pass.writesOnly_lift ?_ base) fun _ _ => trivial
    exact Pass.writesOnly_configMap ingress ns rfl (.head _) nofun
  refine Brings.remembering_after fun own base => ?_
  refine Brings.remembering
    (Q := fun _ => Wanted.Met ingress ⟨.configMap, Desired.configMap ns Names.bindInfo (Desired.bindInfo host), true⟩ docs)
    (Brings.lift (brings_configMap ingress rfl) base) ?_ ?_ (M := [Kind.configMap.keyAt ns Names.clusterInfo]) ?_ ?_
  · intro key hkey
    rw [List.mem_singleton.1 hkey]
    exact .tail _ (.head _)
  · intro bind base hbind
    refine Brings.remembering (brings_clusterInfo base) (List.nil_subset _) ?_
      (M := [Kind.configMap.keyAt ns Names.clusterInfo]) ?_ fun key hkey => absurd hkey List.not_mem_nil
    · intro info base hinfo
      refine Brings.remembering
        (Q := fun _ => Wanted.Met ingress ⟨.configMap, Desired.configMap ns Names.clusterInfo info, true⟩ docs)
        (Brings.lift (brings_configMap ingress rfl) base) ?_ ?_ (M := []) (fun _ _ => trivial) fun _ _ => List.not_mem_nil
      · intro key hkey
        rw [List.mem_singleton.1 hkey]
        exact .tail _ (.tail _ (.head _))
      · intro cluster base hmet
        exact .done ⟨hbind, info, hinfo, hmet⟩
    · exact fun info base => hrest info base
  · intro bind base
    exact Pass.writesOnly_bind (Pass.writesOnly_clusterInfo setup ingress ns host base) hrest
  · simp [Kind.keyAt, Names.bindInfo, Names.clusterInfo]

/-- The deployment is stored as it is wanted, by which its pods accept the host. -/
theorem brings_deployment :
    C.Brings docs (Step.deployment.bases ns) (Pass.deployment setup ingress ns host).run fun _ =>
      ∃ params : Desired.DeploymentParams, params.ns = ns ∧
        params.allowedHostHeader = Desired.allowedHostHeader ingress.spec host ns ∧
          Wanted.Met ingress ⟨.deployment, Desired.deployment ingress params, true⟩ docs := by
  refine Brings.action_after fun domain => Brings.action_after fun image => ?_
  refine (brings_ensure ingress .deployment rfl (Drift.deployment_self ingress _)).imp fun _ hmet => ?_
  exact ⟨_, rfl, rfl, hmet⟩

end Custody

/-! ### Steps -/

/-- Whether the objects of a step that tell of the external host are stored as they are wanted for a host. -/
def Step.Carries (setup : Setup) (ingress : ManagementIngress) (ns host : String) (docs : ObjectKey → Option Json) : Step → Prop
  | certificates =>
    ingress.spec.ignoreRouteCert = false →
      Wanted.Met ingress ⟨.certificate, Desired.routeCertificate ns (Host.withoutPort host) ingress.spec.cert, true⟩ docs
  | service | clusterCa => True
  | config =>
    Wanted.Met ingress ⟨.configMap, Desired.configMap ns Names.bindInfo (Desired.bindInfo host), true⟩ docs ∧
      ∃ info, Describes setup.flavor host info ∧
        Wanted.Met ingress ⟨.configMap, Desired.configMap ns Names.clusterInfo info, true⟩ docs
  | routes =>
    ∃ material, Wanted.Met ingress
      ⟨.route, Desired.route ns Names.consoleRoute Names.service (Host.withoutPort host) material, true⟩ docs
  | deployment =>
    ∃ params : Desired.DeploymentParams, params.ns = ns ∧
      params.allowedHostHeader = Desired.allowedHostHeader ingress.spec (Host.withoutPort host) ns ∧
        Wanted.Met ingress ⟨.deployment, Desired.deployment ingress params, true⟩ docs

namespace Custody

variable {C : Custody R} {setup : Setup} {ingress : ManagementIngress} {ns host : String}

/-- The routes, whose step waits first, are stored as they are wanted. -/
theorem brings_routes {wait : WaitPolicy} {proxyHost : String} :
    C.Brings docs (Step.routes.targets ns) (Steps.routes ingress wait ns host proxyHost).run fun _ =>
      ∃ material, Wanted.Met ingress ⟨.route, Desired.route ns Names.consoleRoute Names.service host material, true⟩ docs := by
  refine Brings.action_after fun serviceSecret => Brings.action_after fun found => ?_
  exact brings_publish.imp fun _ hmet => ⟨found.1, hmet.2⟩

/-- A step that ends well has brought the host to its objects. -/
theorem brings_runStep (step : Step) (base : Option String) :
    C.Brings docs (step.bases ns) ((Pass.runStep setup ingress ns host step).run base).run fun _ =>
      step.Carries setup ingress ns host docs := by
  cases step with
  | certificates => exact Brings.lift brings_certificates base
  | service => exact .of_true trivial
  | config => exact brings_config base
  | routes =>
    refine Brings.remembering_after fun domain base => (Brings.lift brings_routes base).mono ?_
    exact List.subset_cons_of_subset _ (List.subset_cons_self _ _)
  | clusterCa => exact .of_true trivial
  | deployment =>
    refine Brings.remembering (Q := fun _ => Step.deployment.Carries setup ingress ns host docs)
      (Brings.lift brings_deployment base) (List.Subset.refl _) ?_ (M := []) (fun _ _ => trivial) fun _ _ => List.not_mem_nil
    intro synced base hcarries
    exact .done hcarries

end Custody

end IngressOperator
