import IngressOperator.Pass
import IngressOperator.Proofs.Drift.Desired
import IngressOperator.Proofs.Steps.Await

/-!
# What steps write

Each step writes objects of certain names only, and goes by these and by the secrets that it waits for. No step writes an object
that an earlier one goes by.

## Main statements

* `Pass.writesOnly_runStep`: a step writes nothing but its objects.
* `Pass.targets_disjoint`: no step of a pass writes what an earlier one goes by.
-/

namespace IngressOperator

/-! ### Programs that write certain objects -/

section

variable {α β : Type} {keys : List ObjectKey}

/-- An action that goes on writes what both of its parts write. -/
theorem Action.writesOnly_bind {a : Action α} {f : α → Action β} (ha : a.run.WritesOnly keys)
    (hf : ∀ x, (f x).run.WritesOnly keys) : (a >>= f).run.WritesOnly keys :=
  Action.asks_bind ha hf

/-- A request that names no object writes none. -/
theorem Proc.writesOnly_ask {r : Request} {next : r.Answer → Proc α} (hr : r.target? = none)
    (hn : ∀ answer, (next answer).WritesOnly keys) : (Proc.ask r next).WritesOnly keys :=
  ⟨fun _ hk => absurd (hr ▸ hk) nofun, fun answer _ => hn answer⟩

namespace Steps

/-- Waiting for a secret writes nothing. -/
theorem writesOnly_awaitSecret (wait : WaitPolicy) (ns name : String) :
    (awaitSecret wait ns name).run.WritesOnly keys := by
  have hread {r : Request} (hr : r.target? = none) : (Proc.request r).WritesOnly keys := Proc.writesOnly_ask hr fun _ => trivial
  exact composes_awaitSecret Proc.Asks.composes wait (hread rfl) (hread rfl) fun _ => hread rfl

/-- The program that replaces the pods of the operand. -/
theorem run_restart (ns : String) :
    (restart ns).run =
      Proc.ask (.get .deployment ns Names.app) fun
        | .ok (some d) =>
          Proc.ask .now fun now =>
            Proc.ask (.update .deployment (stamped d now)) fun
              | .ok _ => .done (.ok [⟨.deployment, Names.app, .updated⟩])
              | .error _ => .done (.ok [])
        | _ => .done (.ok []) := by
  refine congrArg (Proc.ask _) (funext fun found => ?_)
  rcases found with e | (_ | d)
  · rfl
  · rfl
  · refine congrArg (Proc.ask _) (funext fun now => congrArg (Proc.ask _) (funext fun answer => ?_))
    cases answer <;> rfl

/-- Replacing the pods of the operand asks for its deployment to be read, for the time, and for the deployment to be replaced. -/
theorem asks_restart {A : (r : Request) → r.Answer → Prop} {P : Request → Prop} {ns : String}
    (hget : P (.get .deployment ns Names.app)) (hnow : P .now)
    (hupdate : ∀ {d}, A (.get .deployment ns Names.app) (.ok (some d)) → ∀ now, P (.update .deployment (stamped d now))) :
    (restart ns).run.Asks A P := by
  rw [run_restart]
  refine ⟨hget, ?_⟩
  intro found hfound
  rcases found with e | (_ | d)
  · trivial
  · trivial
  · refine ⟨hnow, ?_⟩
    intro now _
    refine ⟨hupdate hfound now, ?_⟩
    intro answer _
    cases answer with
    | error e => trivial
    | ok z => trivial

/-- Noting the time of a change keeps the name of a deployment. -/
theorem objectKey?_stamped (d : Deployment) (now : Instant) :
    Kind.objectKey? .deployment (stamped d now) = Kind.objectKey? .deployment d := rfl

end Steps

end

/-! ### Objects of steps -/

namespace Step

/-- The objects that a step may write. -/
def targets (ns : String) : Step → List ObjectKey
  | certificates => [Kind.certificate.keyAt ns Names.serviceCert, Kind.certificate.keyAt ns Names.routeCert]
  | service => [Kind.service.keyAt ns Names.service]
  | config => [
    Kind.configMap.keyAt ns Names.config, Kind.configMap.keyAt ns Names.bindInfo, Kind.configMap.keyAt ns Names.clusterInfo,
    Kind.deployment.keyAt ns Names.app]
  | routes => [
    Kind.secret.keyAt ns Names.clusterCa, Kind.route.keyAt ns Names.consoleRoute, Kind.route.keyAt ns Names.proxyRoute]
  | clusterCa => [Kind.secret.keyAt ns Names.clusterCa]
  | deployment => [Kind.deployment.keyAt ns Names.app]

/-- The objects that a step goes by: what it comes to once more depends on these. -/
def bases (ns : String) : Step → List ObjectKey
  | config => [
    Kind.configMap.keyAt ns Names.config, Kind.configMap.keyAt ns Names.bindInfo, Kind.configMap.keyAt ns Names.clusterInfo]
  | routes => Kind.secret.keyAt ns Names.serviceSecret :: Kind.secret.keyAt ns Names.routeSecret :: targets ns routes
  | clusterCa => Kind.secret.keyAt ns Names.serviceSecret :: Kind.secret.keyAt ns Names.routeSecret :: targets ns clusterCa
  | step => step.targets ns

end Step

namespace Pass

variable {α β : Type} {keys : List ObjectKey}

/-! ### Actions that remember the base domain -/

/-- An action writes the same where a domain is remembered. -/
theorem writesOnly_lift {a : Action α} (h : a.run.WritesOnly keys) (base : Option String) :
    ((liftM a : Remembering α).run base).run.WritesOnly keys :=
  Action.writesOnly_bind h fun _ => trivial

/-- What goes on writes what both of its parts write. -/
theorem writesOnly_bind {x : Remembering α} {f : α → Remembering β} {base : Option String}
    (hx : (x.run base).run.WritesOnly keys) (hf : ∀ a base, ((f a).run base).run.WritesOnly keys) :
    ((x >>= f).run base).run.WritesOnly keys :=
  Action.writesOnly_bind hx fun y => hf y.1 y.2

theorem run_baseDomain_some (domain : String) : (baseDomain.run (some domain)).run = .done (.ok (domain, some domain)) := rfl

/-- A domain that is not remembered is asked for. -/
theorem run_baseDomain_none :
    (baseDomain.run none).run =
      Proc.ask .baseDomain fun answer => .done (answer.map fun domain => (domain, some domain)) := by
  refine congrArg (Proc.ask _) (funext fun answer => ?_)
  cases answer <;> rfl

/-- Asking for the base domain writes nothing. -/
theorem writesOnly_baseDomain (base : Option String) : (baseDomain.run base).run.WritesOnly keys := by
  cases base with
  | some domain => trivial
  | none =>
    rw [run_baseDomain_none]
    exact Proc.writesOnly_ask rfl fun _ => trivial

/-! ### Steps -/

section

variable (setup : Setup) (ingress : ManagementIngress) (ns host : String)

/-- Keeping a desired object writes objects of a list that has its key. -/
theorem writesOnly_ensure_mem (k : OwnedKind) {desired : k.kind.Object} {name : String}
    (hk : k.kind.key desired = .ok (ns, name)) (hd : (Drift.object k desired desired).changed = false)
    (hm : k.kind.keyAt ns name ∈ keys) : (ensure ingress k desired).run.WritesOnly keys :=
  (writesOnly_ensure ingress hk hd).mono fun _ h => List.mem_singleton.1 h ▸ hm

theorem writesOnly_certificates :
    (Steps.certificates ingress ns host).run.WritesOnly (Step.certificates.targets ns) := by
  refine Action.writesOnly_bind ?_ fun service => ?_
  · exact writesOnly_ensure_mem ingress ns .certificate rfl (Drift.certificate_self _) (.head _)
  · split
    · trivial
    · refine Action.writesOnly_bind ?_ fun _ => trivial
      exact writesOnly_ensure_mem ingress ns .certificate rfl (Drift.certificate_self _) (.tail _ (.head _))

theorem writesOnly_service : (Steps.service ingress ns).run.WritesOnly (Step.service.targets ns) :=
  writesOnly_ensure_mem ingress ns .service rfl (Drift.service_self ns) (.head _)

/-- Replacing the pods of the operand writes its deployment. -/
theorem writesOnly_restart : (Steps.restart ns).run.WritesOnly [Kind.deployment.keyAt ns Names.app] := by
  refine Steps.asks_restart (fun _ hk => absurd hk nofun) (fun _ hk => absurd hk nofun) ?_
  intro d hd now key hk
  rw [Request.target?, Steps.objectKey?_stamped, Kind.objectKey?_eq.2 hd] at hk
  exact List.mem_singleton.2 (Option.some.inj hk).symm

/-- Keeping a config map writes it, and the deployment if its pods are to be replaced. -/
theorem writesOnly_configMap {desired : ConfigMap} {name : String} {restarts : Bool}
    (hk : Kind.configMap.key desired = .ok (ns, name)) (hm : Kind.configMap.keyAt ns name ∈ keys)
    (hd : restarts = true → Kind.deployment.keyAt ns Names.app ∈ keys) :
    (Steps.configMap ingress desired restarts).run.WritesOnly keys := by
  have hns : desired.metadata.ns = some ns := (Kind.key_eq_ok.1 hk).1
  refine Action.writesOnly_bind ?_ fun synced => ?_
  · exact writesOnly_ensure_mem ingress ns .configMap hk (Drift.configMap_self desired) hm
  · split
    · next h =>
      refine Action.writesOnly_bind ?_ fun _ => trivial
      rw [hns]
      exact (writesOnly_restart ns).mono fun _ h' => List.mem_singleton.1 h' ▸ hd (by simpa using (Bool.and_eq_true_iff.1 h).1)
    · trivial

/-- What a cluster is said to be like is found without writing. -/
theorem writesOnly_clusterInfo (base : Option String) :
    ((clusterInfo setup ingress ns host).run base).run.WritesOnly keys := by
  unfold clusterInfo
  cases setup.flavor with
  | cncf domain => trivial
  | standard =>
    refine writesOnly_bind (writesOnly_baseDomain base) fun domain base => ?_
    refine writesOnly_bind (writesOnly_lift ?_ base) fun api base => trivial
    exact Proc.writesOnly_ask rfl fun answer => trivial

theorem writesOnly_config (base : Option String) :
    ((config setup ingress ns host).run base).run.WritesOnly (Step.config.targets ns) := by
  refine writesOnly_bind (writesOnly_lift ?_ base) fun own base => ?_
  · exact writesOnly_configMap ingress ns rfl (.head _) fun _ => .tail _ (.tail _ (.tail _ (.head _)))
  refine writesOnly_bind (writesOnly_lift ?_ base) fun bind base => ?_
  · exact writesOnly_configMap ingress ns rfl (.tail _ (.head _)) nofun
  refine writesOnly_bind (writesOnly_clusterInfo setup ingress ns host base) fun info base => ?_
  refine writesOnly_bind (writesOnly_lift ?_ base) fun cluster base => trivial
  exact writesOnly_configMap ingress ns rfl (.tail _ (.tail _ (.head _))) nofun

/-- Publishing an authority writes its secret. -/
theorem writesOnly_clusterCa (source : Secret) (hm : Kind.secret.keyAt ns Names.clusterCa ∈ keys) :
    (Steps.clusterCa ingress ns source).run.WritesOnly keys :=
  writesOnly_ensure_mem ingress ns .secret rfl (Drift.secret_self _) hm

theorem writesOnly_publish (proxyHost : String) (material : Option Desired.TlsMaterial) (source : Secret) :
    (Steps.publish ingress ns host proxyHost material source).run.WritesOnly (Step.routes.targets ns) := by
  refine Action.writesOnly_bind (writesOnly_clusterCa ingress ns source (.head _)) fun ca => ?_
  refine Action.writesOnly_bind ?_ fun console => Action.writesOnly_bind ?_ fun proxy => trivial
  · exact writesOnly_ensure_mem ingress ns .route rfl (Drift.route_self _) (.tail _ (.head _))
  · exact (writesOnly_ensureCreated ingress rfl).mono fun _ h => List.mem_singleton.1 h ▸ .tail _ (.tail _ (.head _))

/-- The secrets that routes need are waited for without writing. -/
theorem writesOnly_routeMaterial (wait : WaitPolicy) (serviceSecret : Secret) :
    (Steps.routeMaterial ingress wait ns serviceSecret).run.WritesOnly keys := by
  unfold Steps.routeMaterial
  split
  · trivial
  · exact Action.writesOnly_bind (Steps.writesOnly_awaitSecret wait ns _) fun _ => trivial

theorem writesOnly_routes (wait : WaitPolicy) (proxyHost : String) :
    (Steps.routes ingress wait ns host proxyHost).run.WritesOnly (Step.routes.targets ns) := by
  refine Action.writesOnly_bind (Steps.writesOnly_awaitSecret wait ns _) fun serviceSecret => ?_
  refine Action.writesOnly_bind (writesOnly_routeMaterial ingress ns wait serviceSecret) fun found => ?_
  exact writesOnly_publish ingress ns host proxyHost found.1 found.2

theorem writesOnly_clusterCaOnly (wait : WaitPolicy) :
    (Steps.clusterCaOnly ingress wait ns).run.WritesOnly (Step.clusterCa.targets ns) := by
  refine Action.writesOnly_bind (Steps.writesOnly_awaitSecret wait ns _) fun source => ?_
  exact Action.writesOnly_bind (writesOnly_clusterCa ingress ns source (.head _)) fun _ => trivial

/-- The domain of names within the cluster is found without writing. -/
theorem writesOnly_clusterDomain : (clusterDomain setup).run.WritesOnly keys := by
  unfold clusterDomain
  cases setup.flavor with
  | standard => exact Proc.writesOnly_ask rfl fun _ => trivial
  | cncf _ => trivial

theorem writesOnly_deployment : (deployment setup ingress ns host).run.WritesOnly (Step.deployment.targets ns) := by
  refine Action.writesOnly_bind (writesOnly_clusterDomain setup) fun domain => Action.writesOnly_bind ?_ fun image => ?_
  · trivial
  · exact writesOnly_ensure_mem ingress ns .deployment rfl (Drift.deployment_self ingress _) (.head _)

/-- A step writes nothing but its objects. -/
theorem writesOnly_runStep (step : Step) (base : Option String) :
    ((runStep setup ingress ns host step).run base).run.WritesOnly (step.targets ns) := by
  cases step with
  | certificates => exact writesOnly_lift (writesOnly_certificates ingress ns _) base
  | service => exact writesOnly_bind (writesOnly_lift (writesOnly_service ingress ns) base) fun _ _ => trivial
  | config => exact writesOnly_config setup ingress ns host base
  | routes =>
    refine writesOnly_bind (writesOnly_baseDomain base) fun domain base => ?_
    exact writesOnly_lift (writesOnly_routes ingress ns _ _ _) base
  | clusterCa => exact writesOnly_lift (writesOnly_clusterCaOnly ingress ns _) base
  | deployment =>
    exact writesOnly_bind (writesOnly_lift (writesOnly_deployment setup ingress ns _) base) fun _ _ => trivial

/-- No step of a pass writes what an earlier one goes by. -/
theorem targets_disjoint : setup.steps.Pairwise fun earlier later => ∀ key ∈ earlier.bases ns, key ∉ later.targets ns := by
  have hplan : setup.flavor.plan.Pairwise fun earlier later => ∀ key ∈ earlier.bases ns, key ∉ later.targets ns := by
    cases setup.flavor <;> simp [Flavor.plan, Step.bases, Step.targets, Kind.keyAt, Kind.name]
  exact hplan.filter _

end

end Pass

end IngressOperator
