import IngressOperator.Desired.Deployment
import IngressOperator.Desired.Route
import IngressOperator.Proofs.Store.Repeat

/-!
# Desired objects do not differ from themselves

The environment of the operand names every variable once and each of its volumes has a source, so that the desired deployment
does not differ from itself; nor do the other desired objects. Hence each of them is kept once for all.

## Main statements

* `Drift.deployment_self`: the desired deployment does not differ from itself.
* `repeats_ensure`: keeping an object that was just brought to the desired one finds nothing to do.
-/

namespace IngressOperator

namespace Drift

/-! ### Environments and volumes -/

/-- In a list whose names are distinct, each element is the first of its name. -/
theorem find?_name {α : Type} (name : α → String) {l : List α} (h : (l.map name).Nodup) {x : α} (hx : x ∈ l) :
    (l.find? fun y => name y == name x) = some x := by
  induction l with
  | nil => cases hx
  | cons y l ih =>
    rw [List.map_cons, List.nodup_cons] at h
    rcases List.mem_cons.1 hx with rfl | hx
    · simp
    · have hne : name y ≠ name x := fun he => h.1 (he ▸ List.mem_map_of_mem hx)
      rw [List.find?_cons_of_neg (by simpa using hne)]
      exact ih h.2 hx

theorem sameNames_self {α : Type} (name : α → String) (l : List α) : sameNames name l l = true := by
  simp only [sameNames, Bool.and_eq_true, List.all_eq_true, List.any_eq_true, beq_iff_eq]
  exact ⟨fun x hx => ⟨x, hx, rfl⟩, fun x hx => ⟨x, hx, rfl⟩⟩

/-- An environment that names every variable once is the same as itself. -/
theorem sameEnv_self {env : List EnvVar} (h : (env.map (·.name)).Nodup) : sameEnv env env = true := by
  simp only [sameEnv, sameNames_self, beq_self_eq_true, Bool.true_and, List.all_eq_true]
  intro x hx
  rw [find?_name (·.name) h hx]
  simp [sameValue]

/-! ### Desired objects -/

/-- The environment of the operand names every variable once. -/
theorem nodup_environment (spec : IngressSpec) (params : Desired.DeploymentParams) :
    ((Desired.environment spec params).map (·.name)).Nodup := by
  have h : (Desired.environment spec params).map (·.name) =
      ["WATCH_NAMESPACE", "ENABLE_IMPERSONATION", "APISERVER_SECURE_PORT", "CLUSTER_DOMAIN", "HOST_HEADERS_CHECK_ENABLED",
        "ALLOWED_HOST_HEADERS", "OIDC_ISSUER_URL", "WLP_CLIENT_ID", "POD_NAME", "POD_NAMESPACE", "FIPS_ENABLED"] := rfl
  rw [h]
  decide

/-- The container of the operand does not differ from itself. -/
theorem container_self (spec : IngressSpec) (params : Desired.DeploymentParams) :
    (container (Desired.container spec params) (Desired.container spec params)).changed = false := by
  have henv : sameEnv ((Desired.container spec params).env.getD []) ((Desired.container spec params).env.getD []) = true :=
    sameEnv_self (nodup_environment spec params)
  simp [container, sameResources_self, henv]

/-- The desired deployment does not differ from itself. -/
theorem deployment_self (ingress : ManagementIngress) (params : Desired.DeploymentParams) :
    (deployment (Desired.deployment ingress params) (Desired.deployment ingress params)).changed = false := by
  have hc : (containers (Desired.podSpec ingress.spec params).containers
      (Desired.podSpec ingress.spec params).containers).changed = false := by
    have h := container_self ingress.spec params
    simp [containers, Desired.podSpec, containerAmong, h]
  have hv : sameVolumes ((Desired.podSpec ingress.spec params).volumes.getD [])
      ((Desired.podSpec ingress.spec params).volumes.getD []) = true := by
    have h : ∀ vs : List Volume, vs = (Desired.podSpec default default).volumes.getD [] → sameVolumes vs vs = true := by
      rintro _ rfl
      decide
    exact h _ rfl
  simp [deployment, Desired.deployment, podSpec, sameEntries_self, sameTolerations_self, hc, hv]

/-- The desired service does not differ from itself. -/
theorem service_self (ns : String) : (service (Desired.service ns) (Desired.service ns)).changed = false := by
  simp [service, Desired.service, sameEntries_self]

theorem configMap_self (x : ConfigMap) : (configMap x x).changed = false := by
  simp [configMap, sameEntries_self]

theorem secret_self (x : Secret) : (secret x x).changed = false := by
  simp [secret, sameEntries_self]

theorem route_self (x : Route) : (route x x).changed = false := by
  simp [route]

theorem certificate_self (x : Certificate) : (certificate x x).changed = false := by
  simp [certificate]

/-- The metadata of a desired object are not compared, nor taken over. -/
theorem object_withMetadata (k : OwnedKind) (live desired : k.kind.Object) (m : Meta) :
    object k live (k.kind.withMetadata desired m) = object k live desired := by
  cases k <;> rfl

end Drift

/-! ### Owners of desired objects -/

/-- A desired object with an owner is that object with other metadata, of the same namespace and name. -/
theorem owned_eq (owner : ManagementIngress) (k : Kind) (desired : k.Object) :
    ∃ refs, owned owner k desired = k.withMetadata desired { k.metadata desired with ownerReferences := refs } := by
  unfold owned
  split
  · exact ⟨_, rfl⟩
  · exact ⟨(k.metadata desired).ownerReferences, (k.withMetadata_metadata desired).symm⟩

/-- An owner does not change where an object belongs. -/
theorem key_owned (owner : ManagementIngress) {k : Kind} {desired : k.Object} {ns name : String}
    (h : k.key desired = .ok (ns, name)) : k.key (owned owner k desired) = .ok (ns, name) := by
  obtain ⟨refs, ho⟩ := owned_eq owner k desired
  rw [Kind.key_eq_ok] at h ⊢
  rw [ho, Kind.metadata_withMetadata]
  exact h

/-- An owner does not make an object differ from itself. -/
theorem changed_owned (owner : ManagementIngress) {k : OwnedKind} {desired : k.kind.Object}
    (h : (Drift.object k desired desired).changed = false) :
    (Drift.object k (owned owner k.kind desired) (owned owner k.kind desired)).changed = false := by
  obtain ⟨refs, ho⟩ := owned_eq owner k.kind desired
  rw [ho, Drift.object_withMetadata, Drift.changed_withMetadata]
  exact h

/-! ### Keeping desired objects -/

section

variable {σ : Type} {h : Proc.Handler σ} (S : ObjectStore h) (owner : ManagementIngress) {ns name : String}

/-- Keeping an object that was just brought to the desired one finds nothing to do. -/
theorem repeats_ensure (k : OwnedKind) {desired : k.kind.Object} (hk : k.kind.key desired = .ok (ns, name))
    (hd : (Drift.object k desired desired).changed = false) :
    Repeats S [k.kind.keyAt ns name] (Echoes fun _ y => y.outcome.mutated = false) (ensure owner k desired).run
      (ensure owner k desired).run := by
  rw [ensure_eq]
  have hm : k.kind ≠ .managementIngress := by cases k <;> decide
  refine (repeats_keeping S hm (key_owned owner hk) (settles_revision k (changed_owned owner hd))).imp fun _ _ he => ?_
  refine he.imp fun _ y hy => ?_
  rw [hy]
  rfl

/-- Likewise for an object that is only to exist. -/
theorem repeats_ensureCreated {k : Kind} {desired : k.Object} (hm : k ≠ .managementIngress)
    (hk : k.key desired = .ok (ns, name)) :
    Repeats S [k.keyAt ns name] (Echoes fun _ y => y.outcome.mutated = false) (ensureCreated owner k desired).run
      (ensureCreated owner k desired).run := by
  rw [ensureCreated_eq]
  refine (repeats_keeping S hm (key_owned owner hk) (settles_adoption k _)).imp fun _ _ he => ?_
  refine he.imp fun _ y hy => ?_
  rw [hy]
  rfl

/-- Keeping an object writes nothing but that object. -/
theorem writesOnly_ensure {k : OwnedKind} {desired : k.kind.Object} (hk : k.kind.key desired = .ok (ns, name))
    (hd : (Drift.object k desired desired).changed = false) :
    (ensure owner k desired).run.WritesOnly [k.kind.keyAt ns name] := by
  rw [ensure_eq]
  exact writesOnly_keeping (key_owned owner hk) (settles_revision k (changed_owned owner hd))

theorem writesOnly_ensureCreated {k : Kind} {desired : k.Object} (hk : k.key desired = .ok (ns, name)) :
    (ensureCreated owner k desired).run.WritesOnly [k.keyAt ns name] := by
  rw [ensureCreated_eq]
  exact writesOnly_keeping (key_owned owner hk) (settles_adoption k _)

end

end IngressOperator
