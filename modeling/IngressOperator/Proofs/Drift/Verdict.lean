import IngressOperator.Proofs.Drift.Desired

/-!
# The verdict of a comparison

A comparison says that nothing changed exactly if merging leaves the live object as it is, and what was merged once is left as it
is by every further merge. The first needs a live object that has the parts in which the desired one has fields; else an absent
part may become an empty one, which counts as no change. The second needs a desired deployment that is definite: in an environment
that names a variable twice, or among volumes of which one has no source, an equal list counts as a different one.

## Main statements

* `Drift.merging_settles`: merging is idempotent, and its verdict is exact.
-/

namespace IngressOperator

/-! ### Definite objects -/

/-- Whether a volume has a source by which volumes are compared. -/
def Volume.Sourced (v : Volume) : Prop := v.secret.isSome ∨ v.configMap.isSome ∨ v.hostPath.isSome

instance (v : Volume) : Decidable v.Sourced := inferInstanceAs (Decidable (_ ∨ _ ∨ _))

/-- Whether a pod can be compared with: each of its containers names every variable of its environment once, no two of its volumes
have one name, and each volume has a source. -/
structure PodSpec.Definite (p : PodSpec) : Prop where
  environments : ∀ c ∈ p.containers, ((c.env.getD []).map (·.name)).Nodup
  volumes : ((p.volumes.getD []).map (·.name)).Nodup
  sources : ∀ v ∈ p.volumes.getD [], v.Sourced

namespace OwnedKind

/-- Whether an object can be compared with; only the pods of a deployment may be such that they cannot. -/
def Definite : (k : OwnedKind) → k.kind.Object → Prop
  | .deployment, d => ∀ want pod, Deployment.spec d = some want → want.template.spec = some pod → pod.Definite
  | _, _ => True

/-- Whether a live object has a specification, and one of its pods, wherever the desired one has. -/
def Covers : (k : OwnedKind) → (live desired : k.kind.Object) → Prop
  | .deployment, live, desired =>
    ∀ want, Deployment.spec desired = some want →
      ∃ spec, Deployment.spec live = some spec ∧ (want.template.spec.isSome → spec.template.spec.isSome)
  | .service, live, desired => (Service.spec desired).isSome → (Service.spec live).isSome
  | _, _, _ => True

end OwnedKind

/-- The objects that the operator desires, for any names and contents, with the custom resource as their owner or without. -/
inductive Desired.Built : (k : OwnedKind) → k.kind.Object → Prop where
  | certificate (ns name secret : String) (dnsNames ipAddresses : List String) (issuer : CertIssuer) :
    Built .certificate (certificate ns name secret dnsNames ipAddresses issuer)
  | service (ns : String) : Built .service (service ns)
  | configMap (ns name : String) (data : Dict String) : Built .configMap (configMap ns name data)
  | route (ns name target host : String) (material : Option TlsMaterial) : Built .route (route ns name target host material)
  | clusterCa (ns : String) (ca : List UInt8) : Built .secret (clusterCa ns ca)
  | deployment (ingress : ManagementIngress) (params : DeploymentParams) : Built .deployment (deployment ingress params)
  | owned (owner : ManagementIngress) {k : OwnedKind} {desired : k.kind.Object} (h : Built k desired) :
    Built k (owned owner k.kind desired)

namespace Drift

/-! ### Idempotence -/

/-- A volume that has a source has the same one as itself. -/
theorem sameSource_self {v : Volume} (h : v.Sourced) : sameSource v v = true := by
  unfold sameSource
  rcases hs : v.secret with _ | s
  · rcases hc : v.configMap with _ | c
    · rcases hp : v.hostPath with _ | p
      · simp [Volume.Sourced, hs, hc, hp] at h
      · simp
    · simp
  · simp

/-- Volumes of distinct names that all have sources are the same as themselves. -/
theorem sameVolumes_self {vs : List Volume} (hn : (vs.map (·.name)).Nodup) (hs : ∀ v ∈ vs, v.Sourced) :
    sameVolumes vs vs = true := by
  simp only [sameVolumes, sameNames_self, beq_self_eq_true, Bool.true_and, List.all_eq_true]
  intro v hv
  have hr : (vs.reverse.map (·.name)).Nodup := by
    rw [List.map_reverse]
    exact List.pairwise_reverse.2 (hn.imp Ne.symm)
  rw [find?_name (·.name) hr (List.mem_reverse.2 hv)]
  exact sameSource_self (hs v hv)

/-- A definite object can be attained, even if two of its containers have one name. -/
theorem attainable_of_definite {k : OwnedKind} {desired : k.kind.Object} (h : k.Definite desired) : Attainable k desired := by
  cases k with
  | deployment =>
    intro want pod hs hp
    obtain ⟨henvironments, hvolumes, hsources⟩ := h want pod hs hp
    refine ⟨fun name d hd => ?_, sameVolumes_self hvolumes hsources⟩
    have henv := sameEnv_self (henvironments d (List.mem_of_find?_eq_some hd))
    simp [container, sameResources_self, henv]
  | _ => trivial

/-- What was merged with an object has all parts that this has. -/
theorem covers_merged (k : OwnedKind) (live desired : k.kind.Object) : k.Covers (object k live desired).merged desired := by
  cases k with
  | service =>
    intro hs
    obtain ⟨want, hw⟩ := Option.isSome_iff_exists.1 hs
    simp [object, service, hw]
  | deployment =>
    intro want hw
    simp only [object, deployment, hw]
    cases hp : want.template.spec with
    | none =>
      refine ⟨_, rfl, fun h => ?_⟩
      cases h
    | some pod => exact ⟨_, rfl, fun _ => rfl⟩
  | _ => trivial

/-! ### Exactness -/

/-- A container that does not differ is left as it is. -/
theorem container_merged_eq {live desired : Container} (h : (container live desired).changed = false) :
    (container live desired).merged = live := by
  simp only [container, Bool.not_eq_false', Bool.and_eq_true] at h
  obtain ⟨⟨⟨hi, hr⟩, he⟩, hm⟩ := h
  simp [container, keep, hi, hr, he, hm]

/-- A container that does not differ from those desired is left as it is. -/
theorem containerAmong_merged_eq {desired : List Container} {live : Container} (h : (containerAmong desired live).changed = false) :
    (containerAmong desired live).merged = live := by
  unfold containerAmong at h ⊢
  cases hd : desired.find? fun d => d.name == live.name with
  | none => rfl
  | some d =>
    rw [hd] at h
    exact container_merged_eq h

/-- Containers that do not differ are left as they are. -/
theorem containers_merged_eq {live desired : List Container} (h : (containers live desired).changed = false) :
    (containers live desired).merged = live := by
  simp only [containers, List.any_eq_false, Bool.not_eq_true] at h
  calc live.map (fun c => (containerAmong desired c).merged)
      = live.map id := List.map_congr_left fun c hc => containerAmong_merged_eq (h c hc)
    _ = live := List.map_id live

/-- A pod that does not differ is left as it is. -/
theorem podSpec_merged_eq {live desired : PodSpec} (h : (podSpec live desired).changed = false) :
    (podSpec live desired).merged = live := by
  simp only [podSpec, Bool.not_eq_false', Bool.and_eq_true, Bool.not_eq_true'] at h
  obtain ⟨⟨⟨hn, ht⟩, hc⟩, hv⟩ := h
  simp [podSpec, keep, hn, ht, hv, containers_merged_eq hc]

/-- A deployment that does not differ is left as it is, if it has all parts that the desired one has. -/
theorem deployment_merged_eq {live desired : Deployment} (hc : OwnedKind.deployment.Covers live desired)
    (h : (deployment live desired).changed = false) : (deployment live desired).merged = live := by
  obtain ⟨metadata, spec?, status⟩ := live
  unfold deployment at h ⊢
  cases hw : desired.spec with
  | none => rfl
  | some want =>
    obtain ⟨spec, rfl, hpods⟩ := hc want hw
    cases hp : want.template.spec with
    | none =>
      simp only [hw, hp, Option.getD_some, Bool.not_eq_false', beq_iff_eq] at h
      simp only [hp, Option.getD_some, ← h]
    | some pod =>
      obtain ⟨own, ho⟩ := Option.isSome_iff_exists.1 (hpods (by rw [hp]; rfl))
      simp only [hw, hp, ho, Option.getD_some, Bool.or_eq_false_iff, Bool.not_eq_false', beq_iff_eq] at h
      simp only [hp, ho, Option.getD_some, ← h.1, podSpec_merged_eq h.2]
      rw [← ho]

/-- A service that does not differ is left as it is, if it has a specification wherever the desired one has. -/
theorem service_merged_eq {live desired : Service} (hc : OwnedKind.service.Covers live desired)
    (h : (service live desired).changed = false) : (service live desired).merged = live := by
  obtain ⟨metadata, spec?, status⟩ := live
  unfold service at h ⊢
  cases hw : desired.spec with
  | none => rfl
  | some want =>
    obtain ⟨spec, rfl⟩ := Option.isSome_iff_exists.1 (hc (by rw [hw]; rfl))
    simp only [hw, Option.getD_some, Bool.not_eq_false', Bool.and_eq_true, beq_iff_eq] at h
    simp only [Option.getD_some, keep, h.2, if_true, ← h.1]

/-- A route that does not differ is left as it is. -/
theorem route_merged_eq {live desired : Route} (h : (route live desired).changed = false) : (route live desired).merged = live := by
  simp only [route, Bool.not_eq_false', Bool.and_eq_true, beq_iff_eq] at h
  obtain ⟨⟨⟨hhost, htarget⟩, hport⟩, htls⟩ := h
  simp [route, keep, htarget, ← hhost, ← hport, ← htls]

/-- An object that does not differ is left as it is, if it has all parts that the desired one has. -/
theorem merged_eq (k : OwnedKind) {live desired : k.kind.Object} (hc : k.Covers live desired)
    (h : (object k live desired).changed = false) : (object k live desired).merged = live := by
  cases k with
  | certificate =>
    have hspec : live.spec = { desired.spec with extra := live.spec.extra } := by simpa [object, certificate] using h
    simp only [object, certificate, ← hspec]
    rfl
  | service => exact service_merged_eq hc h
  | configMap =>
    have hdata : sameEntries live.data desired.data = true := by simpa [object, configMap] using h
    simp only [object, configMap, keep, hdata, if_true]
    rfl
  | route => exact route_merged_eq h
  | secret =>
    have hdata : sameEntries live.data desired.data = true := by simpa [object, secret] using h
    simp only [object, secret, keep, hdata, if_true]
    rfl
  | deployment => exact deployment_merged_eq hc h

/-! ### Objects that the operator desires -/

/-- A deployment that does not differ from that of the operator has pods: only a specification has replicas, and only pods have
tolerations. -/
theorem covers_deployment {live : Deployment} {ingress : ManagementIngress} {params : Desired.DeploymentParams}
    (h : (deployment live (Desired.deployment ingress params)).changed = false) :
    OwnedKind.deployment.Covers live (Desired.deployment ingress params) := by
  obtain ⟨metadata, spec?, status⟩ := live
  simp only [deployment, Desired.deployment, Bool.or_eq_false_iff, Bool.not_eq_false', beq_iff_eq] at h
  obtain ⟨hreplicas, hpods⟩ := h
  cases spec? with
  | none => cases hreplicas
  | some spec =>
    refine fun want _ => ⟨spec, rfl, fun _ => ?_⟩
    have htolerations : sameTolerations ((spec.template.spec.getD {}).tolerations.getD [])
        ((Desired.podSpec ingress.spec params).tolerations.getD []) = true := by
      simp only [podSpec, Bool.not_eq_false', Bool.and_eq_true] at hpods
      exact hpods.1.1.2
    cases hp : spec.template.spec with
    | some own => rfl
    | none =>
      rw [hp] at htolerations
      simp [sameTolerations, Desired.podSpec] at htolerations

/-- A service that does not differ from that of the operator has a specification: only that has ports. -/
theorem covers_service {live : Service} {ns : String} (h : (service live (Desired.service ns)).changed = false) :
    OwnedKind.service.Covers live (Desired.service ns) := by
  obtain ⟨metadata, spec?, status⟩ := live
  simp only [service, Desired.service, Bool.not_eq_false', Bool.and_eq_true, beq_iff_eq] at h
  cases spec? with
  | none => cases h.1
  | some spec => exact fun _ => rfl

/-- An object that does not differ from one that the operator desires has all parts that this has. -/
theorem covers_of_built {k : OwnedKind} {desired : k.kind.Object} (hb : Desired.Built k desired) {live : k.kind.Object}
    (h : (object k live desired).changed = false) : k.Covers live desired := by
  induction hb with
  | service ns => exact covers_service h
  | deployment ingress params => exact covers_deployment h
  | @owned owner k desired hb ih =>
    obtain ⟨refs, ho⟩ := owned_eq owner k.kind desired
    rw [ho, object_withMetadata] at h
    rw [ho]
    have hc := ih h
    cases k <;> exact hc
  | _ => trivial

/-- The deployment of the operator is definite, whatever the custom resource asks for. -/
theorem definite_deployment (ingress : ManagementIngress) (params : Desired.DeploymentParams) :
    OwnedKind.deployment.Definite (Desired.deployment ingress params) := by
  rintro _ _ ⟨⟩ ⟨⟩
  refine ⟨fun c hc => ?_, by simp [Desired.podSpec], fun v hv => ?_⟩
  · cases List.mem_singleton.1 hc
    exact nodup_environment ingress.spec params
  · cases List.mem_singleton.1 hv
    exact .inl rfl

/-! ### Idempotence and exactness -/

/-- Merging is idempotent: what was merged with a definite object is left as it is when it is merged once more, and does not count
as changed. And the verdict is exact: an object does not count as changed exactly if merging leaves it as it is, provided that it
has all parts that the desired one has, or that the desired one is of the operator's making. The operator's own deployment is
definite, whatever the custom resource asks for. -/
theorem merging_settles :
    (∀ (k : OwnedKind) (live desired : k.kind.Object), k.Definite desired →
      let drift := object k live desired
      object k drift.merged desired = ⟨drift.merged, false⟩ ∧
        (k.Covers live desired ∨ Desired.Built k desired → (drift.changed = false ↔ drift.merged = live))) ∧
    ∀ ingress params, OwnedKind.deployment.Definite (Desired.deployment ingress params) := by
  refine ⟨fun k live desired hd => ?_, definite_deployment⟩
  intro drift
  have hsettled : (object k drift.merged desired).changed = false := changed_merged k live (attainable_of_definite hd)
  refine ⟨?_, fun hparts => ⟨fun hsame => ?_, fun hsame => ?_⟩⟩
  · have hmerged := merged_eq k (covers_merged k live desired) hsettled
    calc object k drift.merged desired
        = ⟨(object k drift.merged desired).merged, (object k drift.merged desired).changed⟩ := rfl
      _ = ⟨drift.merged, false⟩ := by rw [hmerged, hsettled]
  · have hcovers : k.Covers live desired := hparts.elim id fun hb => covers_of_built hb hsame
    exact merged_eq k hcovers hsame
  · rw [hsame] at hsettled
    exact hsettled

/-- A desired deployment with two containers of one name, of which only the first is looked at. -/
def wantedDeployment : Deployment :=
  { spec := some {
      replicas := some 2
      template := {
        spec := some {
          containers := [
            { name := "app", image := some "icr.io/app:2", env := some [{ name := "A" }, { name := "B", value := some "1" }] },
            { name := "app", image := some "icr.io/app:3" }]
          volumes := some [{ name := "tls", secret := some { secretName := some "tls" } }] } } } }

/-- A live deployment of an older image, with its variables in another order and a container of another name. -/
def staleDeployment : Deployment :=
  { spec := some {
      replicas := some 2
      template := {
        spec := some {
          containers := [
            { name := "app", image := some "icr.io/app:1",
              env := some [{ name := "B", value := some "1" }, { name := "A", value := some "" }] },
            { name := "sidecar", image := some "icr.io/sidecar:1" }]
          volumes := some [{ name := "tls", secret := some { secretName := some "tls", defaultMode := some 420 } }] } } } }

theorem stale_merging_settles :
    OwnedKind.deployment.Definite wantedDeployment ∧ OwnedKind.deployment.Covers staleDeployment wantedDeployment ∧
      let drift := object .deployment staleDeployment wantedDeployment
      drift.changed = true ∧ drift.merged ≠ staleDeployment ∧
        object .deployment drift.merged wantedDeployment = ⟨drift.merged, false⟩ := by
  have hd : OwnedKind.deployment.Definite wantedDeployment := by
    rintro _ _ ⟨⟩ ⟨⟩
    exact ⟨by decide, by decide, by decide⟩
  have hc : OwnedKind.deployment.Covers staleDeployment wantedDeployment := fun _ _ => ⟨_, rfl, fun _ => rfl⟩
  obtain ⟨hagain, hexact⟩ := merging_settles.1 .deployment staleDeployment wantedDeployment hd
  have hchanged : (object .deployment staleDeployment wantedDeployment).changed = true := by decide
  refine ⟨hd, hc, hchanged, fun hsame => ?_, hagain⟩
  have hunchanged := (hexact (.inl hc)).2 hsame
  rw [hchanged] at hunchanged
  cases hunchanged

end Drift

end IngressOperator
