import Mathlib.Data.List.Forall2
import IngressOperator.Drift.Object

/-!
# What a merge takes over

Merging takes over of a desired object the fields that are tracked, and leaves all else of the live one as it is, whatever the two
are. A field that counts as desired already stays as it is written; containers keep their number, their order and their names.

## Main statements

* `Drift.tracked_taken_over`: what merging takes over, and that it takes over nothing else.
-/

namespace IngressOperator

/-- Whether a value is the live one, which counts as the desired one, or is the desired one. -/
def Taken {α : Type} (same : α → α → Bool) (live desired merged : α) : Prop :=
  merged = live ∧ same live desired = true ∨ merged = desired

/-! ### Pods -/

/-- Whether a container is the live one, but for the image, the resources, the environment and the mounts of a desired one. -/
structure Container.TakesOver (live desired merged : Container) : Prop where
  image : merged.image = desired.image
  volumeMounts : merged.volumeMounts.getD [] = desired.volumeMounts.getD []
  limits : (merged.resources.bind (·.limits)).getD ∅ = (desired.resources.bind (·.limits)).getD ∅
  requests : (merged.resources.bind (·.requests)).getD ∅ = (desired.resources.bind (·.requests)).getD ∅
  resources : Taken Drift.sameResources live.resources desired.resources merged.resources
  env : Taken (fun a b => Drift.sameEnv (a.getD []) (b.getD [])) live.env desired.env merged.env
  rest :
    { merged with
      image := live.image, resources := live.resources, env := live.env, volumeMounts := live.volumeMounts } = live

/-- Whether a container is the live one, but for what is tracked of the first desired one of its name. -/
structure Container.TakesOverAmong (desired : List Container) (live merged : Container) : Prop where
  name : merged.name = live.name
  stranger : (∀ d ∈ desired, d.name ≠ live.name) → merged = live
  known : ∀ d, (desired.find? fun d => d.name == live.name) = some d → live.TakesOver d merged

/-- Whether a pod is the live one, but for what is tracked of a desired one. -/
structure PodSpec.TakesOver (live desired merged : PodSpec) : Prop where
  containers : List.Forall₂ (Container.TakesOverAmong desired.containers) live.containers merged.containers
  names : merged.containers.map (·.name) = live.containers.map (·.name)
  nodeSelector : Taken Drift.sameEntries live.nodeSelector desired.nodeSelector merged.nodeSelector
  tolerations :
    Taken (fun a b => Drift.sameTolerations (a.getD []) (b.getD [])) live.tolerations desired.tolerations merged.tolerations
  volumes : Taken (fun a b => Drift.sameVolumes (a.getD []) (b.getD [])) live.volumes desired.volumes merged.volumes
  rest :
    { merged with
      containers := live.containers, nodeSelector := live.nodeSelector, tolerations := live.tolerations,
      volumes := live.volumes } = live

/-! ### Objects -/

/-- Whether a specification is the live one, but for the replicas and the pods of a desired one; pods that it lacks count as empty
ones. -/
structure DeploymentSpec.TakesOver (live desired merged : DeploymentSpec) : Prop where
  replicas : Taken (· == ·) live.replicas desired.replicas merged.replicas
  noPods : desired.template.spec = none → merged.template.spec = live.template.spec
  pods : ∀ pod, desired.template.spec = some pod →
    ∃ own, merged.template.spec = some own ∧ (live.template.spec.getD {}).TakesOver pod own
  rest :
    { merged with
      replicas := live.replicas, template := { merged.template with spec := live.template.spec } } = live

/-- Whether a specification is the live one, but for the ports and the selector of a desired one. -/
structure ServiceSpec.TakesOver (live desired merged : ServiceSpec) : Prop where
  ports : merged.ports = desired.ports
  selector : Taken Drift.sameEntries live.selector desired.selector merged.selector
  rest : { merged with ports := live.ports, selector := live.selector } = live

/-- Whether a specification is the live one, but for the host, the target, the port and the encryption of a desired one; a target of
the same kind and name stays, with its weight. -/
structure RouteSpec.TakesOver (live desired merged : RouteSpec) : Prop where
  host : merged.host = desired.host
  target : Taken (fun a b => a.kind == b.kind && a.name == b.name) live.target desired.target merged.target
  port : merged.port = desired.port
  tls : merged.tls = desired.tls
  rest : { merged with host := live.host, target := live.target, port := live.port, tls := live.tls } = live

/-- Whether an object is the live one, but for what is tracked of a desired one. A specification that the live object lacks counts
as an empty one; one that the desired object lacks has nothing to be taken over. -/
def OwnedKind.TakesOver : (k : OwnedKind) → (live desired merged : k.kind.Object) → Prop
  | .certificate, live, desired, merged =>
    Certificate.spec merged = { Certificate.spec desired with extra := (Certificate.spec live).extra } ∧
      ({ merged with spec := Certificate.spec live } : Certificate) = live
  | .service, live, desired, merged =>
    (Service.spec desired = none → merged = live) ∧
      (∀ want, Service.spec desired = some want →
        ∃ spec, Service.spec merged = some spec ∧ ((Service.spec live).getD {}).TakesOver want spec) ∧
      ({ merged with spec := Service.spec live } : Service) = live
  | .configMap, live, desired, merged =>
    Taken Drift.sameEntries (ConfigMap.data live) (ConfigMap.data desired) (ConfigMap.data merged) ∧
      ({ merged with data := ConfigMap.data live } : ConfigMap) = live
  | .route, live, desired, merged =>
    (Route.spec live).TakesOver (Route.spec desired) (Route.spec merged) ∧ ({ merged with spec := Route.spec live } : Route) = live
  | .secret, live, desired, merged =>
    Taken Drift.sameEntries (Secret.data live) (Secret.data desired) (Secret.data merged) ∧
      ({ merged with data := Secret.data live } : Secret) = live
  | .deployment, live, desired, merged =>
    (Deployment.spec desired = none → merged = live) ∧
      (∀ want, Deployment.spec desired = some want →
        ∃ spec, Deployment.spec merged = some spec ∧ ((Deployment.spec live).getD {}).TakesOver want spec) ∧
      ({ merged with spec := Deployment.spec live } : Deployment) = live

namespace Drift

/-! ### Merging -/

/-- What is kept if it counts as desired, and replaced if not, is taken over. -/
theorem taken_keep {α : Type} (same : α → α → Bool) (live desired : α) :
    Taken same live desired (keep (same live desired) live desired) := by
  unfold keep
  split
  · next h => exact .inl ⟨rfl, h⟩
  · exact .inr rfl

/-- A part by which values are compared is the desired one, whether the value was kept or replaced. -/
theorem eq_of_taken {α β : Type} {same : α → α → Bool} {live desired merged : α} (f : α → β)
    (hf : same live desired = true → f live = f desired) (h : Taken same live desired merged) : f merged = f desired := by
  rcases h with ⟨rfl, hsame⟩ | rfl
  · exact hf hsame
  · rfl

theorem container_takesOver (live desired : Container) : live.TakesOver desired (container live desired).merged := by
  have hresources := taken_keep sameResources live.resources desired.resources
  have hparts : sameResources live.resources desired.resources = true →
      (live.resources.bind (·.limits)).getD ∅ = (desired.resources.bind (·.limits)).getD ∅ ∧
        (live.resources.bind (·.requests)).getD ∅ = (desired.resources.bind (·.requests)).getD ∅ := by
    simp [sameResources, sameEntries]
  exact {
    image := eq_of_taken id (by simp) (taken_keep (· == ·) live.image desired.image)
    volumeMounts := eq_of_taken (fun ms => ms.getD []) (by simp)
      (taken_keep (fun a b => a.getD [] == b.getD []) live.volumeMounts desired.volumeMounts)
    limits := eq_of_taken (fun r => (r.bind (·.limits)).getD ∅) (fun h => (hparts h).1) hresources
    requests := eq_of_taken (fun r => (r.bind (·.requests)).getD ∅) (fun h => (hparts h).2) hresources
    resources := hresources
    env := taken_keep (fun a b => sameEnv (a.getD []) (b.getD [])) live.env desired.env
    rest := rfl }

/-- A container takes over what is tracked of the first desired one of its name, if there is one. -/
theorem containerAmong_takesOver (desired : List Container) (live : Container) :
    live.TakesOverAmong desired (containerAmong desired live).merged := by
  unfold containerAmong
  cases hd : desired.find? fun d => d.name == live.name with
  | none => exact ⟨rfl, fun _ => rfl, fun d hd' => by rw [hd] at hd'; cases hd'⟩
  | some d =>
    have hname : d.name = live.name := by simpa using List.find?_some hd
    refine ⟨rfl, fun hstranger => ?_, fun d' hd' => ?_⟩
    · exact absurd hname (hstranger d (List.mem_of_find?_eq_some hd))
    · rw [hd] at hd'
      cases hd'
      exact container_takesOver live d

/-- Containers take it over one by one. -/
theorem containers_takeOver (live desired : List Container) :
    List.Forall₂ (Container.TakesOverAmong desired) live (containers live desired).merged := by
  induction live with
  | nil => exact .nil
  | cons c live ih => exact .cons (containerAmong_takesOver desired c) ih

/-- A pod takes over what is tracked of a desired one. -/
theorem podSpec_takesOver (live desired : PodSpec) : live.TakesOver desired (podSpec live desired).merged where
  containers := containers_takeOver live.containers desired.containers
  names := by
    simp only [podSpec, containers, List.map_map]
    exact List.map_congr_left fun c _ => (containerAmong_takesOver desired.containers c).name
  nodeSelector := taken_keep sameEntries live.nodeSelector desired.nodeSelector
  tolerations := taken_keep (fun a b => sameTolerations (a.getD []) (b.getD [])) live.tolerations desired.tolerations
  volumes := taken_keep (fun a b => sameVolumes (a.getD []) (b.getD [])) live.volumes desired.volumes
  rest := rfl

/-- A specification with the replicas of a desired one that has no pods takes over these. -/
theorem takesOver_replicas (live : DeploymentSpec) {desired : DeploymentSpec} (hp : desired.template.spec = none) :
    live.TakesOver desired { live with replicas := desired.replicas } where
  replicas := .inr rfl
  noPods _ := rfl
  pods pod h := by
    rw [hp] at h
    cases h
  rest := rfl

/-- A specification with the replicas of a desired one takes over these and what its pods take over. -/
theorem takesOver_pods (live : DeploymentSpec) {desired : DeploymentSpec} {pod : PodSpec}
    (hp : desired.template.spec = some pod) :
    live.TakesOver desired
      { live with
        replicas := desired.replicas
        template := { live.template with spec := some (podSpec (live.template.spec.getD {}) pod).merged } } where
  replicas := .inr rfl
  noPods h := by
    rw [hp] at h
    cases h
  pods := by
    rw [hp]
    rintro _ ⟨⟩
    exact ⟨_, rfl, podSpec_takesOver _ pod⟩
  rest := rfl

theorem deployment_takesOver (live desired : Deployment) :
    OwnedKind.deployment.TakesOver live desired (deployment live desired).merged := by
  unfold deployment
  cases hw : desired.spec with
  | none =>
    refine ⟨fun _ => rfl, fun want h => ?_, rfl⟩
    rw [hw] at h
    cases h
  | some want =>
    have hsome : desired.spec ≠ none := by rw [hw]; exact nofun
    cases hp : want.template.spec with
    | none =>
      simp only [hp]
      refine ⟨fun h => absurd h hsome, fun want' h => ⟨_, rfl, ?_⟩, rfl⟩
      cases hw.symm.trans h
      exact takesOver_replicas (live.spec.getD {}) hp
    | some pod =>
      simp only [hp]
      refine ⟨fun h => absurd h hsome, fun want' h => ⟨_, rfl, ?_⟩, rfl⟩
      cases hw.symm.trans h
      exact takesOver_pods (live.spec.getD {}) hp

/-- A specification with the ports of a desired one, and a selector that counts as that of it, takes over both. -/
theorem serviceSpec_takesOver (live desired : ServiceSpec) :
    live.TakesOver desired
      { live with
        ports := desired.ports
        selector := keep (sameEntries live.selector desired.selector) live.selector desired.selector } where
  ports := rfl
  selector := taken_keep sameEntries live.selector desired.selector
  rest := rfl

theorem service_takesOver (live desired : Service) :
    OwnedKind.service.TakesOver live desired (service live desired).merged := by
  unfold service
  cases hw : desired.spec with
  | none =>
    refine ⟨fun _ => rfl, fun want h => ?_, rfl⟩
    rw [hw] at h
    cases h
  | some want =>
    have hsome : desired.spec ≠ none := by rw [hw]; exact nofun
    refine ⟨fun h => absurd h hsome, fun want' h => ⟨_, rfl, ?_⟩, rfl⟩
    cases hw.symm.trans h
    exact serviceSpec_takesOver (live.spec.getD {}) want

theorem route_takesOver (live desired : Route) : OwnedKind.route.TakesOver live desired (route live desired).merged :=
  ⟨⟨rfl, taken_keep (fun a b => a.kind == b.kind && a.name == b.name) live.spec.target desired.spec.target, rfl, rfl, rfl⟩, rfl⟩

/-- Merging takes over of a desired object what is tracked, and nothing else, whatever the live and the desired object are. The same
holds of pods on their own. -/
theorem tracked_taken_over :
    (∀ (k : OwnedKind) (live desired : k.kind.Object), k.TakesOver live desired (object k live desired).merged) ∧
      ∀ live desired : PodSpec, live.TakesOver desired (podSpec live desired).merged := by
  refine ⟨fun k live desired => ?_, podSpec_takesOver⟩
  cases k with
  | certificate => exact ⟨rfl, rfl⟩
  | service => exact service_takesOver live desired
  | configMap => exact ⟨taken_keep sameEntries (ConfigMap.data live) (ConfigMap.data desired), rfl⟩
  | route => exact route_takesOver live desired
  | secret => exact ⟨taken_keep sameEntries (Secret.data live) (Secret.data desired), rfl⟩
  | deployment => exact deployment_takesOver live desired

end Drift

end IngressOperator
