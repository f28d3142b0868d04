import IngressOperator.Desired.Deployment
import IngressOperator.Desired.Route
import IngressOperator.Drift.Object
import IngressOperator.Proofs.Store.Contract

/-!
# Drift settles

What was brought to a desired object differs from it no more, if that can be attained. It cannot where two environments in which
one name stands twice, or two volumes without a source, count as different even if they are the same. The objects that the operator
desires are no such ones.

## Main statements

* `Drift.changed_merged`: what was merged with a desired object differs from it no more.
* `Drift.changed_congr`: whether an object differs from a desired one does not depend on what only the server gives.
-/

namespace IngressOperator

namespace Drift

/-! ### Comparisons -/

theorem sameEntries_self {α : Type} [DecidableEq α] (a : Option (Dict α)) : sameEntries a a = true := by
  simp [sameEntries]

theorem sameTolerations_self (a : List Toleration) : sameTolerations a a = true := by
  simp only [sameTolerations, Bool.and_eq_true, beq_self_eq_true, true_and, List.all_eq_true, List.any_eq_true, beq_iff_eq]
  exact ⟨fun x hx => ⟨x, hx, rfl⟩, fun x hx => ⟨x, hx, rfl⟩⟩

theorem sameResources_self (a : Option Resources) : sameResources a a = true := by
  simp [sameResources, sameEntries_self]

/-- What is kept if it is as desired, and taken over if not, is as desired. -/
theorem same_keep {α : Type} (same : α → α → Bool) {b : α} (h : same b b = true) (a : α) :
    same (keep (same a b) a b) b = true := by
  cases hs : same a b with
  | true => exact hs
  | false => exact h

/-- Likewise where values are compared by a part of theirs. -/
theorem same_keep_by {α β : Type} (f : α → β) (same : β → β → Bool) {b : α} (h : same (f b) (f b) = true) (a : α) :
    same (f (keep (same (f a) (f b)) a b)) (f b) = true :=
  same_keep (fun x y => same (f x) (f y)) h a

/-! ### Pods -/

/-- A container that was brought to a desired one is as desired. -/
theorem container_merged (live : Container) {desired : Container} (h : (container desired desired).changed = false) :
    (container (container live desired).merged desired).changed = false := by
  simp only [container, Bool.not_eq_false', Bool.and_eq_true] at h ⊢
  obtain ⟨⟨⟨-, -⟩, he⟩, -⟩ := h
  refine ⟨⟨⟨?_, ?_⟩, ?_⟩, ?_⟩
  · exact same_keep (fun a b => a == b) (beq_self_eq_true _) live.image
  · exact same_keep sameResources (sameResources_self _) live.resources
  · exact same_keep_by (fun env => env.getD []) sameEnv he live.env
  · exact same_keep_by (fun ms => ms.getD []) (fun a b => a == b) (beq_self_eq_true _) live.volumeMounts

/-- Whether a desired pod can be attained, so that what was brought to it differs from it no more: its volumes do not differ from
themselves, nor do those of its containers that are the first of their name. -/
structure AttainablePod (desired : PodSpec) : Prop where
  containers : ∀ name d, (desired.containers.find? fun c => c.name == name) = some d → (container d d).changed = false
  volumes : sameVolumes (desired.volumes.getD []) (desired.volumes.getD []) = true

/-- A pod that does not differ from itself can be attained. -/
theorem attainablePod_of_self {desired : PodSpec} (h : (podSpec desired desired).changed = false) : AttainablePod desired := by
  simp only [podSpec, Bool.not_eq_false', Bool.and_eq_true, Bool.not_eq_true'] at h
  obtain ⟨⟨⟨-, -⟩, hc⟩, hv⟩ := h
  refine ⟨fun name d hd => ?_, hv⟩
  have hn : d.name = name := by simpa using List.find?_some hd
  have hone : (containerAmong desired.containers d).changed = false := by
    simp only [containers, List.any_eq_false, Bool.not_eq_true] at hc
    exact hc d (List.mem_of_find?_eq_some hd)
  rw [containerAmong, hn, hd] at hone
  exact hone

/-- Containers that were brought to those desired are as desired. -/
theorem containers_merged (live : List Container) {desired : PodSpec} (h : AttainablePod desired) :
    (containers (containers live desired.containers).merged desired.containers).changed = false := by
  simp only [containers, List.any_eq_false, List.mem_map, Bool.not_eq_true]
  rintro _ ⟨c, -, rfl⟩
  unfold containerAmong
  cases hd : desired.containers.find? fun d => d.name == c.name with
  | none => simp [hd]
  | some d => simpa [hd, container] using container_merged c (h.containers c.name d hd)

/-- A pod that was brought to a desired one is as desired. -/
theorem podSpec_merged (live : PodSpec) {desired : PodSpec} (h : AttainablePod desired) :
    (podSpec (podSpec live desired).merged desired).changed = false := by
  simp only [podSpec, Bool.not_eq_false', Bool.and_eq_true, Bool.not_eq_true']
  refine ⟨⟨⟨?_, ?_⟩, ?_⟩, ?_⟩
  · exact same_keep sameEntries (sameEntries_self _) live.nodeSelector
  · exact same_keep_by (fun ts => ts.getD []) sameTolerations (sameTolerations_self _) live.tolerations
  · exact containers_merged live.containers h
  · exact same_keep_by (fun vs => vs.getD []) sameVolumes h.volumes live.volumes

/-! ### Objects -/

/-- Whether a desired object can be attained; only a deployment may have pods that cannot. -/
def Attainable : (k : OwnedKind) → k.kind.Object → Prop
  | .deployment, d => ∀ want pod, Deployment.spec d = some want → want.template.spec = some pod → AttainablePod pod
  | _, _ => True

/-- An object that does not differ from itself can be attained. -/
theorem attainable_of_self {k : OwnedKind} {desired : k.kind.Object} (h : (object k desired desired).changed = false) :
    Attainable k desired := by
  cases k with
  | deployment =>
    intro want pod hs hp
    simp only [object, deployment, hs, hp, Option.getD_some, Bool.or_eq_false_iff] at h
    exact attainablePod_of_self h.2
  | _ => trivial

/-- A deployment that was brought to a desired one is as desired. -/
theorem deployment_merged (live : Deployment) {desired : Deployment} (h : Attainable .deployment desired) :
    (deployment (deployment live desired).merged desired).changed = false := by
  unfold deployment
  cases hs : desired.spec with
  | none => rfl
  | some want =>
    cases hp : want.template.spec with
    | none => simp [hp]
    | some pod =>
      simp only [hp, Option.getD_some, Bool.or_eq_false_iff]
      exact ⟨by simp, podSpec_merged _ (h want pod hs hp)⟩

/-- A service that was brought to a desired one is as desired. -/
theorem service_merged (live desired : Service) : (service (service live desired).merged desired).changed = false := by
  unfold service
  cases hs : desired.spec with
  | none => rfl
  | some want =>
    simp only [Option.getD_some, beq_self_eq_true, Bool.true_and, Bool.not_eq_false']
    exact same_keep sameEntries (sameEntries_self _) _

/-- A config map that was brought to a desired one is as desired. -/
theorem configMap_merged (live desired : ConfigMap) : (configMap (configMap live desired).merged desired).changed = false := by
  simp only [configMap, Bool.not_eq_false']
  exact same_keep sameEntries (sameEntries_self _) _

/-- A secret that was brought to a desired one is as desired. -/
theorem secret_merged (live desired : Secret) : (secret (secret live desired).merged desired).changed = false := by
  simp only [secret, Bool.not_eq_false']
  exact same_keep sameEntries (sameEntries_self _) _

/-- A route that was brought to a desired one is as desired. -/
theorem route_merged (live desired : Route) : (route (route live desired).merged desired).changed = false := by
  simp only [route, beq_self_eq_true, Bool.true_and, Bool.and_true, Bool.not_eq_false']
  exact same_keep (fun a b : RouteTarget => a.kind == b.kind && a.name == b.name) (by simp) _

/-- A certificate that was brought to a desired one is as desired. -/
theorem certificate_merged (live desired : Certificate) :
    (certificate (certificate live desired).merged desired).changed = false := by
  simp [certificate]

/-- What was merged with a desired object that can be attained differs from it no more. -/
theorem changed_merged (k : OwnedKind) (live : k.kind.Object) {desired : k.kind.Object} (h : Attainable k desired) :
    (object k (object k live desired).merged desired).changed = false := by
  cases k with
  | certificate => exact certificate_merged live desired
  | service => exact service_merged live desired
  | configMap => exact configMap_merged live desired
  | route => exact route_merged live desired
  | secret => exact secret_merged live desired
  | deployment => exact deployment_merged live h

/-! ### What does not matter -/

/-- Metadata are neither compared nor merged. -/
theorem object_live_withMetadata (k : OwnedKind) (live desired : k.kind.Object) (m : Meta) :
    object k (k.kind.withMetadata live m) desired =
      { object k live desired with merged := k.kind.withMetadata (object k live desired).merged m } := by
  cases k with
  | service =>
    simp only [object, service]
    split <;> rfl
  | deployment =>
    simp only [object, deployment]
    split
    · rfl
    · split <;> rfl
  | _ => rfl

/-- Merging keeps the metadata of an object. -/
theorem metadata_merged (k : OwnedKind) (live desired : k.kind.Object) :
    k.kind.metadata (object k live desired).merged = k.kind.metadata live := by
  have h := object_live_withMetadata k live desired (k.kind.metadata live)
  rw [Kind.withMetadata_metadata] at h
  rw [h, Kind.metadata_withMetadata]

/-- Metadata are not compared. -/
theorem changed_withMetadata (k : OwnedKind) (live desired : k.kind.Object) (m : Meta) :
    (object k (k.kind.withMetadata live m) desired).changed = (object k live desired).changed := by
  rw [object_live_withMetadata]

/-- Whether an object differs from a desired one does not depend on what only the server gives. -/
theorem changed_congr (k : OwnedKind) {x y : k.kind.Object} (h : k.kind.Completes x y) (desired : k.kind.Object) :
    (object k y desired).changed = (object k x desired).changed := by
  have h : k.kind.unassigned y = k.kind.unassigned x := h
  cases k with
  | service =>
    have hs := Option.some.inj (congrArg Service.spec h)
    have hp := congrArg ServiceSpec.ports hs
    have hsel := congrArg ServiceSpec.selector hs
    simp only at hp hsel
    simp only [object, service]
    split
    · rfl
    · simp only [hp, hsel]
  | deployment =>
    have hs := congrArg Deployment.spec h
    replace hs : y.spec = x.spec := hs
    simp only [object, deployment, hs]
    split
    · rfl
    · split <;> rfl
  | certificate =>
    have hs := congrArg Certificate.spec h
    replace hs : y.spec = x.spec := hs
    simp only [object, certificate, hs]
  | configMap =>
    have hs := congrArg ConfigMap.data h
    replace hs : y.data = x.data := hs
    simp only [object, configMap, hs]
  | route =>
    have hs := congrArg Route.spec h
    replace hs : y.spec = x.spec := hs
    simp only [object, route, hs]
  | secret =>
    have hs := congrArg Secret.data h
    replace hs : y.data = x.data := hs
    simp only [object, secret, hs]

end Drift

end IngressOperator
