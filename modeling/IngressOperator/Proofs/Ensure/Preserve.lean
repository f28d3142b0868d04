import IngressOperator.Proofs.Drift.Desired
import IngressOperator.Proofs.Ensure.Revision
import IngressOperator.Steps

/-!
# What keeping an object preserves

An object that is brought to a desired one keeps all that the operator does not track, and the owners that it has. Noting the
time of a change on the pods of a deployment keeps even more.

## Main statements

* `preserves_revision`, `preserves_adoption`: what is written over a live object preserves it.
* `preserves_stamped`: so does noting the time of a change.
-/

namespace IngressOperator

/-! ### What is not tracked -/

/-- A container of the operand's name without the fields that are tracked, and any other container as it is. -/
def Container.untracked (c : Container) : Container :=
  if c.name = Names.app then { c with image := none, resources := none, env := none, volumeMounts := none } else c

/-- A pod without the fields that are tracked. -/
def PodSpec.untracked (p : PodSpec) : PodSpec :=
  { p with nodeSelector := none, tolerations := none, volumes := none, containers := p.containers.map Container.untracked }

/-- Metadata without the note of the time of a change. -/
def Meta.unstamped (m : Meta) : Meta := { m with annotations := some ((m.annotations.getD ∅).erase Names.configUpdated) }

/-- A deployment without the fields that are tracked and the note of the time of a change; a part that it lacks counts as an
empty one. -/
def Deployment.untracked (d : Deployment) : Deployment :=
  let spec := d.spec.getD {}
  { d with
    spec := some
      { spec with
        replicas := none
        template := {
          metadata := some (spec.template.metadata.getD {}).unstamped
          spec := some (spec.template.spec.getD {}).untracked } } }

/-- A route without the fields that are tracked; of its target, the weight is left if it leads to the operand already. -/
def Route.untracked (x : Route) : Route :=
  let target := x.spec.target
  let weight := if target.kind = "Service" ∧ target.name = Names.service then target.weight else none
  { x with spec := { x.spec with host := "", target := { weight := weight }, port := none, tls := none } }

namespace OwnedKind

/-- An object without the fields that are tracked; a part that it lacks counts as an empty one. -/
def content : (k : OwnedKind) → k.kind.Object → k.kind.Object
  | .certificate, x => ({ x with spec := { extra := x.spec.extra } } : Certificate)
  | .service, x => ({ x with spec := some { x.spec.getD {} with ports := none, selector := none } } : Service)
  | .configMap, x => ({ x with data := none } : ConfigMap)
  | .route, x => Route.untracked x
  | .secret, x => ({ x with data := none } : Secret)
  | .deployment, x => Deployment.untracked x

/-- What is left of an object without what a pass may write: the fields that are tracked, the owners and the version. -/
def untracked (k : OwnedKind) (x : k.kind.Object) : k.kind.Object :=
  k.kind.withMetadata (k.content x) { k.kind.metadata x with ownerReferences := none, resourceVersion := none }

/-- Whether a desired object is one to which live objects are brought: its deployment knows the container of the operand alone,
and its route leads to the operand. -/
def Fits : (k : OwnedKind) → k.kind.Object → Prop
  | .deployment, d =>
    ∀ spec pod, Deployment.spec d = some spec → spec.template.spec = some pod → ∀ c ∈ pod.containers, c.name = Names.app
  | .route, x => x.spec.target = { kind := "Service", name := Names.service }
  | _, _ => True

/-- Whether an object that is created may stay: its deployment does not select its pods by an empty label. -/
def Durable : (k : OwnedKind) → k.kind.Object → Prop
  | .deployment, d => Desired.isLegacy d = false
  | _, _ => True

end OwnedKind

/-- Whether `y` keeps of `x` what is not tracked, and the owners, unless `x` has none and `y` has been given others. -/
structure Preserves (refs : List OwnerReference) (k : OwnedKind) (x y : k.kind.Object) : Prop where
  untracked : k.untracked y = k.untracked x
  owners : (k.kind.metadata y).ownerReferences = (k.kind.metadata x).ownerReferences ∨
    k.kind.owners x = [] ∧ k.kind.owners y = refs

namespace Preserves

variable {refs : List OwnerReference} {k : OwnedKind} {x y z : k.kind.Object}

theorem refl (x : k.kind.Object) : Preserves refs k x x := ⟨rfl, .inl rfl⟩

/-- What is kept twice is kept. -/
theorem trans (h : Preserves refs k x y) (h' : Preserves refs k y z) : Preserves refs k x z := by
  refine ⟨h'.untracked.trans h.untracked, ?_⟩
  rcases h.owners with hxy | ⟨hx, hy⟩
  · rcases h'.owners with hyz | ⟨hy, hz⟩
    · exact .inl (hyz.trans hxy)
    · refine .inr ⟨?_, hz⟩
      rw [Kind.owners, ← hxy]
      exact hy
  · rcases h'.owners with hyz | ⟨-, hz⟩
    · refine .inr ⟨hx, ?_⟩
      rw [Kind.owners, hyz]
      exact hy
    · exact .inr ⟨hx, hz⟩

end Preserves

/-! ### Merging -/

/-- A container keeps what is not tracked of it. -/
theorem untracked_containerAmong {desired : List Container} (h : ∀ d ∈ desired, d.name = Names.app) (c : Container) :
    (Drift.containerAmong desired c).merged.untracked = c.untracked := by
  unfold Drift.containerAmong
  cases hd : desired.find? fun d => d.name == c.name with
  | none => rfl
  | some d =>
    have hn : d.name = c.name := by simpa using List.find?_some hd
    have hc : c.name = Names.app := hn.symm.trans (h d (List.mem_of_find?_eq_some hd))
    simp only [Drift.container, Container.untracked, hc, if_true]

/-- A pod keeps what is not tracked of it. -/
theorem untracked_podSpec {desired : PodSpec} (h : ∀ d ∈ desired.containers, d.name = Names.app) (live : PodSpec) :
    (Drift.podSpec live desired).merged.untracked = live.untracked := by
  have hc : (Drift.containers live.containers desired.containers).merged.map Container.untracked =
      live.containers.map Container.untracked := by
    simp only [Drift.containers, List.map_map]
    exact List.map_congr_left fun c _ => untracked_containerAmong h c
  simp only [Drift.podSpec, PodSpec.untracked, hc]

/-- A route keeps what is not tracked of it. -/
theorem untracked_route (live : Route) {desired : Route}
    (h : desired.spec.target = { kind := "Service", name := Names.service }) :
    (Drift.route live desired).merged.untracked = live.untracked := by
  by_cases ht : live.spec.target.kind = "Service" ∧ live.spec.target.name = Names.service
  · simp [Drift.route, Route.untracked, Drift.keep, h, ht]
  · have hk : (live.spec.target.kind == "Service" && live.spec.target.name == Names.service) = false := by
      rw [Bool.eq_false_iff]
      simpa using ht
    simp [Drift.route, Route.untracked, Drift.keep, h, ht, hk]

/-- A live object keeps what is not tracked of it. -/
theorem content_merged (k : OwnedKind) (live : k.kind.Object) {desired : k.kind.Object} (h : k.Fits desired) :
    k.content (Drift.object k live desired).merged = k.content live := by
  cases k with
  | service =>
    simp only [Drift.object, Drift.service]
    split <;> rfl
  | deployment =>
    simp only [Drift.object, Drift.deployment]
    split
    · rfl
    · next want hw =>
      split
      · rfl
      · next pod hp =>
        have hpod := untracked_podSpec (h want pod hw hp) ((live.spec.getD {}).template.spec.getD {})
        simp only [OwnedKind.content, Deployment.untracked, Option.getD_some, hpod]
        rfl
  | route => exact untracked_route live h
  | _ => rfl

/-- Metadata are no content. -/
theorem content_withMetadata (k : OwnedKind) (x : k.kind.Object) (m m' : Meta) :
    k.kind.withMetadata (k.content (k.kind.withMetadata x m)) m' = k.kind.withMetadata (k.content x) m' := by
  cases k <;> rfl

/-- What differs from an object in its owners and its version alone has the same content. -/
theorem untracked_congr {k : OwnedKind} {x y : k.kind.Object} (refs : Option (List OwnerReference)) (v : Option String)
    (h : y = k.kind.withMetadata x { k.kind.metadata x with ownerReferences := refs, resourceVersion := v }) :
    k.untracked y = k.untracked x := by
  rw [h, OwnedKind.untracked, OwnedKind.untracked, content_withMetadata, Kind.metadata_withMetadata]

/-- Another version of an object preserves it. -/
theorem preserves_withVersion (refs : List OwnerReference) (k : OwnedKind) (x : k.kind.Object) (v : String) :
    Preserves refs k x (k.kind.withVersion x v) := by
  refine ⟨untracked_congr (k.kind.metadata x).ownerReferences (some v) rfl, .inl ?_⟩
  rw [Kind.withVersion, Kind.metadata_withMetadata]

/-- An object that takes over owners is preserved but for these. -/
theorem preserves_adopted (k : OwnedKind) (live desired : k.kind.Object) :
    Preserves (k.kind.owners desired) k live (adopted k.kind live desired) := by
  constructor
  · obtain ⟨refs, ha⟩ := adopted_eq k.kind live desired
    exact untracked_congr refs (k.kind.metadata live).resourceVersion ha
  · unfold adopted
    split
    · next ha =>
      have hempty := List.isEmpty_iff.1 (Bool.and_eq_true_iff.1 ha).1
      refine .inr ⟨hempty, ?_⟩
      rw [Kind.withOwners, Kind.owners, Kind.metadata_withMetadata]
      rfl
    · exact .inl rfl

/-- A live object that was merged with a desired one is preserved. -/
theorem preserves_merged (refs : List OwnerReference) (k : OwnedKind) (live : k.kind.Object) {desired : k.kind.Object}
    (h : k.Fits desired) : Preserves refs k live (Drift.object k live desired).merged := by
  constructor
  · rw [OwnedKind.untracked, content_merged k live h, Drift.metadata_merged]
    rfl
  · rw [Drift.metadata_merged]
    exact .inl rfl

/-- What is written over a live object to bring it to the desired one preserves it. -/
theorem preserves_revision {k : OwnedKind} {desired live x : k.kind.Object} (h : k.Fits desired)
    (hx : revision k desired live = some x) : Preserves (k.kind.owners desired) k live x := by
  rw [revision_eq_some hx]
  exact (preserves_merged _ k live h).trans (preserves_adopted k _ desired)

/-- What is written over a live object that is only to exist preserves it. -/
theorem preserves_adoption {k : OwnedKind} {desired live x : k.kind.Object} (hx : adoption k.kind desired live = some x) :
    Preserves (k.kind.owners desired) k live x := by
  unfold adoption at hx
  split at hx
  · rw [← Option.some.inj hx]
    exact preserves_adopted k live desired
  · cases hx

/-! ### Noting the time of a change -/

/-- Noting the time of a change preserves a deployment. -/
theorem preserves_stamped (refs : List OwnerReference) (d : Deployment) (now : Instant) :
    Preserves refs .deployment d (Steps.stamped d now) := by
  refine ⟨?_, .inl rfl⟩
  have he (m : Dict String) (a : String) : (m.insert Names.configUpdated a).erase Names.configUpdated = m.erase Names.configUpdated := by
    refine SortedMap.ext_get? fun key => ?_
    rw [SortedMap.get?_erase, SortedMap.get?_erase, SortedMap.get?_insert]
    split <;> rfl
  simp only [OwnedKind.untracked, OwnedKind.content, Deployment.untracked, Steps.stamped, Meta.unstamped, Option.getD_some, he]
  rfl

/-! ### Owners -/

/-- The custom resource as the owner of an object, if it can be one. -/
def ManagementIngress.owning (i : ManagementIngress) : List OwnerReference := i.ownerReference?.toList

namespace OwnedKind

theorem kind_injective {j k : OwnedKind} (h : j.kind = k.kind) : j = k := by
  cases j <;> cases k <;> revert h <;> decide

/-- An owner does not change whether live objects are brought to a desired one, nor whether that may stay. -/
theorem fits_owned (owner : ManagementIngress) {k : OwnedKind} {desired : k.kind.Object} (h : k.Fits desired) :
    k.Fits (owned owner k.kind desired) := by
  obtain ⟨refs, ho⟩ := owned_eq owner k.kind desired
  rw [ho]
  cases k <;> exact h

theorem durable_owned (owner : ManagementIngress) {k : OwnedKind} {desired : k.kind.Object} (h : k.Durable desired) :
    k.Durable (owned owner k.kind desired) := by
  obtain ⟨refs, ho⟩ := owned_eq owner k.kind desired
  rw [ho]
  cases k <;> exact h

/-- The custom resource is the owner of an object that has no owners of its own. -/
theorem owners_owned (owner : ManagementIngress) {k : OwnedKind} {desired : k.kind.Object}
    (h : (k.kind.metadata desired).ownerReferences = none) : k.kind.owners (owned owner k.kind desired) = owner.owning := by
  unfold owned ManagementIngress.owning
  cases owner.ownerReference? with
  | none =>
    dsimp only
    rw [Kind.owners, h]
    rfl
  | some ref =>
    dsimp only
    rw [Kind.owners, Kind.withOwners, Kind.metadata_withMetadata]
    rfl

end OwnedKind

end IngressOperator
