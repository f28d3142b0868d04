import IngressOperator.Proofs.Drift.Settle

/-!
# Revisions

What is written over a live object is said by a revision of it. Objects are kept by two of them: one brings the object to the
desired one, and one only lets it take over owners.

## Main statements

* `settles_revision`, `settles_adoption`: what was written, or created, is not revised again.
* `adopting_revision`, `adopting_adoption`: of the metadata at most the owners are revised, and only where there are none.
-/

namespace IngressOperator

/-! ### Two revisions -/

/-- What is written over a live object to bring it to the desired one, if anything is. -/
def revision (k : OwnedKind) (desired live : k.kind.Object) : Option k.kind.Object :=
  let drift := Drift.object k live desired
  if drift.changed || adopts k.kind drift.merged desired then some (adopted k.kind drift.merged desired) else none

/-- What is written over a live object that is only to exist: it may take over the owners. -/
def adoption (k : Kind) (desired live : k.Object) : Option k.Object :=
  if adopts k live desired then some (adopted k live desired) else none

/-! ### Owners -/

/-- The server gives no metadata that are compared. -/
theorem Kind.Completes.metadata {k : Kind} {x y : k.Object} (h : k.Completes x y) :
    (k.metadata y).unassigned = (k.metadata x).unassigned := by
  have h : k.unassigned y = k.unassigned x := h
  have hm := congrArg k.metadata h
  cases k <;> exact hm

/-- The server gives no owners. -/
theorem Kind.Completes.ownerReferences {k : Kind} {x y : k.Object} (h : k.Completes x y) :
    (k.metadata y).ownerReferences = (k.metadata x).ownerReferences := by
  have ho := congrArg Meta.ownerReferences h.metadata
  exact ho

/-- The desired object has its own owners. -/
theorem adopts_self (k : Kind) (desired : k.Object) : adopts k desired desired = false := by
  simp [adopts]

/-- Whether an object takes over owners depends on its owners alone. -/
theorem adopts_congr {k : Kind} {x y : k.Object} (h : (k.metadata x).ownerReferences = (k.metadata y).ownerReferences)
    (desired : k.Object) : adopts k x desired = adopts k y desired := by
  simp only [adopts, Kind.owners, h]

/-- An object that took over owners, if it was to, is not to take over any. -/
theorem adopts_adopted (k : Kind) (live desired : k.Object) : adopts k (adopted k live desired) desired = false := by
  unfold adopted
  cases h : adopts k live desired with
  | false => simpa using h
  | true =>
    simp only [adopts, Bool.and_eq_true, Bool.not_eq_true'] at h
    simp only [if_true, adopts, Kind.owners, Kind.withOwners, Kind.metadata_withMetadata, Option.getD_some]
    simp only [Kind.owners] at h
    simp [h.2]

/-- Taking over owners changes nothing but the owners. -/
theorem adopted_eq (k : Kind) (live desired : k.Object) :
    ∃ refs, adopted k live desired = k.withMetadata live { k.metadata live with ownerReferences := refs } := by
  unfold adopted
  split
  · exact ⟨_, rfl⟩
  · exact ⟨(k.metadata live).ownerReferences, (k.withMetadata_metadata live).symm⟩

/-! ### Revisions that settle -/

/-- A revision that keeps what identifies an object, finds nothing more to do in what it wrote, and nothing in what was
created. -/
structure Settles (k : Kind) (desired : k.Object) (revise : k.Object → Option k.Object) : Prop where
  version : ∀ {live x}, revise live = some x → k.version x = k.version live
  ns : ∀ {live x}, revise live = some x → (k.metadata x).ns = (k.metadata live).ns
  name : ∀ {live x}, revise live = some x → (k.metadata x).name = (k.metadata live).name
  written : ∀ {live x}, revise live = some x → ∀ v, revise (k.withVersion x v) = none
  created : ∀ {y}, k.Completes desired y → revise y = none

/-- What a revision found nothing to do in. -/
theorem revision_eq_none {k : OwnedKind} {desired live : k.kind.Object} :
    revision k desired live = none ↔ (Drift.object k live desired).changed = false ∧ adopts k.kind live desired = false := by
  rw [revision, adopts_congr (congrArg Meta.ownerReferences (Drift.metadata_merged k live desired)) desired]
  cases (Drift.object k live desired).changed <;> cases adopts k.kind live desired <;> simp

/-- What a revision writes. -/
theorem revision_eq_some {k : OwnedKind} {desired live x : k.kind.Object} (h : revision k desired live = some x) :
    x = adopted k.kind (Drift.object k live desired).merged desired := by
  unfold revision at h
  dsimp only at h
  split at h
  · exact (Option.some.inj h).symm
  · cases h

/-- What is written over an object that is only to exist: it has no owners, and takes over those of the desired one. -/
theorem adoption_eq_some {k : Kind} {desired live x : k.Object} (h : adoption k desired live = some x) :
    k.owners live = [] ∧ x = k.withOwners live (k.owners desired) := by
  unfold adoption adopted at h
  split at h
  · next hadopts =>
    simp only [adopts, Bool.and_eq_true, List.isEmpty_iff] at hadopts
    exact ⟨hadopts.1, (Option.some.inj h).symm⟩
  · cases h

/-- An object is revised to one that settles, if the desired one does not differ from itself. -/
theorem settles_revision (k : OwnedKind) {desired : k.kind.Object} (h : (Drift.object k desired desired).changed = false) :
    Settles k.kind desired (revision k desired) where
  version {live x} hx := by
    obtain ⟨refs, ha⟩ := adopted_eq k.kind (Drift.object k live desired).merged desired
    rw [revision_eq_some hx, ha, Kind.version, Kind.metadata_withMetadata, Drift.metadata_merged, Kind.version]
  ns {live x} hx := by
    obtain ⟨refs, ha⟩ := adopted_eq k.kind (Drift.object k live desired).merged desired
    rw [revision_eq_some hx, ha, Kind.metadata_withMetadata, Drift.metadata_merged]
  name {live x} hx := by
    obtain ⟨refs, ha⟩ := adopted_eq k.kind (Drift.object k live desired).merged desired
    rw [revision_eq_some hx, ha, Kind.metadata_withMetadata, Drift.metadata_merged]
  written {live x} hx v := by
    rw [revision_eq_none, Kind.withVersion, Drift.changed_withMetadata, revision_eq_some hx]
    constructor
    · obtain ⟨refs, ha⟩ := adopted_eq k.kind (Drift.object k live desired).merged desired
      rw [ha, Drift.changed_withMetadata]
      exact Drift.changed_merged k live (Drift.attainable_of_self h)
    · rw [← adopts_adopted k.kind (Drift.object k live desired).merged desired]
      exact adopts_congr (by rw [Kind.metadata_withMetadata]) desired
  created {y} hy := by
    rw [revision_eq_none, Drift.changed_congr k hy, h, adopts_congr hy.ownerReferences desired]
    exact ⟨rfl, adopts_self k.kind desired⟩

/-- An object that is only to exist takes over owners once. -/
theorem settles_adoption (k : Kind) (desired : k.Object) : Settles k desired (adoption k desired) := by
  have hw {live x : k.Object} (hx : adoption k desired live = some x) : x = k.withOwners live (k.owners desired) :=
    (adoption_eq_some hx).2
  have ha {live x : k.Object} (hx : adoption k desired live = some x) : x = adopted k live desired := by
    unfold adoption at hx
    split at hx
    · exact (Option.some.inj hx).symm
    · cases hx
  refine ⟨fun hx => ?_, fun hx => ?_, fun hx => ?_, fun hx v => ?_, fun hy => ?_⟩
  · rw [hw hx, Kind.version, Kind.withOwners, Kind.metadata_withMetadata, Kind.version]
  · rw [hw hx, Kind.withOwners, Kind.metadata_withMetadata]
  · rw [hw hx, Kind.withOwners, Kind.metadata_withMetadata]
  · rw [adoption, ha hx, Kind.withVersion,
      adopts_congr (y := adopted k _ desired) (by rw [Kind.metadata_withMetadata]) desired, adopts_adopted]
    rfl
  · rw [adoption, adopts_congr hy.ownerReferences desired, adopts_self]
    rfl

/-! ### Revisions that leave owners -/

/-- A revision that changes no more of the metadata of an object than its owners, and these only if it has none. -/
def Adopting (k : Kind) (revise : k.Object → Option k.Object) : Prop :=
  ∀ {live x}, revise live = some x → ∃ refs, k.metadata x = { k.metadata live with ownerReferences := refs } ∧
    (k.owners live ≠ [] → refs = (k.metadata live).ownerReferences)

theorem adopting_adoption (k : Kind) (desired : k.Object) : Adopting k (adoption k desired) := by
  intro live x hx
  obtain ⟨hnone, rfl⟩ := adoption_eq_some hx
  exact ⟨_, Kind.metadata_withMetadata .., fun howned => absurd hnone howned⟩

theorem adopting_revision (k : OwnedKind) (desired : k.kind.Object) : Adopting k.kind (revision k desired) := by
  intro live x hx
  have hmeta := Drift.metadata_merged k live desired
  rw [revision_eq_some hx]
  by_cases hnone : k.kind.owners live = []
  · obtain ⟨refs, ha⟩ := adopted_eq k.kind (Drift.object k live desired).merged desired
    refine ⟨refs, ?_, fun howned => absurd hnone howned⟩
    rw [ha, Kind.metadata_withMetadata, hmeta]
  · have hleft : adopts k.kind (Drift.object k live desired).merged desired = false := by
      simp only [Kind.owners] at hnone
      simp [adopts, Kind.owners, hmeta, hnone]
    refine ⟨(k.kind.metadata live).ownerReferences, ?_, fun _ => rfl⟩
    rw [adopted, hleft, if_neg Bool.false_ne_true, hmeta]

end IngressOperator
