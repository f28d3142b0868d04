import Mathlib.Data.List.Perm.Basic
import Mathlib.Data.String.Basic
import IngressOperator.Status.Mark

/-!
# The pods that are reported

The pods of the operand are reported by their names in three lists. Each pod is in one of them, by how it fares, so the lists have
as many names as there are pods, and a name stands in them as often as there are pods of that name. The lists are in order; hence
they are known by the pods, however these are listed.

## Main statements

* `PodState.Groups.unique`: there is one way only to report pods.
* `IngressStatus.pods_grouped`: what is reported of pods, and that nothing else is changed.
-/

namespace IngressOperator

/-! ### How a pod fares -/

namespace Pod

variable {p : Pod}

/-- Whether a pod is known to run, with one container at least and all of them ready. -/
structure IsReady (p : Pod) : Prop where
  runs : p.status.bind (·.phase) = some "Running"
  containers : ∃ cs, p.status.bind (·.containerStatuses) = some cs ∧ cs ≠ [] ∧ ∀ c ∈ cs, c.ready = true

/-- Whether a pod is known to have failed. -/
def HasFailed (p : Pod) : Prop := p.status.bind (·.phase) = some "Failed"

theorem containersReady_iff :
    p.containersReady = true ↔ ∃ cs, p.status.bind (·.containerStatuses) = some cs ∧ cs ≠ [] ∧ ∀ c ∈ cs, c.ready = true := by
  unfold containersReady
  cases p.status.bind (·.containerStatuses) with
  | none => simp
  | some cs => simp

/-- What is told of the phase of a pod, if anything but the empty text is. -/
theorem phase_iff (p : Pod) {phase : String} (hne : phase ≠ "") :
    (p.status.bind (·.phase)).getD "" = phase ↔ p.status.bind (·.phase) = some phase := by
  cases p.status.bind (·.phase) with
  | none => simp [hne.symm]
  | some _ => simp

theorem group_eq_ready_iff : p.group = .ready ↔ p.IsReady := by
  have hruns := phase_iff p (by decide : "Running" ≠ "")
  unfold group
  constructor
  · intro h
    split at h
    · next hphase =>
      split at h
      · next hready => exact ⟨hruns.mp hphase, containersReady_iff.mp hready⟩
      · cases h
    · cases h
    · cases h
  · rintro ⟨hphase, hready⟩
    rw [hruns.mpr hphase]
    exact if_pos (containersReady_iff.mpr hready)

theorem group_eq_failed_iff : p.group = .failed ↔ p.HasFailed := by
  have hfailed := phase_iff p (by decide : "Failed" ≠ "")
  unfold group
  constructor
  · intro h
    split at h
    · split at h <;> cases h
    · next hphase => exact hfailed.mp hphase
    · cases h
  · intro h
    rw [hfailed.mpr h]
    rfl

theorem group_eq_notReady_iff : p.group = .notReady ↔ ¬ p.IsReady ∧ ¬ p.HasFailed := by
  rw [← group_eq_ready_iff, ← group_eq_failed_iff]
  cases p.group <;> simp

instance (p : Pod) : Decidable p.IsReady := decidable_of_iff (p.group = .ready) group_eq_ready_iff

instance (p : Pod) : Decidable p.HasFailed := decidable_of_iff (p.group = .failed) group_eq_failed_iff

/-! ### Names by group -/

variable {g : PodGroup}

/-- The names of the pods of a group are reported, each as often as there are such pods. -/
theorem namesOf_perm (pods : List Pod) (g : PodGroup) : (namesOf pods g).Perm ((pods.filter fun p => p.group == g).map name) :=
  List.mergeSort_perm _ _

/-- The names of the pods of a group are reported in order. -/
theorem namesOf_sorted (pods : List Pod) (g : PodGroup) : (namesOf pods g).Pairwise (· ≤ ·) := by
  have htrans (a b c : String) (hab : decide (a ≤ b) = true) (hbc : decide (b ≤ c) = true) : decide (a ≤ c) = true :=
    decide_eq_true (le_trans (of_decide_eq_true hab) (of_decide_eq_true hbc))
  have htotal (a b : String) : (decide (a ≤ b) || decide (b ≤ a)) = true := by simpa using le_total a b
  have hsorted := List.pairwise_mergeSort htrans htotal ((pods.filter fun p => p.group == g).map name)
  exact hsorted.imp of_decide_eq_true

/-- The pods of a group are those that fare so. -/
theorem filter_group {P : Pod → Prop} [DecidablePred P] (h : ∀ p : Pod, p.group = g ↔ P p) (pods : List Pod) :
    (pods.filter fun p => p.group == g) = pods.filter fun p => P p := by
  refine List.filter_congr fun p _ => ?_
  rw [beq_eq_decide]
  exact decide_eq_decide.mpr (h p)

/-- Pods are sorted into groups without loss, and each into one. -/
theorem groups_perm (pods : List Pod) :
    ((pods.filter fun p => p.group == .ready) ++ (pods.filter fun p => p.group == .notReady) ++
      pods.filter fun p => p.group == .failed).Perm pods := by
  induction pods with
  | nil => exact .refl _
  | cons p pods ih =>
    cases hg : p.group with
    | ready => simpa [hg] using ih
    | notReady =>
      rw [List.append_assoc] at ih
      simpa [hg] using List.perm_middle.trans (ih.cons p)
    | failed => simpa [hg] using List.perm_middle.trans (ih.cons p)

end Pod

/-! ### Reports of pods -/

/-- Whether pods are reported by their names: every one in the list of those that fare like it, as often as there are such pods of
its name, and in order. -/
structure PodState.Groups (state : PodState) (pods : List Pod) : Prop where
  ready : state.ready.Perm ((pods.filter fun p => p.IsReady).map Pod.name)
  failed : state.failed.Perm ((pods.filter fun p => p.HasFailed).map Pod.name)
  notReady : state.notReady.Perm ((pods.filter fun p => ¬ p.IsReady ∧ ¬ p.HasFailed).map Pod.name)
  all : (state.ready ++ state.notReady ++ state.failed).Perm (pods.map Pod.name)
  ready_sorted : state.ready.Pairwise (· ≤ ·)
  failed_sorted : state.failed.Pairwise (· ≤ ·)
  notReady_sorted : state.notReady.Pairwise (· ≤ ·)

namespace PodState.Groups

variable {state state' : PodState} {pods pods' : List Pod}

/-- Pods are reported in the same way in whatever order they are listed. -/
theorem reorder (h : state.Groups pods) (hpods : pods.Perm pods') : state.Groups pods' where
  ready := h.ready.trans ((hpods.filter _).map _)
  failed := h.failed.trans ((hpods.filter _).map _)
  notReady := h.notReady.trans ((hpods.filter _).map _)
  all := h.all.trans (hpods.map _)
  ready_sorted := h.ready_sorted
  failed_sorted := h.failed_sorted
  notReady_sorted := h.notReady_sorted

/-- Names in order are known by which there are, and how often. -/
theorem eq_of_sorted {names a b : List String} (ha : a.Perm names) (hb : b.Perm names) (hsa : a.Pairwise (· ≤ ·))
    (hsb : b.Pairwise (· ≤ ·)) : a = b :=
  (ha.trans hb.symm).eq_of_pairwise (fun _ _ _ _ => le_antisymm) hsa hsb

/-- There is one way only to report pods. -/
theorem unique (h : state.Groups pods) (h' : state'.Groups pods) : state = state' := by
  obtain ⟨ready, notReady, failed⟩ := state
  obtain ⟨ready', notReady', failed'⟩ := state'
  rw [PodState.mk.injEq]
  exact ⟨eq_of_sorted h.ready h'.ready h.ready_sorted h'.ready_sorted,
    eq_of_sorted h.notReady h'.notReady h.notReady_sorted h'.notReady_sorted,
    eq_of_sorted h.failed h'.failed h.failed_sorted h'.failed_sorted⟩

end PodState.Groups

namespace IngressStatus

/-- The pods of a status are those that were reported, by their groups. -/
theorem groups_withPods (s : IngressStatus) (pods : List Pod) : (s.withPods pods).podState.Groups pods := by
  constructor
  · exact Pod.filter_group (fun _ => Pod.group_eq_ready_iff) pods ▸ Pod.namesOf_perm pods .ready
  · exact Pod.filter_group (fun _ => Pod.group_eq_failed_iff) pods ▸ Pod.namesOf_perm pods .failed
  · exact Pod.filter_group (fun _ => Pod.group_eq_notReady_iff) pods ▸ Pod.namesOf_perm pods .notReady
  · have hall := (Pod.groups_perm pods).map Pod.name
    rw [List.map_append, List.map_append] at hall
    exact (((Pod.namesOf_perm pods .ready).append (Pod.namesOf_perm pods .notReady)).append
      (Pod.namesOf_perm pods .failed)).trans hall
  · exact Pod.namesOf_sorted pods .ready
  · exact Pod.namesOf_sorted pods .failed
  · exact Pod.namesOf_sorted pods .notReady

/-- A report of pods has the name of each of them once, in the list of those that fare like it, and in order. It is the same in
whatever order the pods are listed and whatever pods were reported before, and nothing but the pods is reported anew. -/
theorem pods_grouped (s : IngressStatus) (pods : List Pod) :
    (s.withPods pods).podState.Groups pods ∧
      (∀ pods', pods.Perm pods' → s.withPods pods' = s.withPods pods) ∧
      (∀ held : PodState, ({ s with podState := held } : IngressStatus).withPods pods = s.withPods pods) ∧
      s.withPods pods = { s with podState := (s.withPods pods).podState } := by
  refine ⟨groups_withPods s pods, fun pods' hpods => ?_, fun held => rfl, rfl⟩
  have hsame := (groups_withPods s pods').unique ((groups_withPods s pods).reorder hpods)
  exact congrArg (fun state => { s with podState := state }) hsame

/-- Three pods, two of one name, listed the other way round are reported alike. -/
theorem pods_grouped_reversed :
    let runs : PodStatus := { phase := some "Running", containerStatuses := some [{ ready := true }] }
    let pods : List Pod := [⟨{ name := some "b" }, none, some runs⟩, ⟨{ name := some "a" }, none, none⟩,
      ⟨{ name := some "a" }, none, some { phase := some "Failed" }⟩]
    pods.Perm pods.reverse ∧ ({} : IngressStatus).withPods pods.reverse = ({} : IngressStatus).withPods pods ∧
      (({} : IngressStatus).withPods pods).podState = ⟨["b"], ["a"], ["a"]⟩ := by
  intro runs pods
  have hperm : pods.Perm pods.reverse := (List.reverse_perm pods).symm
  exact ⟨hperm, (pods_grouped {} pods).2.1 _ hperm, by decide +kernel⟩

end IngressStatus

end IngressOperator
