import IngressOperator.Proofs.Drift.Order

/-!
# Comparing tolerations

Tolerations are compared by the number of them and by which there are, not by how often each is there. That is as good as counting
them where no desired one is repeated, and where all of them are the same one. In every other list one of a repeated toleration
can be replaced by one of another, and the comparison does not notice.

## Main statements

* `Drift.sameTolerations_iff`: what the comparison is about.
* `Drift.counts_iff`: the lists of desired tolerations for which it is one of rearrangements.
* `Drift.tolerations_compared`: both, with what the comparison never misses.
-/

namespace IngressOperator

/-- Whether two tolerations have one key, one operator, one value, one effect and one time. -/
structure Toleration.Agrees (a b : Toleration) : Prop where
  key : a.key = b.key
  operator : a.operator = b.operator
  value : a.value = b.value
  effect : a.effect = b.effect
  tolerationSeconds : a.tolerationSeconds = b.tolerationSeconds

namespace Drift

theorem toleration_agrees_iff_eq {a b : Toleration} : a.Agrees b ↔ a = b := by
  obtain ⟨effect, key, operator, seconds, value⟩ := a
  obtain ⟨effect', key', operator', seconds', value'⟩ := b
  rw [Toleration.mk.injEq]
  constructor
  · rintro ⟨hkey, hoperator, hvalue, heffect, hseconds⟩
    exact ⟨heffect, hkey, hoperator, hseconds, hvalue⟩
  · rintro ⟨heffect, hkey, hoperator, hseconds, hvalue⟩
    exact ⟨hkey, hoperator, hvalue, heffect, hseconds⟩

section

variable {live desired : List Toleration}

/-- Tolerations that can be rearranged to agree are the same ones, each as often. -/
theorem rearranged_iff_perm : Rearranged Toleration.Agrees live desired ↔ live.Perm desired := by
  have heq : Toleration.Agrees = Eq := funext₂ fun a b => propext toleration_agrees_iff_eq
  rw [heq]
  constructor
  · rintro ⟨l, hl, hagrees⟩
    rw [List.forall₂_eq_eq_eq] at hagrees
    exact hagrees ▸ hl
  · intro hperm
    exact ⟨desired, hperm, List.forall₂_same.mpr fun _ _ => rfl⟩

/-- Tolerations are compared by their number and by which there are. -/
theorem sameTolerations_iff :
    sameTolerations live desired = true ↔ live.length = desired.length ∧ ∀ t, t ∈ live ↔ t ∈ desired := by
  simp only [sameTolerations, Bool.and_eq_true, beq_iff_eq, List.all_eq_true, List.any_eq_true, and_assoc]
  refine and_congr_right fun _ => ?_
  constructor
  · rintro ⟨hleft, hright⟩ t
    constructor
    · intro ht
      obtain ⟨u, hu, rfl⟩ := hleft t ht
      exact hu
    · intro ht
      obtain ⟨u, hu, rfl⟩ := hright t ht
      exact hu
  · intro hsame
    exact ⟨fun t ht => ⟨t, (hsame t).mp ht, rfl⟩, fun t ht => ⟨t, (hsame t).mpr ht, rfl⟩⟩

/-- The same tolerations in another order compare as the same. -/
theorem sameTolerations_of_perm (h : live.Perm desired) : sameTolerations live desired = true :=
  sameTolerations_iff.mpr ⟨h.length_eq, fun _ => h.mem_iff⟩

/-! ### Where the comparison counts -/

/-- As many tolerations as there are desired ones, among them all of these, are the desired ones if none of these is repeated. -/
theorem perm_of_distinct (hdistinct : desired.Nodup) (h : sameTolerations live desired = true) : live.Perm desired := by
  obtain ⟨hlength, hsame⟩ := sameTolerations_iff.mp h
  have hsub : desired.Subperm live := List.subperm_of_subset hdistinct fun t ht => (hsame t).mpr ht
  exact (hsub.perm_of_length_le (Nat.le_of_eq hlength)).symm

/-- As many tolerations as there are desired ones, which are all the same one, are the desired ones. -/
theorem perm_of_uniform (huniform : ∀ t ∈ desired, ∀ u ∈ desired, t = u) (h : sameTolerations live desired = true) :
    live.Perm desired := by
  obtain ⟨hlength, hsame⟩ := sameTolerations_iff.mp h
  cases desired with
  | nil => rw [List.length_eq_zero_iff.mp hlength]
  | cons d ds =>
    have hlive : live = List.replicate live.length d :=
      List.eq_replicate_of_mem fun t ht => huniform t ((hsame t).mp ht) d List.mem_cons_self
    have hdesired : d :: ds = List.replicate (d :: ds).length d :=
      List.eq_replicate_of_mem fun t ht => huniform t ht d List.mem_cons_self
    rw [hlive, hdesired, hlength]

/-! ### Where it does not -/

/-- One of a repeated toleration may be replaced by any that is there, and nothing is noticed. -/
theorem sameTolerations_replaced {t u : Toleration} (ht : t ∈ desired) (hrepeated : t ∈ desired.erase t) (hu : u ∈ desired) :
    sameTolerations (u :: desired.erase t) desired = true := by
  rw [sameTolerations_iff]
  constructor
  · rw [List.length_cons, List.length_erase_of_mem ht]
    exact Nat.sub_add_cancel (List.length_pos_of_mem ht)
  · intro x
    rw [List.mem_cons]
    constructor
    · rintro (rfl | hx)
      · exact hu
      · exact List.mem_of_mem_erase hx
    · intro hx
      by_cases hxt : x = t
      · exact .inr (hxt ▸ hrepeated)
      · exact .inr ((List.mem_erase_of_ne hxt).mpr hx)

/-- One toleration replaced by another one is one less of it. -/
theorem not_perm_replaced {t u : Toleration} (ht : t ∈ desired) (hne : u ≠ t) : ¬ (u :: desired.erase t).Perm desired := by
  intro hperm
  have hback : (t :: desired.erase t).Perm desired := (List.perm_cons_erase ht).symm
  have hcount := (hperm.trans hback.symm).count_eq t
  rw [List.count_cons_self, List.count_cons_of_ne hne] at hcount
  omega

/-- A list with a repeated toleration and two different ones has a repeated one and another one. -/
theorem exists_repeated (hdistinct : ¬ desired.Nodup) (huniform : ¬ ∀ t ∈ desired, ∀ u ∈ desired, t = u) :
    ∃ t ∈ desired, t ∈ desired.erase t ∧ ∃ u ∈ desired, u ≠ t := by
  obtain ⟨t, htwice⟩ : ∃ t, List.Sublist [t, t] desired := by
    by_contra hnone
    exact hdistinct (List.nodup_iff_sublist.mpr fun t ht => hnone ⟨t, ht⟩)
  have ht : t ∈ desired := htwice.subset List.mem_cons_self
  have hrepeated : t ∈ desired.erase t := by
    have herased := htwice.erase t
    rw [List.erase_cons_head] at herased
    exact herased.subset List.mem_cons_self
  refine ⟨t, ht, hrepeated, ?_⟩
  by_contra hnone
  have hall : ∀ u ∈ desired, u = t := fun u hu => by_contra fun hne => hnone ⟨u, hu, hne⟩
  exact huniform fun x hx y hy => (hall x hx).trans (hall y hy).symm

end

/-- The comparison with a list of desired tolerations is one of rearrangements exactly if none of these is repeated, or if all of
these are the same one. -/
theorem counts_iff (desired : List Toleration) :
    (∀ live, sameTolerations live desired = true ↔ Rearranged Toleration.Agrees live desired) ↔
      desired.Nodup ∨ ∀ t ∈ desired, ∀ u ∈ desired, t = u := by
  constructor
  · intro hcounts
    by_contra hnone
    obtain ⟨hdistinct, huniform⟩ := not_or.mp hnone
    obtain ⟨t, ht, hrepeated, u, hu, hne⟩ := exists_repeated hdistinct huniform
    have hsame := sameTolerations_replaced ht hrepeated hu
    exact not_perm_replaced ht hne (rearranged_iff_perm.mp ((hcounts _).mp hsame))
  · intro hcase live
    rw [rearranged_iff_perm]
    refine ⟨fun hsame => ?_, sameTolerations_of_perm⟩
    rcases hcase with hdistinct | huniform
    · exact perm_of_distinct hdistinct hsame
    · exact perm_of_uniform huniform hsame

/-- A list of desired tolerations is compared by counting exactly if none of them is repeated, or all are the same one. In any case
a list compares as the same if there are as many in either and each one of either is in the other; so one that can be rearranged
to agree always does, and the order makes no difference. -/
theorem tolerations_compared (desired : List Toleration) :
    ((∀ live, sameTolerations live desired = true ↔ Rearranged Toleration.Agrees live desired) ↔
      desired.Nodup ∨ ∀ t ∈ desired, ∀ u ∈ desired, t.Agrees u) ∧
    ∀ live : List Toleration,
      (sameTolerations live desired = true ↔
        live.length = desired.length ∧ (∀ t ∈ live, ∃ u ∈ desired, t.Agrees u) ∧ ∀ u ∈ desired, ∃ t ∈ live, t.Agrees u) ∧
      (Rearranged Toleration.Agrees live desired → sameTolerations live desired = true) ∧
      ∀ live' desired' : List Toleration, live.Perm live' → desired.Perm desired' →
        sameTolerations live' desired' = sameTolerations live desired := by
  refine ⟨?_, fun live => ⟨?_, fun h => sameTolerations_of_perm (rearranged_iff_perm.mp h), ?_⟩⟩
  · simp only [toleration_agrees_iff_eq]
    exact counts_iff desired
  · simp only [toleration_agrees_iff_eq, exists_eq_right', exists_eq_right]
    rw [sameTolerations_iff]
    exact and_congr_right fun _ => ⟨fun h => ⟨fun t => (h t).mp, fun t => (h t).mpr⟩, fun h t => ⟨h.1 t, h.2 t⟩⟩
  · intro live' desired' hlive hdesired
    rw [Bool.eq_iff_iff, sameTolerations_iff, sameTolerations_iff, hlive.length_eq, hdesired.length_eq]
    exact and_congr_right fun _ => forall_congr' fun t => iff_congr hlive.mem_iff.symm hdesired.mem_iff.symm

/-- Two tolerations that are listed the other way round compare as the same, and counting them could not tell more. -/
theorem tolerations_compared_swapped :
    Rearranged Toleration.Agrees [{ key := some "b" }, { key := some "a" }] [{ key := some "a" }, { key := some "b" }] ∧
      sameTolerations [{ key := some "b" }, { key := some "a" }] [{ key := some "a" }, { key := some "b" }] = true := by
  obtain ⟨hexactly, hlive⟩ := tolerations_compared [{ key := some "a" }, { key := some "b" }]
  have hcounts := hexactly.mpr (.inl (by decide))
  have hrearranged := (hcounts [{ key := some "b" }, { key := some "a" }]).mp (by decide)
  exact ⟨hrearranged, (hlive _).2.1 hrearranged⟩

/-- A toleration that is there twice beside another one is taken for that other one twice. -/
theorem multiplicity_missed :
    ¬ ∀ live desired : List Toleration, sameTolerations live desired = true ↔ Rearranged Toleration.Agrees live desired := by
  intro hclaim
  have hsame : sameTolerations [{ key := some "a" }, { key := some "a" }, { key := some "b" }]
      [{ key := some "a" }, { key := some "b" }, { key := some "b" }] = true := by decide
  have hperm := rearranged_iff_perm.mp ((hclaim _ _).mp hsame)
  revert hperm
  decide

end Drift

end IngressOperator
