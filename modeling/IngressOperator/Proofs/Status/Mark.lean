import IngressOperator.Proofs.Wire.Resources
import IngressOperator.Status.Mark

/-!
# Marks in a status

What a mark says of a kind of objects, and that it says so for good: marking once more what is marked already changes nothing,
not even the time of the last change. A mark of one kind leaves what is said of the others.

## Main statements

* `IngressStatus.showsReady_markReady`, `IngressStatus.showsFailed_markFailed`: what a mark says.
* `IngressStatus.markReady_eq_self`, `IngressStatus.markFailed_eq_self`: a mark is made once.
-/

namespace IngressOperator

/-! ### Lists of conditions -/

namespace Condition

/-- Whether the first condition of a type has a status, a reason and a message, be it since whenever. -/
def Says (t : ConditionType) (status : ConditionStatus) (reason message : String) (cs : List Condition) : Prop :=
  ∃ c, find? t cs = some c ∧ c.status = status ∧ c.reason = reason ∧ c.message = message

/-- Setting a condition is seen under its type and nowhere else. -/
theorem find?_set (new : Condition) (t : ConditionType) (cs : List Condition) :
    find? t (set new cs).1 =
      if new.type = t then some (((find? new.type cs).map fun c => refresh c new).getD new) else find? t cs := by
  induction cs with
  | nil => by_cases h : new.type = t <;> simp [set, find?, h]
  | cons c cs ih =>
    unfold find? at ih ⊢
    by_cases hc : c.type = new.type
    · by_cases ht : new.type = t <;> simp [set, hc, ht, refresh]
    · by_cases ht : new.type = t
      · subst ht
        simp [set, hc, ih]
      · have htn : ¬ t = new.type := fun he => ht he.symm
        by_cases hct : c.type = t
        · simp [set, ht, htn, hct]
        · simp [set, hc, ht, hct, ih]

/-- Removing the conditions of a type is seen under that type and nowhere else. -/
theorem find?_remove (t t' : ConditionType) (cs : List Condition) :
    find? t' (remove t cs).1 = if t = t' then none else find? t' cs := by
  induction cs with
  | nil => simp [remove, find?]
  | cons c cs ih =>
    simp only [remove, find?] at ih ⊢
    by_cases hc : c.type = t
    · by_cases ht : t = t'
      · simp_all
      · have hne : c.type ≠ t' := fun he => ht (hc.symm.trans he)
        simp_all
    · by_cases ht : t = t'
      · simp_all
      · by_cases hct : c.type = t' <;> simp_all

/-- What was set is said. -/
theorem says_set (new : Condition) (cs : List Condition) : Says new.type new.status new.reason new.message (set new cs).1 := by
  refine ⟨((find? new.type cs).map fun c => refresh c new).getD new, by simp [find?_set], ?_⟩
  cases find? new.type cs with
  | none => exact ⟨rfl, rfl, rfl⟩
  | some c => exact ⟨rfl, rfl, rfl⟩

/-- What is said of one type is not changed by setting a condition of another one. -/
theorem says_set_of_ne {new : Condition} {t : ConditionType} {status : ConditionStatus} {reason message : String}
    {cs : List Condition} (h : new.type ≠ t) :
    Says t status reason message (set new cs).1 ↔ Says t status reason message cs := by
  rw [Says, Says, find?_set, if_neg h]

theorem says_remove_of_ne {t t' : ConditionType} {status : ConditionStatus} {reason message : String} {cs : List Condition}
    (h : t' ≠ t) : Says t status reason message (remove t' cs).1 ↔ Says t status reason message cs := by
  rw [Says, Says, find?_remove, if_neg h]

/-- Setting what is said already changes nothing, not even the time of the last change. -/
theorem set_eq_self {new : Condition} {cs : List Condition} (h : Says new.type new.status new.reason new.message cs) :
    (set new cs).1 = cs := by
  induction cs with
  | nil =>
    obtain ⟨c, hc, -⟩ := h
    cases hc
  | cons c cs ih =>
    obtain ⟨d, hd, hs, hr, hm⟩ := h
    by_cases hc : c.type = new.type
    · have hcd : c = d := by simpa [find?, hc] using hd
      subst hcd
      have hrefresh : refresh c new = c := by
        cases c
        simp_all [refresh]
      simp [set, hc, hrefresh]
    · have hrest : find? new.type cs = some d := by simpa [find?, hc] using hd
      simp [set, hc, ih ⟨d, hrest, hs, hr, hm⟩]

/-- Removing the conditions of a type of which there is none changes nothing. -/
theorem remove_eq_self {t : ConditionType} {cs : List Condition} (h : find? t cs = none) : (remove t cs).1 = cs := by
  refine List.filter_eq_self.2 fun c hc => ?_
  have hne := List.find?_eq_none.1 h c hc
  simpa using hne

/-! ### What a mark says -/

/-- Whether the conditions of a kind say that its objects are as they should be, and nothing else of how they fare. -/
def ShowReady (cs : List Condition) : Prop :=
  Says .ready .true "Reconciled" "" cs ∧ ∀ t ∈ ConditionType.failures, find? t cs = none

/-- Whether the conditions of a kind say that its objects could not be kept, and why. -/
def ShowFailed (failure : ConditionType) (message : String) (cs : List Condition) : Prop :=
  Says .ready .false failure.name "" cs ∧ Says failure .true "ReconcileFailed" message cs

/-- The conditions of a kind whose objects are as they should be. -/
def ready (now : Instant) (cs : List Condition) : List Condition :=
  ConditionType.failures.foldl (fun cs t => (remove t cs).1) (set ⟨.ready, .true, now, "Reconciled", ""⟩ cs).1

/-- The conditions of a kind whose objects could not be kept as they should be. -/
def failed (failure : ConditionType) (message : String) (now : Instant) (cs : List Condition) : List Condition :=
  (set ⟨failure, .true, now, "ReconcileFailed", message⟩ (set ⟨.ready, .false, now, failure.name, ""⟩ cs).1).1

/-- A mark of success is shown. -/
theorem showReady_ready (now : Instant) (cs : List Condition) : ShowReady (ready now cs) := by
  have hs := says_set ⟨.ready, .true, now, "Reconciled", ""⟩ cs
  constructor
  · simp only [ready, ConditionType.failures, List.foldl_cons, List.foldl_nil]
    rw [says_remove_of_ne (by decide), says_remove_of_ne (by decide), says_remove_of_ne (by decide)]
    exact hs
  · intro t ht
    simp only [ready, ConditionType.failures, List.foldl_cons, List.foldl_nil, find?_remove]
    simp only [ConditionType.failures, List.mem_cons, List.not_mem_nil, or_false] at ht
    rcases ht with rfl | rfl | rfl <;> simp

/-- A mark of failure is shown. -/
theorem showFailed_failed {failure : ConditionType} (hf : failure ≠ .ready) (message : String) (now : Instant)
    (cs : List Condition) : ShowFailed failure message (failed failure message now cs) := by
  constructor
  · rw [failed, says_set_of_ne (by exact hf)]
    exact says_set ⟨.ready, .false, now, failure.name, ""⟩ cs
  · exact says_set ⟨failure, .true, now, "ReconcileFailed", message⟩ _

/-- What shows success is not changed by a mark of success. -/
theorem ready_eq_self {cs : List Condition} (h : ShowReady cs) (now : Instant) : ready now cs = cs := by
  have hset : (set ⟨.ready, .true, now, "Reconciled", ""⟩ cs).1 = cs := set_eq_self h.1
  have hremove (t : ConditionType) (ht : t ∈ ConditionType.failures) : (remove t cs).1 = cs := remove_eq_self (h.2 t ht)
  simp only [ready, ConditionType.failures, List.foldl_cons, List.foldl_nil, hset]
  rw [hremove _ (by decide), hremove _ (by decide), hremove _ (by decide)]

/-- What shows a failure is not changed by a mark of the same failure. -/
theorem failed_eq_self {failure : ConditionType} {message : String} {cs : List Condition} (h : ShowFailed failure message cs)
    (now : Instant) : failed failure message now cs = cs := by
  have hready : (set ⟨.ready, .false, now, failure.name, ""⟩ cs).1 = cs := set_eq_self h.1
  have hfailure : (set ⟨failure, .true, now, "ReconcileFailed", message⟩ cs).1 = cs := set_eq_self h.2
  rw [failed, hready, hfailure]

/-! ### Times -/

section

variable {P : Instant → Prop} {now : Instant} {cs : List Condition} (hcs : ∀ c ∈ cs, P c.lastTransitionTime)

include hcs

/-- The times of conditions are those that they had, or that of the one that was set. -/
theorem times_set {new : Condition} (hn : P new.lastTransitionTime) : ∀ c ∈ (set new cs).1, P c.lastTransitionTime := by
  induction cs with
  | nil =>
    intro c hc
    rw [List.mem_singleton.1 hc]
    exact hn
  | cons d cs ih =>
    intro c hc
    have ih := ih fun c hc => hcs c (List.mem_cons_of_mem _ hc)
    by_cases hd : d.type = new.type
    · simp only [set, hd, if_true] at hc
      rcases List.mem_cons.1 hc with rfl | hc
      · simp only [refresh]
        split
        · exact hcs d List.mem_cons_self
        · exact hn
      · exact hcs c (List.mem_cons_of_mem _ hc)
    · simp only [set, hd, if_false] at hc
      rcases List.mem_cons.1 hc with rfl | hc
      · exact hcs c List.mem_cons_self
      · exact ih c hc

variable (hn : P now)

include hn

theorem times_ready : ∀ c ∈ ready now cs, P c.lastTransitionTime := by
  intro c hc
  simp only [ready, ConditionType.failures, List.foldl_cons, List.foldl_nil, remove, List.mem_filter] at hc
  exact times_set hcs hn c hc.1.1.1

theorem times_failed (failure : ConditionType) (message : String) :
    ∀ c ∈ failed failure message now cs, P c.lastTransitionTime :=
  times_set (times_set hcs hn) hn

end

end Condition

/-! ### Statuses -/

namespace IngressStatus

/-- Whether a status says of a kind that its objects are as they should be. -/
def ShowsReady (s : IngressStatus) (kind : String) : Prop := ∃ cs, s.conditions.get? kind = some cs ∧ Condition.ShowReady cs

/-- Whether a status says of a kind that its objects could not be kept, and why. -/
def ShowsFailed (s : IngressStatus) (kind : String) (failure : ConditionType) (message : String) : Prop :=
  ∃ cs, s.conditions.get? kind = some cs ∧ Condition.ShowFailed failure message cs

variable (s : IngressStatus) (kind : String) (now : Instant)

/-- A mark of success is seen under its kind and nowhere else. -/
theorem get?_markReady (kind' : String) :
    (s.markReady kind now).conditions.get? kind' =
      if kind' = kind then some (Condition.ready now (s.conditionsOf kind)) else s.conditions.get? kind' := by
  have hm : (s.markReady kind now).conditions = s.conditions.insert kind (Condition.ready now (s.conditionsOf kind)) := rfl
  rw [hm, SortedMap.get?_insert]
  simp only [Std.LawfulEqCmp.compare_eq_iff_eq]

/-- A mark of failure is seen under its kind and nowhere else. -/
theorem get?_markFailed (failure : ConditionType) (message kind' : String) :
    (s.markFailed kind failure message now).conditions.get? kind' =
      if kind' = kind then some (Condition.failed failure message now (s.conditionsOf kind)) else s.conditions.get? kind' := by
  have hm : (s.markFailed kind failure message now).conditions =
      s.conditions.insert kind (Condition.failed failure message now (s.conditionsOf kind)) := rfl
  rw [hm, SortedMap.get?_insert]
  simp only [Std.LawfulEqCmp.compare_eq_iff_eq]

theorem showsReady_markReady : (s.markReady kind now).ShowsReady kind :=
  ⟨_, by rw [get?_markReady, if_pos rfl], Condition.showReady_ready now _⟩

theorem showsFailed_markFailed {failure : ConditionType} (hf : failure ≠ .ready) (message : String) :
    (s.markFailed kind failure message now).ShowsFailed kind failure message :=
  ⟨_, by rw [get?_markFailed, if_pos rfl], Condition.showFailed_failed hf message now _⟩

variable {s kind}

/-- What is said of a kind depends on its conditions alone. -/
theorem ShowsReady.congr {s' : IngressStatus} (hs : s.ShowsReady kind) (h : s'.conditions.get? kind = s.conditions.get? kind) :
    s'.ShowsReady kind := by
  obtain ⟨cs, hcs, hshow⟩ := hs
  exact ⟨cs, h.trans hcs, hshow⟩

theorem ShowsFailed.congr {s' : IngressStatus} {failure : ConditionType} {message : String}
    (hs : s.ShowsFailed kind failure message) (h : s'.conditions.get? kind = s.conditions.get? kind) :
    s'.ShowsFailed kind failure message := by
  obtain ⟨cs, hcs, hshow⟩ := hs
  exact ⟨cs, h.trans hcs, hshow⟩

/-- A mark of success that is shown already changes nothing. -/
theorem markReady_eq_self (h : s.ShowsReady kind) : s.markReady kind now = s := by
  obtain ⟨cs, hcs, hshow⟩ := h
  have hm : s.markReady kind now =
      { s with conditions := s.conditions.insert kind (Condition.ready now (s.conditionsOf kind)) } := rfl
  have hof : s.conditionsOf kind = cs := by rw [conditionsOf, hcs, Option.getD_some]
  rw [hm, hof, Condition.ready_eq_self hshow, SortedMap.insert_eq_self hcs]

/-- A mark of failure that is shown already changes nothing. -/
theorem markFailed_eq_self {failure : ConditionType} {message : String} (h : s.ShowsFailed kind failure message) :
    s.markFailed kind failure message now = s := by
  obtain ⟨cs, hcs, hshow⟩ := h
  have hm : s.markFailed kind failure message now =
      { s with conditions := s.conditions.insert kind (Condition.failed failure message now (s.conditionsOf kind)) } := rfl
  have hof : s.conditionsOf kind = cs := by rw [conditionsOf, hcs, Option.getD_some]
  rw [hm, hof, Condition.failed_eq_self hshow, SortedMap.insert_eq_self hcs]

/-! ### Statuses in the calendar -/

theorem inCalendar_iff :
    s.InCalendar ↔ ∀ kind cs, s.conditions.get? kind = some cs → ∀ c ∈ cs, c.lastTransitionTime.InCalendar := by
  constructor
  · intro hs kind cs hcs
    exact hs (kind, cs) (SortedMap.mem_toList_iff.2 hcs)
  · intro hs e he
    exact hs e.1 e.2 (SortedMap.mem_toList_iff.1 he)

/-- The conditions of a kind have times in the calendar if those of the status have. -/
theorem InCalendar.conditionsOf (hs : s.InCalendar) (kind : String) :
    ∀ c ∈ s.conditionsOf kind, c.lastTransitionTime.InCalendar := by
  unfold IngressStatus.conditionsOf
  cases hcs : s.conditions.get? kind with
  | none => exact fun _ hc => absurd hc List.not_mem_nil
  | some cs => exact inCalendar_iff.1 hs kind cs hcs

variable {now}

/-- A mark leaves a status in the calendar. -/
theorem InCalendar.markReady (hs : s.InCalendar) (hn : now.InCalendar) (kind : String) : (s.markReady kind now).InCalendar := by
  refine inCalendar_iff.2 fun kind' cs hcs => ?_
  rw [get?_markReady] at hcs
  split at hcs
  · cases hcs
    exact Condition.times_ready (hs.conditionsOf kind) hn
  · exact inCalendar_iff.1 hs kind' cs hcs

theorem InCalendar.markFailed (hs : s.InCalendar) (hn : now.InCalendar) (kind : String) (failure : ConditionType)
    (message : String) : (s.markFailed kind failure message now).InCalendar := by
  refine inCalendar_iff.2 fun kind' cs hcs => ?_
  rw [get?_markFailed] at hcs
  split at hcs
  · cases hcs
    exact Condition.times_failed (hs.conditionsOf kind) hn failure message
  · exact inCalendar_iff.1 hs kind' cs hcs

theorem InCalendar.withOperand (hs : s.InCalendar) (state : OperandStatus) (message : String) :
    (s.withOperand state message).InCalendar := hs

end IngressStatus

/-- A failure is not told by the condition that tells of success. -/
theorem Failure.condition_ne_ready (e : Failure) : e.condition ≠ .ready := by
  cases e <;> exact nofun

end IngressOperator
