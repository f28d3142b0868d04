import Mathlib.Data.List.Forall2
import IngressOperator.Proofs.Status.Stored

/-!
# Statuses that say the same

Two statuses may say the same, but since times that are not the same. Marks of the same outcome, at times that count as the same,
keep it so; and so does the beginning of a report, which tells the time in its message.

## Main statements

* `IngressStatus.Concurs.markReady`, `IngressStatus.Concurs.markFailed`: statuses say the same when the same is marked in them.
* `IngressStatus.Concurs.eq`: they are the same if the times are.
-/

namespace IngressOperator

variable {C : Instant → Instant → Prop}

/-! ### Conditions -/

namespace Condition

/-- Whether two conditions say the same, since times that count as the same. -/
structure Concurs (C : Instant → Instant → Prop) (c c' : Condition) : Prop where
  type : c.type = c'.type
  status : c.status = c'.status
  reason : c.reason = c'.reason
  message : c.message = c'.message
  time : C c.lastTransitionTime c'.lastTransitionTime

variable {c c' new new' : Condition} {cs cs' : List Condition}

theorem Concurs.eq (hc : Concurs Eq c c') : c = c' := by
  obtain ⟨type, status, time, reason, message⟩ := c
  obtain ⟨rfl, rfl, rfl, rfl, rfl⟩ := hc
  rfl

/-- Conditions that say the same do so when the same is said anew. -/
theorem Concurs.refresh (hc : Concurs C c c') (hn : Concurs C new new') :
    Concurs C (Condition.refresh c new) (Condition.refresh c' new') := by
  refine ⟨hc.type, hn.status, hn.reason, hn.message, ?_⟩
  simp only [Condition.refresh, hc.status, hn.status]
  split
  · exact hc.time
  · exact hn.time

theorem concurs_set (hcs : List.Forall₂ (Concurs C) cs cs') (hn : Concurs C new new') :
    List.Forall₂ (Concurs C) (set new cs).1 (set new' cs').1 := by
  induction hcs with
  | nil => exact .cons hn .nil
  | @cons c c' cs cs' hc hcs ih =>
    simp only [set, hc.type, hn.type]
    split
    · exact .cons (hc.refresh hn) hcs
    · exact .cons hc ih

theorem concurs_remove (hcs : List.Forall₂ (Concurs C) cs cs') (t : ConditionType) :
    List.Forall₂ (Concurs C) (remove t cs).1 (remove t cs').1 := by
  induction hcs with
  | nil => exact .nil
  | @cons c c' cs cs' hc hcs ih =>
    simp only [remove, List.filter_cons, hc.type] at ih ⊢
    split
    · exact .cons hc ih
    · exact ih

variable {now now' : Instant} (hcs : List.Forall₂ (Concurs C) cs cs') (hnow : C now now')

include hcs hnow

theorem concurs_ready : List.Forall₂ (Concurs C) (ready now cs) (ready now' cs') := by
  have hnew : Concurs C ⟨.ready, .true, now, "Reconciled", ""⟩ ⟨.ready, .true, now', "Reconciled", ""⟩ := ⟨rfl, rfl, rfl, rfl, hnow⟩
  exact concurs_remove (concurs_remove (concurs_remove (concurs_set hcs hnew) _) _) _

theorem concurs_failed (failure : ConditionType) (message : String) :
    List.Forall₂ (Concurs C) (failed failure message now cs) (failed failure message now' cs') := by
  have hnew : Concurs C ⟨.ready, .false, now, failure.name, ""⟩ ⟨.ready, .false, now', failure.name, ""⟩ :=
    ⟨rfl, rfl, rfl, rfl, hnow⟩
  exact concurs_set (concurs_set hcs hnew) ⟨rfl, rfl, rfl, rfl, hnow⟩

end Condition

/-! ### Statuses -/

/-- Whether the same is said of the operand, or that its report begins at times that count as the same. -/
inductive OperandState.Concurs (C : Instant → Instant → Prop) : OperandState → OperandState → Prop where
  | same (o : OperandState) : Concurs C o o
  | begun {now now' : Instant} (host : String) (hnow : C now now') :
    Concurs C (Pass.begun host now).operandState (Pass.begun host now').operandState

namespace IngressStatus

/-- Whether two statuses say the same, since times that count as the same. -/
structure Concurs (C : Instant → Instant → Prop) (s s' : IngressStatus) : Prop where
  conditions : ∀ kind, Option.Rel (List.Forall₂ (Condition.Concurs C)) (s.conditions.get? kind) (s'.conditions.get? kind)
  podState : s.podState = s'.podState
  host : s.host = s'.host
  operandState : OperandState.Concurs C s.operandState s'.operandState

variable {s s' : IngressStatus}

/-- A status says the same as itself if its times count as the same as themselves. -/
theorem Concurs.refl (hs : ∀ kind cs, s.conditions.get? kind = some cs → ∀ c ∈ cs, C c.lastTransitionTime c.lastTransitionTime) :
    Concurs C s s where
  conditions kind := by
    cases hcs : s.conditions.get? kind with
    | none => exact .none
    | some cs => exact .some (List.forall₂_same.2 fun c hc => ⟨rfl, rfl, rfl, rfl, hs kind cs hcs c hc⟩)
  podState := rfl
  host := rfl
  operandState := .same _

/-- Statuses that say the same since the same times are the same. -/
theorem Concurs.eq (hs : Concurs Eq s s') : s = s' := by
  obtain ⟨conditions, podState, host, operandState⟩ := s
  obtain ⟨conditions', podState', host', operandState'⟩ := s'
  obtain ⟨hconditions, rfl, rfl, hoperand⟩ := hs
  have ho : operandState = operandState' := by
    cases hoperand with
    | same o => rfl
    | begun host hnow => rw [hnow]
  have hc : conditions = conditions' := by
    refine SortedMap.ext_get? fun kind => ?_
    have hkind := hconditions kind
    dsimp only at hkind
    generalize conditions.get? kind = o at hkind
    generalize conditions'.get? kind = o' at hkind
    cases hkind with
    | none => rfl
    | some hcs =>
      have heq := hcs.imp fun _ _ hc => hc.eq
      rw [List.forall₂_eq_eq_eq] at heq
      rw [heq]
  rw [hc, ho]

/-- Statuses that say the same since the other's times do so the other way round. -/
theorem Concurs.flip (hs : Concurs C s s') : Concurs (flip C) s' s where
  conditions kind := by
    have hkind := hs.conditions kind
    generalize s.conditions.get? kind = o at hkind ⊢
    generalize s'.conditions.get? kind = o' at hkind ⊢
    cases hkind with
    | none => exact .none
    | some hcs =>
      refine .some (List.Forall₂.flip (hcs.imp fun c c' hc => ?_))
      exact ⟨hc.type.symm, hc.status.symm, hc.reason.symm, hc.message.symm, hc.time⟩
  podState := hs.podState.symm
  host := hs.host.symm
  operandState := by
    have hoperand := hs.operandState
    generalize s.operandState = o at hoperand ⊢
    generalize s'.operandState = o' at hoperand ⊢
    cases hoperand with
    | same => exact .same _
    | begun host hnow => exact .begun host hnow

/-- The times of a status lie in the calendar if only such count as the same as others. -/
theorem Concurs.inCalendar (hs : Concurs C s s') (hC : ∀ now now', C now now' → now.InCalendar) : s.InCalendar := by
  refine inCalendar_iff.2 fun kind cs hcs => ?_
  have hkind := hs.conditions kind
  rw [hcs] at hkind
  generalize s'.conditions.get? kind = o' at hkind
  cases hkind with
  | some hcs =>
    have htimes := hcs.imp fun c c' (hc : Condition.Concurs C c c') => And.intro (hC _ _ hc.time) hc
    rw [List.forall₂_and_left] at htimes
    exact htimes.1

theorem Concurs.conditionsOf (hs : Concurs C s s') (kind : String) :
    List.Forall₂ (Condition.Concurs C) (s.conditionsOf kind) (s'.conditionsOf kind) := by
  unfold IngressStatus.conditionsOf
  have hkind := hs.conditions kind
  generalize s.conditions.get? kind = o at hkind
  generalize s'.conditions.get? kind = o' at hkind
  cases hkind with
  | none => exact .nil
  | some hcs => exact hcs

/-- Statuses say the same when the same is marked in them. -/
theorem Concurs.markReady (hs : Concurs C s s') {now now' : Instant} (hnow : C now now') (kind : String) :
    Concurs C (s.markReady kind now) (s'.markReady kind now') where
  conditions kind' := by
    rw [get?_markReady, get?_markReady]
    split
    · exact .some (Condition.concurs_ready (hs.conditionsOf kind) hnow)
    · exact hs.conditions kind'
  podState := hs.podState
  host := hs.host
  operandState := hs.operandState

theorem Concurs.markFailed (hs : Concurs C s s') {now now' : Instant} (hnow : C now now') (kind : String)
    (failure : ConditionType) (message : String) :
    Concurs C (s.markFailed kind failure message now) (s'.markFailed kind failure message now') where
  conditions kind' := by
    rw [get?_markFailed, get?_markFailed]
    split
    · exact .some (Condition.concurs_failed (hs.conditionsOf kind) hnow failure message)
    · exact hs.conditions kind'
  podState := hs.podState
  host := hs.host
  operandState := hs.operandState

theorem Concurs.withOperand (hs : Concurs C s s') (state : OperandStatus) (message : String) :
    Concurs C (s.withOperand state message) (s'.withOperand state message) :=
  ⟨hs.conditions, hs.podState, hs.host, .same _⟩

/-- Statuses say the same when the same pods are reported in them. -/
theorem Concurs.concluded (hs : Concurs C s s') (pods : Except Failure (List Pod)) :
    Concurs C (Pass.concluded s pods) (Pass.concluded s' pods) := by
  cases pods with
  | ok pods => exact ⟨hs.conditions, rfl, hs.host, .same _⟩
  | error e => exact ⟨hs.conditions, hs.podState, hs.host, .same _⟩

end IngressStatus

/-- Reports of a host that begin at times that count as the same say the same. -/
theorem Pass.concurs_begun (host : String) {now now' : Instant} (hnow : C now now') :
    IngressStatus.Concurs C (Pass.begun host now) (Pass.begun host now') :=
  ⟨fun _ => .none, rfl, rfl, .begun host hnow⟩

end IngressOperator
