import Mathlib.Data.List.Induction
import IngressOperator.Proofs.Status.History

/-!
# Lists of conditions as histories of edits

Conditions are set and removed one at a time. An edit says that something changed exactly if the list is another one, and it leaves
the conditions of all other types alone. What is found of a type after any edits is what was set last, unless it was removed since;
it has been so since the earliest set of those that follow each other with the same status, where a condition that was there at
first counts as set before all edits.

## Main statements

* `Condition.Edit.changed_iff`: what an edit says of itself.
* `Condition.find?_edited`: what is found of a type, as a function of its history.
* `Condition.edits_recounted`: the laws of one edit and of any sequence of edits.
-/

namespace IngressOperator.Condition

/-! ### One edit -/

/-- A change of a list of conditions. -/
inductive Edit where
  | set (new : Condition)
  | remove (type : ConditionType)
deriving DecidableEq

namespace Edit

/-- The type of the conditions that an edit is about. -/
def type : Edit → ConditionType
  | set new => new.type
  | remove t => t

/-- The list after an edit, and whether anything is said to have changed. -/
def apply : Edit → List Condition → List Condition × Bool
  | set new, cs => Condition.set new cs
  | remove t, cs => Condition.remove t cs

end Edit

/-- The conditions of all types but one. -/
def others (t : ConditionType) (cs : List Condition) : List Condition := cs.filter fun c => c.type != t

/-- A condition is what it was exactly if the one that is set says nothing else; its time then stays. -/
theorem refresh_eq_self_iff {c new : Condition} : refresh c new = c ↔ differs c new = false := by
  obtain ⟨type, status, time, reason, message⟩ := c
  simp only [refresh, differs, Condition.mk.injEq, true_and, Bool.or_eq_false_iff, bne_eq_false_iff_eq]
  constructor
  · rintro ⟨hstatus, -, hreason, hmessage⟩
    exact ⟨⟨hstatus.symm, hreason.symm⟩, hmessage.symm⟩
  · rintro ⟨⟨hstatus, hreason⟩, hmessage⟩
    exact ⟨hstatus.symm, if_pos hstatus, hreason.symm, hmessage.symm⟩

/-- Setting a condition is said to change something exactly if it does. -/
theorem set_changed_iff (new : Condition) (cs : List Condition) : (set new cs).2 = true ↔ (set new cs).1 ≠ cs := by
  induction cs with
  | nil => simp [set]
  | cons c cs ih =>
    by_cases hc : c.type = new.type
    · simp only [set, hc, if_true, ne_eq, List.cons.injEq, and_true, refresh_eq_self_iff, Bool.not_eq_false]
    · simp only [set, hc, if_false, ne_eq, List.cons.injEq, true_and]
      exact ih

/-- Removing conditions is said to change something exactly if it does. -/
theorem remove_changed_iff (t : ConditionType) (cs : List Condition) : (remove t cs).2 = true ↔ (remove t cs).1 ≠ cs := by
  simp only [remove, ne_eq, List.filter_eq_self, List.any_eq_true, beq_iff_eq, bne_iff_ne]
  constructor
  · rintro ⟨c, hc, ht⟩ hall
    exact hall c hc ht
  · intro hsome
    by_contra hnone
    refine hsome fun c hc ht => ?_
    exact hnone ⟨c, hc, ht⟩

/-- Setting a condition leaves the conditions of other types where they are. -/
theorem getElem?_set_of_ne {new c : Condition} {cs : List Condition} {i : Nat} (hc : cs[i]? = some c)
    (hne : c.type ≠ new.type) : (set new cs).1[i]? = some c := by
  induction cs generalizing i with
  | nil => simp at hc
  | cons d cs ih =>
    by_cases hd : d.type = new.type
    · cases i with
      | zero =>
        simp only [List.getElem?_cons_zero, Option.some.injEq] at hc
        exact absurd (hc ▸ hd) hne
      | succ i => simpa [set, hd] using hc
    · cases i with
      | zero => simpa [set, hd] using hc
      | succ i =>
        simp only [List.getElem?_cons_succ] at hc
        simpa [set, hd] using ih hc

/-- Setting a condition neither changes those of other types nor adds or drops any. -/
theorem others_set (new : Condition) (cs : List Condition) : others new.type (set new cs).1 = others new.type cs := by
  induction cs with
  | nil => simp [set, others]
  | cons c cs ih =>
    unfold others at ih ⊢
    by_cases hc : c.type = new.type
    · simp [set, hc, refresh]
    · simp [set, hc, ih]

theorem others_remove (t : ConditionType) (cs : List Condition) : others t (remove t cs).1 = others t cs := by
  simp [others, remove]

namespace Edit

/-- An edit is said to change something exactly if it does. -/
theorem changed_iff (e : Edit) (cs : List Condition) : (e.apply cs).2 = true ↔ (e.apply cs).1 ≠ cs := by
  cases e with
  | set new => exact set_changed_iff new cs
  | remove t => exact remove_changed_iff t cs

/-- An edit leaves the conditions of all other types as they are, in their order. -/
theorem others_apply (e : Edit) (cs : List Condition) : others e.type (e.apply cs).1 = others e.type cs := by
  cases e with
  | set new => exact others_set new cs
  | remove t => exact others_remove t cs

/-- An edit leaves types distinct. -/
theorem nodup_apply (e : Edit) {cs : List Condition} (h : (cs.map (·.type)).Nodup) : ((e.apply cs).1.map (·.type)).Nodup := by
  cases e with
  | set new => exact nodup_set new h
  | remove t => exact nodup_remove t h

end Edit

/-- Setting the same once more, at whatever time, changes nothing and says so. -/
theorem set_again (new : Condition) (time : Instant) (cs : List Condition) :
    set { new with lastTransitionTime := time } (set new cs).1 = ((set new cs).1, false) := by
  have hsame : (set { new with lastTransitionTime := time } (set new cs).1).1 = (set new cs).1 := set_eq_self (says_set new cs)
  have hflag : (set { new with lastTransitionTime := time } (set new cs).1).2 = false := by
    rw [← Bool.not_eq_true, set_changed_iff, not_not]
    exact hsame
  exact Prod.ext hsame hflag

/-! ### Any edits -/

/-- The list after some edits, made in this order. -/
def edited (cs : List Condition) (es : List Edit) : List Condition := es.foldl (fun cs e => (e.apply cs).1) cs

/-- The edits of a type, the latest first. -/
def editsOf (t : ConditionType) (es : List Edit) : List Edit := (es.filter fun e => e.type == t).reverse

/-- What was said of a type, the latest first, by its edits since it was last removed; the condition that was there at first is the
earliest, unless there was a removal. -/
def standing (initial : Option Condition) : List Edit → List Condition
  | [] => initial.toList
  | .set new :: past => new :: standing initial past
  | .remove _ :: _ => []

/-- The latest conditions that follow each other with the same status; of conditions that begin with the latest, the last of these
is the earliest in the current run. -/
def unbroken : List Condition → List Condition
  | [] => []
  | latest :: earlier => latest :: earlier.takeWhile fun c => c.status == latest.status

/-- What is found after some conditions were set: the latest one, since the time of the earliest in the current run. -/
def recalled (said : List Condition) : Option Condition :=
  said.head?.bind fun latest =>
    (unbroken said).getLast?.map fun first => { latest with lastTransitionTime := first.lastTransitionTime }

theorem recalled_cons (latest : Condition) (earlier : List Condition) :
    ∃ first, (unbroken (latest :: earlier)).getLast? = some first ∧
      recalled (latest :: earlier) = some { latest with lastTransitionTime := first.lastTransitionTime } := by
  cases hfirst : (unbroken (latest :: earlier)).getLast? with
  | none => cases List.getLast?_eq_none_iff.1 hfirst
  | some first => exact ⟨first, rfl, by simp [recalled, hfirst]⟩

/-- A condition that is set refreshes what was found before, if anything was. -/
theorem recalled_set {new : Condition} {said : List Condition} (hs : ∀ c ∈ said, c.type = new.type) :
    recalled (new :: said) = some (((recalled said).map fun c => refresh c new).getD new) := by
  cases said with
  | nil => rfl
  | cons latest earlier =>
    obtain ⟨first, hfirst, hrecalled⟩ := recalled_cons latest earlier
    have htype : latest.type = new.type := hs latest List.mem_cons_self
    rw [hrecalled]
    by_cases hstatus : latest.status = new.status
    · -- the run goes on, so the earliest of it is the one that it was
      have hrun : unbroken (new :: latest :: earlier) = new :: unbroken (latest :: earlier) := by
        rw [unbroken, unbroken, List.takeWhile_cons_of_pos (by simpa using hstatus), hstatus]
      have hlast : (unbroken (new :: latest :: earlier)).getLast? = some first := by
        rw [hrun, List.getLast?_cons, hfirst]
        rfl
      simp [recalled, hlast, refresh, hstatus, htype]
    · have hrun : unbroken (new :: latest :: earlier) = [new] := by
        rw [unbroken, List.takeWhile_cons_of_neg (by simpa using hstatus)]
      simp [recalled, hrun, refresh, hstatus, htype]

theorem recalled_initial (initial : Option Condition) : recalled initial.toList = initial := by
  cases initial with
  | none => rfl
  | some c => rfl

/-- What was said of a type is of that type. -/
theorem type_of_mem_standing {t : ConditionType} {initial : Option Condition} {past : List Edit}
    (hinitial : ∀ c ∈ initial, c.type = t) (hpast : ∀ e ∈ past, e.type = t) : ∀ c ∈ standing initial past, c.type = t := by
  induction past with
  | nil =>
    intro c hc
    exact hinitial c (Option.mem_toList.1 hc)
  | cons e past ih =>
    intro c hc
    cases e with
    | set new =>
      rcases List.mem_cons.1 hc with rfl | hc
      · exact hpast (.set c) List.mem_cons_self
      · exact ih (fun e he => hpast e (List.mem_cons_of_mem _ he)) c hc
    | remove t' => exact absurd hc List.not_mem_nil

theorem type_of_mem_editsOf {t : ConditionType} {es : List Edit} : ∀ e ∈ editsOf t es, e.type = t := by
  intro e he
  simp only [editsOf, List.mem_reverse, List.mem_filter, beq_iff_eq] at he
  exact he.2

theorem type_of_find? {t : ConditionType} {cs : List Condition} : ∀ c ∈ find? t cs, c.type = t := by
  intro c hc
  simpa using List.find?_some hc

theorem editsOf_concat (t : ConditionType) (es : List Edit) (e : Edit) :
    editsOf t (es ++ [e]) = if e.type = t then e :: editsOf t es else editsOf t es := by
  by_cases he : e.type = t <;> simp [editsOf, List.filter_append, he]

theorem editsOf_eq_nil {t : ConditionType} {es : List Edit} (h : ∀ e ∈ es, e.type ≠ t) : editsOf t es = [] := by
  simpa [editsOf] using h

/-- The edits of a type begin with the last one. -/
theorem editsOf_last {e : Edit} {before after : List Edit} (hafter : ∀ e' ∈ after, e'.type ≠ e.type) :
    editsOf e.type (before ++ e :: after) = e :: editsOf e.type before := by
  have hnone : after.filter (fun e' => e'.type == e.type) = [] := by
    simpa using hafter
  simp [editsOf, List.filter_append, hnone]

theorem edited_concat (cs : List Condition) (es : List Edit) (e : Edit) :
    edited cs (es ++ [e]) = (e.apply (edited cs es)).1 := by
  simp [edited, List.foldl_append]

/-- One edit is seen under its type and nowhere else: a set is found there, a removal leaves nothing to find. -/
theorem find?_apply (t : ConditionType) (e : Edit) (cs : List Condition) :
    find? t (e.apply cs).1 =
      if e.type = t then
        match e with
        | .set new => some (((find? t cs).map fun c => refresh c new).getD new)
        | .remove _ => none
      else find? t cs := by
  cases e with
  | set new =>
    by_cases ht : new.type = t
    · subst ht
      simp [Edit.apply, Edit.type, find?_set]
    · simp [Edit.apply, Edit.type, find?_set, ht]
  | remove t' => exact find?_remove t' t cs

/-- What is found of a type after any edits is a function of what was found at first and of the edits of that type. -/
theorem find?_edited (t : ConditionType) (cs : List Condition) (es : List Edit) :
    find? t (edited cs es) = recalled (standing (find? t cs) (editsOf t es)) := by
  induction es using List.reverseRecOn with
  | nil => exact (recalled_initial _).symm
  | append_singleton es e ih =>
    rw [edited_concat, find?_apply, editsOf_concat, ih]
    by_cases he : e.type = t
    · rw [if_pos he, if_pos he]
      cases e with
      | set new =>
        have hsaid : ∀ c ∈ standing (find? t cs) (editsOf t es), c.type = new.type := by
          intro c hc
          exact (type_of_mem_standing type_of_find? type_of_mem_editsOf c hc).trans he.symm
        exact (recalled_set hsaid).symm
      | remove t' => rfl
    · rw [if_neg he, if_neg he]

/-- Edits leave types distinct. -/
theorem nodup_edited {cs : List Condition} (h : (cs.map (·.type)).Nodup) (es : List Edit) :
    ((edited cs es).map (·.type)).Nodup := by
  induction es generalizing cs with
  | nil => exact h
  | cons e es ih => exact ih (e.nodup_apply h)

/-- What is found of a type after some edits of a list. -/
structure Recounted (cs : List Condition) (es : List Edit) (t : ConditionType) : Prop where
  /-- If there was no edit of the type, then what was found at first. -/
  untouched : (∀ e ∈ es, e.type ≠ t) → find? t (edited cs es) = find? t cs
  /-- If the last edit of the type is a removal, then nothing. -/
  removed : ∀ {before after}, es = before ++ .remove t :: after → (∀ e ∈ after, e.type ≠ t) → find? t (edited cs es) = none
  /-- If it is a set, then what was set, since the time of the earliest set in the current run. -/
  told : ∀ {before new after}, es = before ++ .set new :: after → new.type = t → (∀ e ∈ after, e.type ≠ t) →
    ∃ first, (unbroken (standing (find? t cs) (editsOf t es))).getLast? = some first ∧
      find? t (edited cs es) = some { new with lastTransitionTime := first.lastTransitionTime }

/-- What is found of a type recounts its edits. -/
theorem recounted (cs : List Condition) (es : List Edit) (t : ConditionType) : Recounted cs es t where
  untouched hnone := by
    rw [find?_edited, editsOf_eq_nil hnone]
    exact recalled_initial _
  removed {before after} hes hafter := by
    have hlast : editsOf t es = .remove t :: editsOf t before := hes ▸ editsOf_last (e := .remove t) hafter
    rw [find?_edited, hlast]
    rfl
  told {before new after} hes hnew hafter := by
    subst hnew
    have hlast : editsOf new.type es = .set new :: editsOf new.type before := hes ▸ editsOf_last (e := .set new) hafter
    rw [find?_edited, hlast]
    exact recalled_cons new (standing (find? new.type cs) (editsOf new.type before))

/-- Of every list of conditions, an edit says truly whether it changes it, a set that is repeated changes nothing, at whatever time,
and conditions of other types stay as they are and, where one is set, in their places. After any edits, what is found of a type is
what was set last, if it was not removed since, and it has been so since the earliest set of the current run; and types that were
distinct are distinct. -/
theorem edits_recounted :
    (∀ (e : Edit) (cs : List Condition), (e.apply cs).2 = true ↔ (e.apply cs).1 ≠ cs) ∧
      (∀ (new : Condition) (time : Instant) (cs : List Condition),
        set { new with lastTransitionTime := time } (set new cs).1 = ((set new cs).1, false)) ∧
      (∀ (e : Edit) (cs : List Condition), others e.type (e.apply cs).1 = others e.type cs) ∧
      (∀ (new c : Condition) (cs : List Condition) (i : Nat), cs[i]? = some c → c.type ≠ new.type →
        (set new cs).1[i]? = some c) ∧
      ∀ (cs : List Condition) (es : List Edit), (∀ t, Recounted cs es t) ∧
        ((cs.map (·.type)).Nodup → ((edited cs es).map (·.type)).Nodup) := by
  refine ⟨Edit.changed_iff, set_again, Edit.others_apply, fun new c cs i hc hne => ?_, fun cs es => ⟨recounted cs es, fun h => ?_⟩⟩
  · exact getElem?_set_of_ne hc hne
  · exact nodup_edited h es

/-- A success that was there at first and is said twice more, with a wait in between that comes and goes. -/
def restated : List Condition × List Edit :=
  ([⟨.ready, .true, default, "Reconciled", ""⟩], [
    .set ⟨.ready, .true, Instant.plus default 60000, "Reconciled", "once more"⟩,
    .set ⟨.waitingResource, .true, Instant.plus default 90000, "ReconcileFailed", "waiting"⟩,
    .set ⟨.ready, .true, Instant.plus default 120000, "Reconciled", "twice more"⟩,
    .remove .waitingResource])

theorem restated_recounted :
    (restated.1.map (·.type)).Nodup ∧ ((edited restated.1 restated.2).map (·.type)).Nodup ∧
      find? .waitingResource (edited restated.1 restated.2) = none ∧
      ∃ first, (unbroken (standing (find? .ready restated.1) (editsOf .ready restated.2))).getLast? = some first ∧
        first.lastTransitionTime = default ∧
        find? .ready (edited restated.1 restated.2) = some ⟨.ready, .true, first.lastTransitionTime, "Reconciled", "twice more"⟩ := by
  obtain ⟨hrecounted, hnodup⟩ := edits_recounted.2.2.2.2 restated.1 restated.2
  have hset : restated.2 = restated.2.take 2 ++ .set ⟨.ready, .true, Instant.plus default 120000, "Reconciled", "twice more"⟩ ::
      restated.2.drop 3 := rfl
  have hremoved : restated.2 = restated.2.take 3 ++ .remove .waitingResource :: [] := rfl
  obtain ⟨first, hfirst, hfound⟩ := (hrecounted .ready).told hset rfl (by decide)
  have hwait := (hrecounted .waitingResource).removed hremoved (by decide)
  cases hfirst
  exact ⟨by decide, hnodup (by decide), hwait, _, rfl, rfl, hfound⟩

end IngressOperator.Condition
