import IngressOperator.Proofs.Status.Mark

/-!
# Statuses as histories of marks

A status that began without conditions tells of every kind what was marked of it: whether the last mark was one of success, since
when the verdict has been the same, and every failure since the last success, with its first time and its last message. A mark of
one kind is not seen anywhere else.

## Main statements

* `Mark.find?_ready_conditions`, `Mark.find?_failure_conditions`: the conditions of a kind as functions of its history.
* `IngressStatus.conditions_tell_history`: what a status says after any marks.
* `IngressStatus.failures_linger`: which failures a status tells of, and when it tells of one only.
-/

namespace IngressOperator

/-! ### Lists of conditions -/

namespace Condition

/-- Setting a condition adds its type at the end, unless it is there already. -/
theorem map_type_set (new : Condition) (cs : List Condition) :
    (set new cs).1.map (·.type) =
      if new.type ∈ cs.map (·.type) then cs.map (·.type) else cs.map (·.type) ++ [new.type] := by
  induction cs with
  | nil => rfl
  | cons c cs ih =>
    by_cases hc : c.type = new.type
    · simp [set, hc, refresh]
    · have hne : ¬ new.type = c.type := fun he => hc he.symm
      simp only [set, hc, if_false, List.map_cons, ih, List.mem_cons, hne, false_or]
      split <;> rfl

/-- Setting a condition leaves types distinct. -/
theorem nodup_set (new : Condition) {cs : List Condition} (h : (cs.map (·.type)).Nodup) :
    ((set new cs).1.map (·.type)).Nodup := by
  rw [map_type_set]
  split
  · exact h
  · next hnew =>
    refine List.nodup_append.2 ⟨h, by simp, fun t ht t' ht' => ?_⟩
    rw [List.mem_singleton.1 ht']
    exact fun he => hnew (he ▸ ht)

/-- Removing the conditions of a type leaves types distinct. -/
theorem nodup_remove (t : ConditionType) {cs : List Condition} (h : (cs.map (·.type)).Nodup) :
    ((remove t cs).1.map (·.type)).Nodup :=
  h.sublist (List.filter_sublist.map _)

/-- The conditions of a type. -/
def ofType (t : ConditionType) (cs : List Condition) : List Condition := cs.filter fun c => c.type == t

/-- If types are distinct, then the conditions of a type are the first one of it, if there is one. -/
theorem ofType_eq {t : ConditionType} {cs : List Condition} (h : (cs.map (·.type)).Nodup) : ofType t cs = (find? t cs).toList := by
  induction cs with
  | nil => rfl
  | cons c cs ih =>
    rw [List.map_cons, List.nodup_cons] at h
    unfold ofType find? at ih ⊢
    by_cases hc : c.type = t
    · have hrest : cs.filter (fun c => c.type == t) = [] := by
        refine List.filter_eq_nil_iff.2 fun d hd => ?_
        have hne : d.type ≠ t := fun he => h.1 (hc.trans he.symm ▸ List.mem_map_of_mem hd)
        simpa using hne
      rw [List.filter_cons_of_pos (by simpa using hc), List.find?_cons_of_pos (by simpa using hc), hrest]
      rfl
    · rw [List.filter_cons_of_neg (by simpa using hc), List.find?_cons_of_neg (by simpa using hc)]
      exact ih h.2

end Condition

/-! ### Marks -/

/-- A condition that a failed step may leave. -/
abbrev FailureType : Type := { t : ConditionType // t ∈ ConditionType.failures }

/-- What a step came to for the objects of a kind. -/
inductive Verdict where
  | ready
  | failed (failure : FailureType) (message : String)
deriving DecidableEq

/-- A mark of a kind, and the time at which it was made. -/
structure Mark where
  kind : String
  verdict : Verdict
  time : Instant
deriving DecidableEq

namespace Verdict

/-- Whether a step succeeded. -/
def succeeded : Verdict → Bool
  | ready => true
  | failed _ _ => false

/-- The failure of a step. -/
def failure? : Verdict → Option FailureType
  | ready => none
  | failed failure _ => some failure

/-- The message of a failure. -/
def message : Verdict → String
  | ready => ""
  | failed _ message => message

/-- The status of the condition that tells of success. -/
def status (v : Verdict) : ConditionStatus := if v.succeeded then .true else .false

/-- The reason of that condition. -/
def reason : Verdict → String
  | ready => "Reconciled"
  | failed failure _ => failure.val.name

end Verdict

namespace Mark

/-- The conditions of a kind after one more mark. -/
def apply (m : Mark) (cs : List Condition) : List Condition :=
  match m.verdict with
  | .ready => Condition.ready m.time cs
  | .failed failure message => Condition.failed failure message m.time cs

/-- The marks of a kind, the latest first. -/
def past (kind : String) (ms : List Mark) : List Mark := (ms.filter fun m => m.kind == kind).reverse

/-- The latest marks that are all of success, or all of failure; of marks that begin with the latest, the last of these is the
first one of the current verdict. -/
def stretch : List Mark → List Mark
  | [] => []
  | m :: past => m :: past.takeWhile fun m' => m'.verdict.succeeded == m.verdict.succeeded

/-- The marks since the last success, which all are of failure. -/
def unsettled (past : List Mark) : List Mark := past.takeWhile fun m => !m.verdict.succeeded

/-- Of the marks since the last success, those of one failure. -/
def unsettledBy (f : FailureType) (past : List Mark) : List Mark := (unsettled past).filter fun m => m.verdict.failure? == some f

/-- The conditions of a kind that had none, after marks of it, the latest first. -/
def conditions : List Mark → List Condition
  | [] => []
  | m :: past => m.apply (conditions past)

end Mark

namespace IngressStatus

/-- The status with one more mark. -/
def mark (s : IngressStatus) (m : Mark) : IngressStatus :=
  match m.verdict with
  | .ready => s.markReady m.kind m.time
  | .failed failure message => s.markFailed m.kind failure message m.time

/-- The status after some marks, made in this order. -/
def marked (s : IngressStatus) (ms : List Mark) : IngressStatus := ms.foldl mark s

end IngressStatus

/-! ### The conditions of a kind -/

namespace Mark

/-- The condition that tells of success. -/
def readyCondition (m : Mark) (since : Instant) : Condition := ⟨.ready, m.verdict.status, since, m.verdict.reason, ""⟩

/-- The condition that tells of a failure. -/
def failureCondition (f : FailureType) (m : Mark) (since : Instant) : Condition :=
  ⟨f, .true, since, "ReconcileFailed", m.verdict.message⟩

/-- The condition that some marks leave: it says what the latest one says, since the time of the first one. -/
def told (say : Mark → Instant → Condition) (marks : List Mark) : Option Condition :=
  marks.head?.bind fun latest => marks.getLast?.map fun first => say latest first.time

theorem told_cons (say : Mark → Instant → Condition) (m : Mark) (marks : List Mark) :
    told say (m :: marks) = some (say m ((marks.getLast?.map (·.time)).getD m.time)) := by
  simp only [told, List.head?_cons, Option.bind_some, List.getLast?_cons, Option.map_some]
  cases marks.getLast? <;> rfl

/-- The types of conditions are distinct. -/
theorem nodup_conditions (past : List Mark) : ((conditions past).map (·.type)).Nodup := by
  induction past with
  | nil => exact List.nodup_nil
  | cons m past ih =>
    unfold conditions apply
    cases m.verdict with
    | ready =>
      simp only [Condition.ready, ConditionType.failures, List.foldl_cons, List.foldl_nil]
      exact Condition.nodup_remove _ (Condition.nodup_remove _ (Condition.nodup_remove _ (Condition.nodup_set _ ih)))
    | failed failure message => exact Condition.nodup_set _ (Condition.nodup_set _ ih)

theorem failure_ne_ready (f : FailureType) : f.val ≠ .ready := by
  obtain ⟨t, ht⟩ := f
  rintro rfl
  exact absurd ht (by decide)

/-- A mark sets the condition that tells of success. -/
theorem find?_ready_apply (m : Mark) (cs : List Condition) :
    Condition.find? .ready (m.apply cs) = some
      (((Condition.find? .ready cs).map fun c => Condition.refresh c (m.readyCondition m.time)).getD (m.readyCondition m.time)) := by
  obtain ⟨kind, verdict, time⟩ := m
  cases verdict with
  | ready =>
    simp only [apply, Condition.ready, ConditionType.failures, List.foldl_cons, List.foldl_nil, Condition.find?_remove]
    rw [if_neg (by decide), if_neg (by decide), if_neg (by decide), Condition.find?_set, if_pos rfl]
    rfl
  | failed failure message =>
    simp only [apply, Condition.failed]
    rw [Condition.find?_set, if_neg (failure_ne_ready failure), Condition.find?_set, if_pos rfl]
    rfl

/-- The verdict is the same if the status of the condition is. -/
theorem status_eq_iff (v w : Verdict) : v.status = w.status ↔ v.succeeded = w.succeeded := by
  cases v <;> cases w <;> simp [Verdict.status, Verdict.succeeded]

/-- The condition that tells of success says what the latest mark says, since the first one of the same verdict. -/
theorem find?_ready_conditions (past : List Mark) :
    Condition.find? .ready (conditions past) = told readyCondition (stretch past) := by
  induction past with
  | nil => rfl
  | cons m past ih =>
    rw [conditions, find?_ready_apply, ih, stretch, told_cons]
    cases past with
    | nil => rfl
    | cons p past =>
      rw [stretch, told_cons, Option.map_some, Option.getD_some]
      -- the time is kept exactly if the stretch goes on
      by_cases h : p.verdict.succeeded = m.verdict.succeeded
      · have hstatus : p.verdict.status = m.verdict.status := (status_eq_iff _ _).2 h
        have htake : (p :: past).takeWhile (fun m' => m'.verdict.succeeded == m.verdict.succeeded) =
            p :: past.takeWhile fun m' => m'.verdict.succeeded == p.verdict.succeeded := by
          rw [List.takeWhile_cons_of_pos (by simpa using h), h]
        rw [htake, List.getLast?_cons]
        simp only [Condition.refresh, readyCondition, hstatus, if_true]
        cases (past.takeWhile fun m' => m'.verdict.succeeded == p.verdict.succeeded).getLast? <;> rfl
      · have hstatus : ¬ p.verdict.status = m.verdict.status := fun he => h ((status_eq_iff _ _).1 he)
        rw [List.takeWhile_cons_of_neg (by simpa using h)]
        simp only [Condition.refresh, readyCondition, hstatus, if_false]
        rfl

/-- A mark of success settles all failures, and one of failure is added to those that are unsettled. -/
theorem unsettledBy_cons (f : FailureType) (m : Mark) (past : List Mark) :
    unsettledBy f (m :: past) =
      match m.verdict.failure? with
      | none => []
      | some g => if g = f then m :: unsettledBy f past else unsettledBy f past := by
  obtain ⟨kind, verdict, time⟩ := m
  unfold unsettledBy unsettled
  cases verdict with
  | ready => rfl
  | failed g message =>
    rw [List.takeWhile_cons_of_pos rfl]
    by_cases h : g = f
    · rw [List.filter_cons_of_pos (by simpa [Verdict.failure?, Subtype.ext_iff] using h)]
      simp [Verdict.failure?, h]
    · rw [List.filter_cons_of_neg (by simpa [Verdict.failure?, Subtype.ext_iff] using h)]
      simp [Verdict.failure?, h]

/-- A mark of success removes the condition of a failure, and a mark of that failure sets it. -/
theorem find?_failure_apply (f : FailureType) (m : Mark) (cs : List Condition) :
    Condition.find? f (m.apply cs) =
      match m.verdict.failure? with
      | none => none
      | some g =>
        if g = f then
          some (((Condition.find? f cs).map fun c => Condition.refresh c (m.failureCondition f m.time)).getD
            (m.failureCondition f m.time))
        else Condition.find? f cs := by
  obtain ⟨kind, verdict, time⟩ := m
  cases verdict with
  | ready => exact (Condition.showReady_ready time cs).2 f f.2
  | failed g message =>
    have hother : ¬ ConditionType.ready = f.val := fun he => failure_ne_ready f he.symm
    have hready : Condition.find? f (Condition.set ⟨.ready, .false, time, g.val.name, ""⟩ cs).1 = Condition.find? f cs := by
      rw [Condition.find?_set, if_neg hother]
    by_cases h : g = f
    · subst h
      change Condition.find? g (Condition.set ⟨g, .true, time, "ReconcileFailed", message⟩ _).1 = _
      rw [Condition.find?_set, if_pos rfl, hready]
      simp only [Verdict.failure?, if_true]
      rfl
    · have hval : ¬ g.val = f.val := fun he => h (Subtype.ext he)
      change Condition.find? f (Condition.set ⟨g, .true, time, "ReconcileFailed", message⟩ _).1 = _
      rw [Condition.find?_set, if_neg hval, hready]
      simp only [Verdict.failure?, h, if_false]

/-- A failure is told of as long as it is unsettled, with the message of its latest mark since the time of its first one. -/
theorem find?_failure_conditions (f : FailureType) (past : List Mark) :
    Condition.find? f (conditions past) = told (failureCondition f) (unsettledBy f past) := by
  induction past with
  | nil => rfl
  | cons m past ih =>
    rw [conditions, find?_failure_apply, unsettledBy_cons, ih]
    cases m.verdict.failure? with
    | none => rfl
    | some g =>
      by_cases h : g = f
      · simp only [h, if_true, told_cons]
        -- the condition keeps its time, since it holds already
        cases unsettledBy f past with
        | nil => rfl
        | cons p marks =>
          rw [told_cons, List.getLast?_cons]
          cases marks.getLast? <;> rfl
      · simp only [h, if_false]

/-- Marks that are told of are told of by what the latest one says. -/
theorem told_eq_some (say : Mark → Instant → Condition) {marks : List Mark} {latest first : Mark}
    (hl : marks.head? = some latest) (hf : marks.getLast? = some first) : told say marks = some (say latest first.time) := by
  simp [told, hl, hf]

/-- A failure is unsettled exactly if it was marked since the last success. -/
theorem unsettledBy_ne_nil_iff (f : FailureType) (past : List Mark) :
    unsettledBy f past ≠ [] ↔ ∃ m ∈ unsettled past, m.verdict.failure? = some f := by
  rw [unsettledBy, Ne, List.filter_eq_nil_iff]
  simp

/-- A mark since the last success is one of failure. -/
theorem failure_of_mem_unsettled {m : Mark} {past : List Mark} (h : m ∈ unsettled past) :
    ∃ f : FailureType, m.verdict.failure? = some f := by
  have hs := List.all_eq_true.1 List.all_takeWhile m h
  obtain ⟨kind, verdict, time⟩ := m
  cases verdict with
  | ready => cases hs
  | failed f message => exact ⟨f, rfl⟩

/-- A failure is told to hold exactly if it was marked since the last success. -/
theorem isTrue_failure_iff (f : FailureType) (past : List Mark) :
    Condition.isTrue f (conditions past) = true ↔ ∃ m ∈ unsettled past, m.verdict.failure? = some f := by
  rw [← unsettledBy_ne_nil_iff, Condition.isTrue, find?_failure_conditions]
  cases unsettledBy f past with
  | nil => simp [told]
  | cons m marks => simp [told_cons, failureCondition]

/-- The condition that tells of success after some marks. -/
theorem exists_ready_conditions (last : Mark) (earlier : List Mark) :
    ∃ first, (stretch (last :: earlier)).getLast? = some first ∧
      Condition.find? .ready (conditions (last :: earlier)) = some (last.readyCondition first.time) := by
  rw [find?_ready_conditions]
  cases hfirst : (stretch (last :: earlier)).getLast? with
  | none => cases List.getLast?_eq_none_iff.1 hfirst
  | some first => exact ⟨first, rfl, told_eq_some readyCondition rfl hfirst⟩

/-- If the condition that tells of success holds, then no failure is unsettled. -/
theorem unsettled_of_ready {past : List Mark} (h : Condition.isTrue .ready (conditions past) = true) : unsettled past = [] := by
  cases past with
  | nil => rfl
  | cons last earlier =>
    obtain ⟨first, -, hready⟩ := exists_ready_conditions last earlier
    have hs : last.verdict.succeeded = true := by
      simpa [Condition.isTrue, hready, readyCondition, Verdict.status] using h
    simp [unsettled, hs]

/-- If it does not hold, then it names the failure of the last mark, which is unsettled. -/
theorem failure_of_not_ready {past : List Mark} {c : Condition} (hc : Condition.find? .ready (conditions past) = some c)
    (h : c.status = .false) :
    ∃ (last : Mark) (f : FailureType), past.head? = some last ∧ last.verdict.failure? = some f ∧ c.reason = f.val.name ∧
      last ∈ unsettled past := by
  cases past with
  | nil => cases hc
  | cons last earlier =>
    obtain ⟨first, -, hready⟩ := exists_ready_conditions last earlier
    cases hready.symm.trans hc
    obtain ⟨kind, verdict, time⟩ := last
    cases verdict with
    | ready => cases h
    | failed f message => exact ⟨_, f, rfl, rfl, rfl, by simp [unsettled, Verdict.succeeded]⟩

/-- Whether conditions tell the history of a kind, of which these are the marks, the latest first. -/
structure Told (past : List Mark) (cs : List Condition) : Prop where
  distinct : (cs.map (·.type)).Nodup
  /-- There is one condition that tells of success: it has the verdict of the last mark, since the first one of that verdict. -/
  ready : ∃ last first, past.head? = some last ∧ (stretch past).getLast? = some first ∧
    Condition.ofType .ready cs = [⟨.ready, last.verdict.status, first.time, last.verdict.reason, ""⟩]
  present : ∀ f : FailureType, Condition.ofType f cs ≠ [] ↔ ∃ m ∈ unsettled past, m.verdict.failure? = some f
  /-- A failure is told of with the message of its latest mark since the last success, and with the time of the first one. -/
  failure : ∀ (f : FailureType) (latest first : Mark),
    (unsettledBy f past).head? = some latest → (unsettledBy f past).getLast? = some first →
      Condition.ofType f cs = [⟨f, .true, first.time, "ReconcileFailed", latest.verdict.message⟩]
  /-- Success excludes all failures. -/
  settled : Condition.isTrue .ready cs = true → ∀ f : FailureType, Condition.ofType f cs = []
  /-- Where there is no success, the reason names a failure that holds. -/
  named : ∀ c, Condition.find? .ready cs = some c → c.status = .false →
    ∃ f : FailureType, c.reason = f.val.name ∧ Condition.isTrue f cs = true

/-- The conditions of a kind tell its history. -/
theorem told_conditions (last : Mark) (earlier : List Mark) : Told (last :: earlier) (conditions (last :: earlier)) := by
  have hdistinct := nodup_conditions (last :: earlier)
  obtain ⟨first, hfirst, hready⟩ := exists_ready_conditions last earlier
  have hfailure (f : FailureType) : Condition.ofType f (conditions (last :: earlier)) =
      (told (failureCondition f) (unsettledBy f (last :: earlier))).toList := by
    rw [Condition.ofType_eq hdistinct, find?_failure_conditions]
  refine ⟨hdistinct, ⟨last, first, rfl, hfirst, ?_⟩, fun f => ?_, fun f latest first hl hf => ?_, fun htrue f => ?_, fun c hc hs => ?_⟩
  · rw [Condition.ofType_eq hdistinct, hready]
    rfl
  · rw [← unsettledBy_ne_nil_iff, hfailure]
    cases unsettledBy f (last :: earlier) with
    | nil => simp [told]
    | cons m marks => simp [told_cons]
  · rw [hfailure, told_eq_some (failureCondition f) hl hf]
    rfl
  · rw [hfailure, unsettledBy, unsettled_of_ready htrue]
    rfl
  · obtain ⟨last', f, -, hf, hreason, hmem⟩ := failure_of_not_ready hc hs
    exact ⟨f, hreason, (isTrue_failure_iff f _).2 ⟨last', hmem, hf⟩⟩

end Mark

/-! ### Statuses -/

namespace IngressStatus

open Mark

/-- A mark is seen under its kind and nowhere else. -/
theorem get?_mark (s : IngressStatus) (m : Mark) (kind : String) :
    (s.mark m).conditions.get? kind =
      if kind = m.kind then some (m.apply (s.conditionsOf m.kind)) else s.conditions.get? kind := by
  obtain ⟨kind', verdict, time⟩ := m
  cases verdict with
  | ready => exact get?_markReady s kind' time kind
  | failed failure message => exact get?_markFailed s kind' time failure message kind

/-- The conditions of a kind after some marks of a status that had none are those of the marks of that kind. -/
theorem get?_marked {s : IngressStatus} (hs : s.conditions = ∅) (ms : List Mark) (kind : String) :
    (s.marked ms).conditions.get? kind =
      if past kind ms = [] then none else some (Mark.conditions (past kind ms)) := by
  have hmarked : s.marked ms = ms.reverse.foldr (fun m s => s.mark m) s := List.foldr_reverse.symm
  rw [hmarked, past, ← List.filter_reverse]
  generalize ms.reverse = late
  induction late with
  | nil => simp [hs]
  | cons m late ih =>
    rw [List.foldr_cons, get?_mark]
    by_cases hk : m.kind = kind
    · subst hk
      rw [if_pos rfl, List.filter_cons_of_pos (by simp), if_neg nofun, conditionsOf, ih, Mark.conditions]
      split
      · next hnil => rw [hnil]; rfl
      · rfl
    · have hne : ¬ kind = m.kind := fun he => hk he.symm
      rw [if_neg hne, List.filter_cons_of_neg (by simpa using hk)]
      exact ih

theorem conditionsOf_marked {s : IngressStatus} (hs : s.conditions = ∅) (ms : List Mark) (kind : String) :
    (s.marked ms).conditionsOf kind = Mark.conditions (past kind ms) := by
  rw [conditionsOf, get?_marked hs]
  split
  · next hnil => rw [hnil]; rfl
  · rfl

/-- Marks are those of conditions only. -/
theorem marked_eq (s : IngressStatus) (ms : List Mark) : s.marked ms = { s with conditions := (s.marked ms).conditions } := by
  induction ms generalizing s with
  | nil => rfl
  | cons m ms ih =>
    obtain ⟨kind, verdict, time⟩ := m
    cases verdict with
    | ready => exact ih (s.markReady kind time)
    | failed failure message => exact ih (s.markFailed kind failure message time)

/-- After any marks of a status that had no conditions, the conditions of a kind tell the history of that kind: none if it was never
marked, and else whether the last mark was one of success, since the first mark of the same verdict, and every failure since the
last success, with its latest message and its first time. A mark of one kind changes nothing else. -/
theorem conditions_tell_history {s : IngressStatus} (hs : s.conditions = ∅) (ms : List Mark) :
    (∀ kind, past kind ms = [] → (s.marked ms).conditions.get? kind = none) ∧
      (∀ kind, past kind ms ≠ [] → ∃ cs, (s.marked ms).conditions.get? kind = some cs ∧ Told (past kind ms) cs) ∧
      (∀ m kind, kind ≠ m.kind → ((s.marked ms).mark m).conditions.get? kind = (s.marked ms).conditions.get? kind) ∧
      (s.marked ms).host = s.host ∧ (s.marked ms).podState = s.podState ∧ (s.marked ms).operandState = s.operandState := by
  refine ⟨fun kind hnil => ?_, fun kind hne => ⟨Mark.conditions (past kind ms), ?_, ?_⟩, fun m kind hne => ?_, ?_⟩
  · rw [get?_marked hs, if_pos hnil]
  · rw [get?_marked hs, if_neg hne]
  · obtain ⟨last, earlier, hpast⟩ := List.exists_cons_of_ne_nil hne
    rw [hpast]
    exact told_conditions last earlier
  · rw [get?_mark, if_neg hne]
  · rw [marked_eq]
    exact ⟨rfl, rfl, rfl⟩

/-- A route whose secret is waited for twice, and that is refused when the secret is there; meanwhile a service is kept. -/
def setbacks : List Mark := [
  ⟨"Route", .failed ⟨.waitingResource, by decide⟩ "waiting", default⟩,
  ⟨"Route", .failed ⟨.waitingResource, by decide⟩ "still waiting", Instant.plus default 60000⟩,
  ⟨"Service", .ready, Instant.plus default 90000⟩,
  ⟨"Route", .failed ⟨.resourceFailedOnCreation, by decide⟩ "refused", Instant.plus default 120000⟩]

theorem setbacks_tell_history :
    ({} : IngressStatus).conditions = ∅ ∧ past "Certificate" setbacks = [] ∧ past "Route" setbacks ≠ [] ∧
      (({} : IngressStatus).marked setbacks).conditions.get? "Certificate" = none ∧
      ∃ cs, (({} : IngressStatus).marked setbacks).conditions.get? "Route" = some cs ∧ Told (past "Route" setbacks) cs := by
  have h := conditions_tell_history (s := {}) rfl setbacks
  have hroute : past "Route" setbacks ≠ [] := by decide
  exact ⟨rfl, by decide, hroute, h.1 "Certificate" (by decide), h.2.1 "Route" hroute⟩

/-- After any marks of a status that had no conditions, the failures that are told to hold for a kind are those marked since its last
success. So at most one is told to hold exactly if these marks are all of one failure; none is if there is success; and else the one
that is named holds, which is that of the last mark. -/
theorem failures_linger {s : IngressStatus} (hs : s.conditions = ∅) (ms : List Mark) (kind : String) :
    let cs := (s.marked ms).conditionsOf kind
    let recent := unsettled (past kind ms)
    (∀ f : FailureType, Condition.isTrue f cs = true ↔ ∃ m ∈ recent, m.verdict.failure? = some f) ∧
      ((∀ f g : FailureType, Condition.isTrue f cs = true → Condition.isTrue g cs = true → f = g) ↔
        ∀ m ∈ recent, ∀ m' ∈ recent, m.verdict.failure? = m'.verdict.failure?) ∧
      (Condition.isTrue .ready cs = true → ∀ f : FailureType, Condition.isTrue f cs = false) ∧
      ∀ c, Condition.find? .ready cs = some c → c.status = .false →
        ∃ (last : Mark) (f : FailureType), (past kind ms).head? = some last ∧ last.verdict.failure? = some f ∧
          c.reason = f.val.name ∧ Condition.isTrue f cs = true := by
  intro cs recent
  have hcs : cs = Mark.conditions (past kind ms) := conditionsOf_marked hs ms kind
  have hholds (f : FailureType) : Condition.isTrue f cs = true ↔ ∃ m ∈ recent, m.verdict.failure? = some f := by
    rw [hcs]
    exact isTrue_failure_iff f _
  refine ⟨hholds, ⟨fun hone m hm m' hm' => ?_, fun hsame f g hf hg => ?_⟩, fun hready f => ?_, fun c hc hfalse => ?_⟩
  · obtain ⟨f, hf⟩ := failure_of_mem_unsettled hm
    obtain ⟨g, hg⟩ := failure_of_mem_unsettled hm'
    rw [hf, hg, hone f g ((hholds f).2 ⟨m, hm, hf⟩) ((hholds g).2 ⟨m', hm', hg⟩)]
  · obtain ⟨m, hm, hmf⟩ := (hholds f).1 hf
    obtain ⟨m', hm', hmg⟩ := (hholds g).1 hg
    exact Option.some.inj (hmf.symm.trans ((hsame m hm m' hm').trans hmg))
  · rw [Bool.eq_false_iff]
    intro hf
    obtain ⟨m, hm, -⟩ := (hholds f).1 hf
    rw [hcs] at hready
    have hnone := unsettled_of_ready hready
    exact absurd hm (by simp [recent, hnone])
  · rw [hcs] at hc
    obtain ⟨last, f, hlast, hf, hreason, hmem⟩ := failure_of_not_ready hc hfalse
    exact ⟨last, f, hlast, hf, hreason, (hholds f).2 ⟨last, hmem, hf⟩⟩

theorem setbacks_linger :
    ({} : IngressStatus).conditions = ∅ ∧
      (Condition.isTrue .waitingResource ((({} : IngressStatus).marked setbacks).conditionsOf "Route") = true ↔
        ∃ m ∈ unsettled (past "Route" setbacks), m.verdict.failure? = some ⟨.waitingResource, by decide⟩) :=
  ⟨rfl, (failures_linger (s := {}) rfl setbacks "Route").1 ⟨.waitingResource, by decide⟩⟩

/-- A route that was refused is still said to be waited for, since it has not been kept in between: two failures are told to hold, of
which the reason names only one. -/
theorem waiting_lingers :
    let cs := (({} : IngressStatus).marked setbacks).conditionsOf "Route"
    Condition.isTrue .waitingResource cs = true ∧ Condition.isTrue .resourceFailedOnCreation cs = true ∧
      Condition.find? .ready cs = some ⟨.ready, .false, default, "ResourceFailedOnCreation", ""⟩ := by
  decide

end IngressStatus

end IngressOperator
