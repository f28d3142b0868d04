import Mathlib.Algebra.Order.Floor.Div
import IngressOperator.Rehearsal

/-!
# How long a wait takes

A wait asks at once and after every interval. With a clock that moves by what is slept and by nothing else, the number of questions
and the time are known from the replies: the first thing found ends the wait, and without one it ends with the first question that
is not before the deadline. The bound on its rounds never ends it.

## Main statements

* `Instant.exact_of_lt`: outside leap seconds a clock that moves by intervals shows the time that passed.
* `Rehearsal.waitRounds_reached`: a wait goes on as long as nothing is found and the deadline lies ahead.
* `Rehearsal.run_lasts`: the answer of a wait, its questions and its time.
-/

namespace IngressOperator

namespace Instant

/-! ### Time that passes interval by interval -/

/-- A clock outside leap seconds stays outside of them. -/
theorem nanos_plus_lt {t : Instant} (h : t.nanos < perSecond) (millis : Nat) : (t.plus millis).nanos < perSecond := by
  have hleap : ¬ (perSecond ≤ t.nanos ∧ millis / 1000 = 0 ∧ t.nanos + millis % 1000 * 1000000 < 2 * perSecond) := by omega
  simp only [plus, hleap, dite_false]
  exact Nat.mod_lt _ (by decide)

/-- Outside leap seconds times that pass one after the other add up. -/
theorem plus_plus {t : Instant} (h : t.nanos < perSecond) (a b : Nat) : (t.plus a).plus b = t.plus (a + b) := by
  have hleap : ∀ {u : Instant} {c : Nat}, u.nanos < perSecond →
      ¬ (perSecond ≤ u.nanos ∧ c / 1000 = 0 ∧ u.nanos + c % 1000 * 1000000 < 2 * perSecond) := by
    intro u c hu
    omega
  have hfirst := nanos_plus_lt h a
  simp only [plus, hleap h, dite_false] at hfirst ⊢
  rw [dif_neg (by omega), Instant.mk.injEq]
  simp only [perSecond] at *
  constructor
  · omega
  · omega

/-- What a clock shows after the given number of intervals. -/
def tick (start : Instant) (interval : Nat) : Nat → Instant
  | 0 => start
  | n + 1 => (start.tick interval n).plus interval

/-- Whether a clock that moves by whole intervals from an instant shows exactly the time that passed. -/
def Exact (start : Instant) (interval : Nat) : Prop :=
  ∀ n, (start.tick interval n).since start = ((n * interval * 1000000 : Nat) : Int)

/-- Outside leap seconds a clock that moves by intervals moved by all of them. -/
theorem tick_eq_plus {start : Instant} (h : start.nanos < perSecond) (interval n : Nat) :
    start.tick interval n = start.plus (n * interval) := by
  induction n with
  | zero =>
    obtain ⟨seconds, nanos, hnanos⟩ := start
    simp only [tick, plus, Nat.zero_mul, Nat.zero_div, Nat.zero_mod] at h ⊢
    rw [dif_neg (by omega), Instant.mk.injEq]
    simp only [perSecond] at *
    omega
  | succ n ih => rw [tick, ih, plus_plus h, Nat.succ_mul]

/-- Outside leap seconds a clock that moves by intervals shows the time that passed. -/
theorem exact_of_lt {start : Instant} (h : start.nanos < perSecond) (interval : Nat) : start.Exact interval := by
  intro n
  rw [tick_eq_plus h, since_plus h]
  push_cast
  rfl

end Instant

/-! ### The deadline in intervals -/

namespace WaitPolicy

/-- How many intervals pass until the deadline has passed too: the timeout divided by the interval, rounded up. -/
def intervals (p : WaitPolicy) : Nat := p.timeout ⌈/⌉ p.interval

theorem intervals_le_iff {p : WaitPolicy} (hinterval : 0 < p.interval) {n : Nat} :
    p.intervals ≤ n ↔ p.timeout ≤ n * p.interval := by
  rw [intervals, ceilDiv_le_iff_le_mul hinterval, Nat.mul_comm]

/-- So many intervals reach the deadline. -/
theorem timeout_le_intervals (p : WaitPolicy) (hinterval : 0 < p.interval) : p.timeout ≤ p.intervals * p.interval :=
  (intervals_le_iff hinterval).mp le_rfl

/-- So many intervals pass the deadline by less than an interval. -/
theorem intervals_lt (p : WaitPolicy) (hinterval : 0 < p.interval) : p.intervals * p.interval < p.timeout + p.interval := by
  have hle := Nat.div_mul_le_self (p.timeout + p.interval - 1) p.interval
  rw [← Nat.ceilDiv_eq_add_pred_div] at hle
  have hintervals : p.intervals * p.interval ≤ p.timeout + p.interval - 1 := hle
  omega

/-- The rounds of a wait are enough to ask until the deadline has passed, and once more. -/
theorem intervals_lt_rounds (p : WaitPolicy) (hinterval : 0 < p.interval) : p.intervals < p.rounds := by
  have hceil : (p.timeout + p.interval - 1) / p.interval ≤ (p.timeout + p.interval) / p.interval :=
    Nat.div_le_div_right (by omega)
  have hmore : p.timeout / p.interval ≤ (p.timeout + 1000) / p.interval := Nat.div_le_div_right (by omega)
  rw [Nat.add_div_right _ hinterval] at hceil
  rw [intervals, Nat.ceilDiv_eq_add_pred_div, rounds, Nat.max_eq_left hinterval]
  omega

end WaitPolicy

/-! ### The rounds of a rehearsed wait -/

namespace Rehearsal

variable {α : Type}

/-- Whether a thing is the first that the replies hold, at a place counted from 0. -/
def First (replies : List (Reply α)) (k : Nat) (a : α) : Prop :=
  replies[k]? = some (.found a) ∧ ∀ j < k, ∀ b, replies[j]? ≠ some (.found b)

/-- The reply that says no more than that there is nothing yet, instead of a failure. -/
def hushed : Reply α → Reply α
  | .failing _ => .notYet
  | reply => reply

/-- A rehearsal that went on after the given number of questions. -/
def reached (replies : List (Reply α)) (start : Instant) (interval n : Nat) : Rehearsal α where
  replies := replies.drop n
  now := start.tick interval n
  asked := ((List.range n).map (start.tick interval)).reverse

/-- What a rehearsal is right after a question. -/
def onceAsked (r : Rehearsal α) : Rehearsal α := { r with replies := r.replies.tail, asked := r.now :: r.asked }

variable {p : WaitPolicy} {what : String} {start : Instant} {replies : List (Reply α)} {n k : Nat} {a : α}

theorem reached_head? (interval n : Nat) : (reached replies start interval n).replies.head? = replies[n]? := by
  rw [reached, List.head?_drop]

theorem reached_succ (interval n : Nat) :
    { (reached replies start interval n).onceAsked with now := (reached replies start interval n).now.plus interval } =
      reached replies start interval (n + 1) := by
  simp only [reached, onceAsked, List.tail_drop, List.range_succ, List.map_append, List.map_cons, List.map_nil,
    List.reverse_append, List.reverse_cons, List.reverse_nil, List.nil_append, List.cons_append, Instant.tick]

theorem reached_asked (interval n : Nat) :
    (reached replies start interval n).onceAsked.asked.reverse = (List.range (n + 1)).map (start.tick interval) := by
  simp only [reached, onceAsked, List.reverse_cons, List.reverse_reverse, List.range_succ, List.map_append, List.map_cons,
    List.map_nil]

theorem question_run (r : Rehearsal α) : question.run r = (answer r.replies.head?, r.onceAsked) := rfl

/-- After a question without an answer the clock decides. -/
theorem waitOn_run (p : WaitPolicy) (what : String) (start : Instant) (rest : StateM (Rehearsal α) (Except Failure α))
    (r : Rehearsal α) :
    (waitOn clock p what start rest).run r =
      if p.timeout * 1000000 ≤ r.now.since start then (.error (.timeout what p.timeout), r)
      else rest.run { r with now := r.now.plus p.interval } := by
  -- reading the clock leaves the rehearsal as it is
  change (if p.timeout * 1000000 ≤ r.now.since start then pure (.error (.timeout what p.timeout))
    else do
      clock.sleep p.interval
      rest : StateM (Rehearsal α) (Except Failure α)).run r = _
  split
  · rfl
  · rfl

/-- A round that finds something ends the wait. -/
theorem waitRounds_answered (p : WaitPolicy) (what : String) (start : Instant) (rounds : Nat) {r : Rehearsal α}
    (hfound : r.replies.head? = some (.found a)) :
    (waitRounds clock p what question start (rounds + 1)).run r = (.ok a, r.onceAsked) := by
  rw [waitRounds_succ, StateT.run_bind, question_run, hfound]
  rfl

/-- A round that finds nothing gives up once the deadline has passed, or sleeps and goes on. -/
theorem waitRounds_unfound (p : WaitPolicy) (what : String) (start : Instant) (rounds : Nat) {r : Rehearsal α}
    (hnone : ∀ b, r.replies.head? ≠ some (.found b)) :
    (waitRounds clock p what question start (rounds + 1)).run r =
      if p.timeout * 1000000 ≤ r.now.since start then (.error (.timeout what p.timeout), r.onceAsked)
      else (waitRounds clock p what question start rounds).run { r.onceAsked with now := r.now.plus p.interval } := by
  have hdecided := waitOn_run p what start (waitRounds clock p what question start rounds) r.onceAsked
  rw [waitRounds_succ, StateT.run_bind, question_run]
  rcases hreply : r.replies.head? with - | ⟨a | - | cause⟩
  · exact hdecided
  · exact absurd hreply (hnone a)
  · exact hdecided
  · exact hdecided

/-- A wait goes on as long as nothing is found and the deadline lies ahead. -/
theorem waitRounds_reached (rounds : Nat) (hnone : ∀ j < n, ∀ b, replies[j]? ≠ some (.found b))
    (hearly : ∀ j < n, ¬ p.timeout * 1000000 ≤ (start.tick p.interval j).since start) :
    (waitRounds clock p what question start (rounds + n)).run (reached replies start p.interval 0) =
      (waitRounds clock p what question start rounds).run (reached replies start p.interval n) := by
  induction n generalizing rounds with
  | zero => rfl
  | succ n ih =>
    have hbefore := ih (rounds + 1) (fun j hj => hnone j (by omega)) fun j hj => hearly j (by omega)
    have hlast : ∀ b, (reached replies start p.interval n).replies.head? ≠ some (.found b) := by
      rw [reached_head?]
      exact hnone n (by omega)
    rw [show rounds + (n + 1) = rounds + 1 + n by omega, hbefore, waitRounds_unfound p what start rounds hlast, reached_succ]
    exact if_neg (hearly n (by omega))

/-- What a rehearsed wait came to: its answer, that it asked at once and after each of the given number of intervals, and that it
ended with the last question, when just these intervals had passed. -/
structure Lasts (p : WaitPolicy) (start : Instant) (intervals : Nat) (answer : Except Failure α)
    (run : Except Failure α × Rehearsal α) : Prop where
  answer_eq : run.1 = answer
  asked_eq : run.2.asked.reverse = (List.range (intervals + 1)).map (start.tick p.interval)
  elapsed : run.2.now.since start = ((intervals * p.interval * 1000000 : Nat) : Int)
  lastly : run.2.asked.head? = some run.2.now

theorem lasts_onceAsked (hexact : start.Exact p.interval) (answer : Except Failure α) :
    Lasts p start n answer (answer, (reached replies start p.interval n).onceAsked) where
  answer_eq := rfl
  asked_eq := reached_asked p.interval n
  elapsed := hexact n
  lastly := rfl

/-- The deadline has passed from the first multiple of the interval on that is not before it. -/
theorem late_iff (hinterval : 0 < p.interval) (hexact : start.Exact p.interval) (n : Nat) :
    p.timeout * 1000000 ≤ (start.tick p.interval n).since start ↔ p.intervals ≤ n := by
  rw [hexact n, WaitPolicy.intervals_le_iff hinterval]
  omega

/-- A wait of enough rounds goes on to any question before which nothing is found and that is not after the first one past the
deadline. -/
theorem waitRounds_goes_on (what : String) (hinterval : 0 < p.interval) (hexact : start.Exact p.interval)
    (hnone : ∀ j < n, ∀ b, replies[j]? ≠ some (.found b)) (hn : n ≤ p.intervals) {rounds : Nat}
    (hrounds : p.intervals < rounds) :
    ∃ more, (waitRounds clock p what question start rounds).run { replies := replies, now := start } =
      (waitRounds clock p what question start (more + 1)).run (reached replies start p.interval n) := by
  obtain ⟨more, rfl⟩ : ∃ more, rounds = more + 1 + n := ⟨rounds - 1 - n, by omega⟩
  refine ⟨more, waitRounds_reached (more + 1) hnone fun j hj hlate => ?_⟩
  rw [late_iff hinterval hexact] at hlate
  omega

/-- The first thing found ends a wait of enough rounds, unless it comes after the first question past the deadline. -/
theorem waitRounds_found (hinterval : 0 < p.interval) (hexact : start.Exact p.interval) (hfirst : First replies k a)
    (hk : k ≤ p.intervals) {rounds : Nat} (hrounds : p.intervals < rounds) :
    (waitRounds clock p what question start rounds).run { replies := replies, now := start } =
      (.ok a, (reached replies start p.interval k).onceAsked) := by
  obtain ⟨more, hmore⟩ := waitRounds_goes_on what hinterval hexact hfirst.2 hk hrounds
  rw [hmore, waitRounds_answered p what start more ((reached_head? p.interval k).trans hfirst.1)]

/-- Without anything found the first question past the deadline ends a wait of enough rounds. -/
theorem waitRounds_late (hinterval : 0 < p.interval) (hexact : start.Exact p.interval)
    (hnone : ∀ j ≤ p.intervals, ∀ b, replies[j]? ≠ some (.found b)) {rounds : Nat}
    (hrounds : p.intervals < rounds) :
    (waitRounds clock p what question start rounds).run { replies := replies, now := start } =
      (.error (.timeout what p.timeout), (reached replies start p.interval p.intervals).onceAsked) := by
  obtain ⟨more, hmore⟩ := waitRounds_goes_on what hinterval hexact (fun j hj => hnone j (by omega)) le_rfl hrounds
  have hlast : ∀ b, (reached replies start p.interval p.intervals).replies.head? ≠ some (.found b) := by
    rw [reached_head?]
    exact hnone p.intervals le_rfl
  rw [hmore, waitRounds_unfound p what start more hlast]
  exact if_pos ((late_iff hinterval hexact p.intervals).mpr le_rfl)

/-! ### Waits as a whole -/

theorem run_eq (hmeasured : p.timeout ≤ WaitPolicy.longest) (what : String) (replies : List (Reply α)) (start : Instant) :
    run p what replies start =
      (waitRounds clock p what question start p.rounds).run { replies := replies, now := start } := by
  rw [run, waitFor, if_neg (by omega)]
  rfl

/-- Where nothing is found first, nothing is found. -/
theorem none_of_no_first (hno : ¬ ∃ k ≤ n, ∃ a, First replies k a) : ∀ j ≤ n, ∀ b, replies[j]? ≠ some (.found b) := by
  intro j
  induction j using Nat.strong_induction_on with
  | _ j ih =>
    intro hj b hb
    exact hno ⟨j, hj, b, hb, fun i hi => ih i hi (by omega)⟩

theorem hushed_found_iff {i : Nat} {b : α} : (replies.map hushed)[i]? = some (.found b) ↔ replies[i]? = some (.found b) := by
  rw [List.getElem?_map]
  rcases replies[i]? with - | ⟨a | - | cause⟩ <;> simp [hushed]

/-- Without its failures a list of replies finds the same first thing. -/
theorem first_hushed_iff : First (replies.map hushed) k a ↔ First replies k a := by
  simp only [First, ne_eq, hushed_found_iff]

/-- A wait that is not endless ends with the first thing found before the deadline or with the first question past it. -/
theorem run_lasts_of_le (hmeasured : p.timeout ≤ WaitPolicy.longest) (hinterval : 0 < p.interval)
    (hexact : start.Exact p.interval) (what : String) (replies : List (Reply α)) :
    (∀ k a, First replies k a → k ≤ p.intervals → Lasts p start k (.ok a) (run p what replies start)) ∧
      ((¬ ∃ k ≤ p.intervals, ∃ a, First replies k a) →
        Lasts p start (p.intervals) (.error (.timeout what p.timeout)) (run p what replies start)) := by
  have hrounds := p.intervals_lt_rounds hinterval
  rw [run_eq hmeasured]
  constructor
  · intro k a hfirst hk
    rw [waitRounds_found hinterval hexact hfirst hk hrounds]
    exact lasts_onceAsked hexact (.ok a)
  · intro hno
    rw [waitRounds_late hinterval hexact (none_of_no_first hno) hrounds]
    exact lasts_onceAsked hexact (.error (.timeout what p.timeout))

/-- However many rounds a wait has, if they are enough it comes to the same. -/
theorem waitRounds_eq_run (hmeasured : p.timeout ≤ WaitPolicy.longest) (hinterval : 0 < p.interval)
    (hexact : start.Exact p.interval) {rounds : Nat} (hrounds : p.intervals < rounds) :
    (waitRounds clock p what question start rounds).run { replies := replies, now := start } = run p what replies start := by
  rw [run_eq hmeasured]
  by_cases hfirst : ∃ k ≤ p.intervals, ∃ a, First replies k a
  · obtain ⟨k, hk, a, hfirst⟩ := hfirst
    rw [waitRounds_found hinterval hexact hfirst hk hrounds,
      waitRounds_found hinterval hexact hfirst hk (p.intervals_lt_rounds hinterval)]
  · have hnone := none_of_no_first hfirst
    rw [waitRounds_late hinterval hexact hnone hrounds,
      waitRounds_late hinterval hexact hnone (p.intervals_lt_rounds hinterval)]

/-- Two waits that lasted equally long and say the same are one wait, apart from what they were yet to hear. -/
theorem Lasts.same {answer : Except Failure α} {x y : Except Failure α × Rehearsal α} (hx : Lasts p start n answer x)
    (hy : Lasts p start n answer y) : x.1 = y.1 ∧ x.2.asked = y.2.asked := by
  refine ⟨hx.answer_eq.trans hy.answer_eq.symm, ?_⟩
  exact List.reverse_injective (hx.asked_eq.trans hy.asked_eq.symm)

/-- A failing question counts as one without an answer. -/
theorem run_hushed (hmeasured : p.timeout ≤ WaitPolicy.longest) (hinterval : 0 < p.interval) (hexact : start.Exact p.interval)
    (what : String) (replies : List (Reply α)) :
    (run p what (replies.map hushed) start).1 = (run p what replies start).1 ∧
      (run p what (replies.map hushed) start).2.asked = (run p what replies start).2.asked := by
  obtain ⟨hfound, hlate⟩ := run_lasts_of_le hmeasured hinterval hexact what replies
  obtain ⟨hfound', hlate'⟩ := run_lasts_of_le hmeasured hinterval hexact what (replies.map hushed)
  by_cases hfirst : ∃ k ≤ p.intervals, ∃ a, First replies k a
  · obtain ⟨k, hk, a, hfirst⟩ := hfirst
    exact (hfound' k a (first_hushed_iff.mpr hfirst) hk).same (hfound k a hfirst hk)
  · have hfirst' : ¬ ∃ k ≤ p.intervals, ∃ a, First (replies.map hushed) k a := by
      simpa only [first_hushed_iff] using hfirst
    exact (hlate' hfirst').same (hlate hfirst)

/-- The answer of a wait, its questions and its time: a wait longer than a clock measures is refused before any question. Any other
one ends with the first thing found, unless it comes after the first question that is not before the deadline, and with that
question otherwise, less than an interval after the deadline. Failing questions count as ones without an answer, and no bound on the
rounds that lets a wait reach the deadline makes a difference. -/
theorem run_lasts (p : WaitPolicy) (what : String) (replies : List (Reply α)) (start : Instant) :
    (WaitPolicy.longest < p.timeout →
      run p what replies start = (.error (.invalidArgument .endlessWait), { replies := replies, now := start })) ∧
    (p.timeout ≤ WaitPolicy.longest → 0 < p.interval → start.Exact p.interval →
      (∀ k a, First replies k a → k ≤ p.intervals → Lasts p start k (.ok a) (run p what replies start)) ∧
      ((¬ ∃ k ≤ p.intervals, ∃ a, First replies k a) →
        Lasts p start p.intervals (.error (.timeout what p.timeout)) (run p what replies start)) ∧
      (p.timeout ≤ p.intervals * p.interval ∧ p.intervals * p.interval < p.timeout + p.interval) ∧
      ((run p what (replies.map hushed) start).1 = (run p what replies start).1 ∧
        (run p what (replies.map hushed) start).2.asked = (run p what replies start).2.asked) ∧
      ∀ rounds, p.intervals < rounds →
        (waitRounds clock p what question start rounds).run { replies := replies, now := start } =
          run p what replies start) := by
  refine ⟨fun hendless => ?_, fun hmeasured hinterval hexact => ?_⟩
  · rw [run, waitFor, if_pos hendless]
    rfl
  · obtain ⟨hfound, hlate⟩ := run_lasts_of_le hmeasured hinterval hexact what replies
    refine ⟨hfound, hlate, ⟨?_, ?_⟩, run_hushed hmeasured hinterval hexact what replies, fun rounds hrounds => ?_⟩
    · exact p.timeout_le_intervals hinterval
    · exact p.intervals_lt hinterval
    · exact waitRounds_eq_run hmeasured hinterval hexact hrounds

/-- What is there with the fourth question; the first one fails. -/
def fourth : List (Reply String) := [.failing (.notFound "Secret" "thing"), .notYet, .notYet, .found "thing"]

/-- Ten seconds, asked every two: what is there with the fourth question is waited for six seconds, and what never comes is asked
for six times. -/
theorem run_lasts_six_seconds :
    Instant.Exact default 2000 ∧ First fourth 3 "thing" ∧
      Lasts ⟨10000, 2000⟩ default 3 (.ok "thing") (run ⟨10000, 2000⟩ "thing" fourth default) ∧
      Lasts ⟨10000, 2000⟩ default 5 (.error (.timeout "thing" 10000)) (run (α := String) ⟨10000, 2000⟩ "thing" [] default) := by
  have hexact : Instant.Exact default 2000 := Instant.exact_of_lt (by decide) 2000
  have hfirst : First fourth 3 "thing" := by
    refine ⟨rfl, fun j hj b => ?_⟩
    obtain rfl | rfl | rfl : j = 0 ∨ j = 1 ∨ j = 2 := by omega
    · simp [fourth]
    · simp [fourth]
    · simp [fourth]
  obtain ⟨hfound, -⟩ := (run_lasts ⟨10000, 2000⟩ "thing" fourth default).2 (by decide) (by decide) hexact
  obtain ⟨-, hlate, -⟩ := (run_lasts (α := String) ⟨10000, 2000⟩ "thing" [] default).2 (by decide) (by decide) hexact
  refine ⟨hexact, hfirst, hfound 3 "thing" hfirst (by decide), hlate ?_⟩
  rintro ⟨k, -, a, ha, -⟩
  cases ha

end Rehearsal

end IngressOperator
