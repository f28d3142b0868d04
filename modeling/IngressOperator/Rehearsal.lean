import IngressOperator.Wait

/-!
# Rehearsed waits

A wait for something whose replies are known beforehand, on a clock that only the wait itself moves. After the last reply there
is none any more.
-/

namespace IngressOperator

/-- A reply to a question. -/
inductive Reply (α : Type) where
  | found (a : α)
  | notYet
  | failing (cause : Failure)

/-- A rehearsal: the replies that are still to come, the time, and the times of the questions so far, latest first. -/
structure Rehearsal (α : Type) where
  replies : List (Reply α)
  now : Instant
  asked : List Instant := []

namespace Rehearsal

variable {α : Type}

/-- The clock of a rehearsal. -/
def clock : Clock (StateM (Rehearsal α)) where
  now := return (← get).now
  sleep millis := modify fun r => { r with now := r.now.plus millis }

/-- What a reply says about the question. -/
def answer : Option (Reply α) → Except Failure (Option α)
  | some (.found a) => .ok (some a)
  | some (.failing cause) => .error cause
  | some .notYet | none => .ok none

/-- Asks the next question. -/
def question : StateM (Rehearsal α) (Except Failure (Option α)) := do
  let r ← get
  set { r with replies := r.replies.tail, asked := r.now :: r.asked }
  pure (answer r.replies.head?)

/-- Rehearses a wait from an instant. -/
def run (p : WaitPolicy) (what : String) (replies : List (Reply α)) (start : Instant) : Except Failure α × Rehearsal α :=
  (waitFor clock p what question).run { replies := replies, now := start }

end Rehearsal

end IngressOperator
