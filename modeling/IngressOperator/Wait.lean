import IngressOperator.Failure
import IngressOperator.Time.Instant

/-!
# Waiting

Asking again and again, at a fixed interval and up to a deadline, for something that may still be on its way. A wait is written
for any monad with a clock, so that the same definition runs in a pass and on its own.

A wait is counted in rounds, one for every question. The clock ends it: after `WaitPolicy.rounds` questions more time has passed
than the wait may take, even if the clock held a leap second.
-/

namespace IngressOperator

/-- How long something is waited for and how often it is asked for, in milliseconds. -/
structure WaitPolicy where
  timeout : Nat := 600000
  interval : Nat := 2000
deriving DecidableEq

instance : Inhabited WaitPolicy := ⟨{}⟩

/-- The longest wait that a clock measures. -/
def WaitPolicy.longest : Nat := 9223372036854775807

/-- More questions than can be asked before the deadline; a wait without an interval is bounded like one of a millisecond. -/
def WaitPolicy.rounds (p : WaitPolicy) : Nat := (p.timeout + 1000) / max p.interval 1 + 2

/-- A clock by which a program waits. -/
structure Clock (m : Type → Type) where
  now : m Instant
  /-- Lets the given milliseconds pass. -/
  sleep : Nat → m Unit

section

variable {m : Type → Type} [Monad m] {α : Type}

/-- Asks for at most the given number of rounds. A failing question counts as one without an answer. -/
def waitRounds (clock : Clock m) (p : WaitPolicy) (what : String) (question : m (Except Failure (Option α)))
    (start : Instant) : Nat → m (Except Failure α)
  | 0 => pure (.error (.timeout what p.timeout))
  | rounds + 1 => do
    match ← question with
    | .ok (some found) => pure (.ok found)
    | _ =>
      let now ← clock.now
      if p.timeout * 1000000 ≤ now.since start then pure (.error (.timeout what p.timeout))
      else do
        clock.sleep p.interval
        waitRounds clock p what question start rounds

/-- What a round does without an answer: it gives up if the deadline has passed, and else it sleeps and goes on with the rest. -/
def waitOn (clock : Clock m) (p : WaitPolicy) (what : String) (start : Instant) (rest : m (Except Failure α)) :
    m (Except Failure α) := do
  let now ← clock.now
  if p.timeout * 1000000 ≤ now.since start then pure (.error (.timeout what p.timeout))
  else do
    clock.sleep p.interval
    rest

/-- A round ends the wait if there is an answer. -/
theorem waitRounds_succ (clock : Clock m) (p : WaitPolicy) (what : String) (question : m (Except Failure (Option α)))
    (start : Instant) (rounds : Nat) :
    waitRounds clock p what question start (rounds + 1) = (do
      match ← question with
      | .ok (some found) => pure (.ok found)
      | _ => waitOn clock p what start (waitRounds clock p what question start rounds)) := rfl

/-- Asks at once and after every interval until there is an answer or the deadline has passed. -/
def waitFor (clock : Clock m) (p : WaitPolicy) (what : String) (question : m (Except Failure (Option α))) :
    m (Except Failure α) :=
  if WaitPolicy.longest < p.timeout then pure (.error (.invalidArgument .endlessWait))
  else do
    let start ← clock.now
    waitRounds clock p what question start p.rounds

end

end IngressOperator
