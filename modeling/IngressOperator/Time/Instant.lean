import IngressOperator.Time.Date

/-!
# Instants

A point in time, to the nanosecond. Within a leap second the second before it goes on: its nanoseconds run on from 10⁹.

## Main statements

* `Instant.since_plus`: outside leap seconds the time since an instant is the time that passed.
-/

namespace IngressOperator

/-- A point in time: whole seconds from the start of 1970, leap seconds left out, and the nanoseconds after them. -/
structure Instant where
  /-- The seconds from 1970-01-01T00:00:00Z. -/
  seconds : Int
  /-- The nanoseconds after that second; 10⁹ or more within a leap second. -/
  nanos : Nat
  /-- A leap second is one second long. -/
  nanos_lt : nanos < 2000000000
deriving DecidableEq

namespace Instant

/-- A second has this many nanoseconds. -/
abbrev perSecond : Nat := 1000000000

instance : Inhabited Instant := ⟨⟨0, 0, by decide⟩⟩

/-- The second of the day, from 0 to 86399. -/
def secondOfDay (t : Instant) : Int := t.seconds % 86400

/-- The instant that lies the given time later. Time that passes within a leap second stays in it; time that leaves it is
counted from the second before. -/
def plus (t : Instant) (millis : Nat) : Instant :=
  let seconds := millis / 1000
  let nanos := millis % 1000 * 1000000
  if h : perSecond ≤ t.nanos ∧ seconds = 0 ∧ t.nanos + nanos < 2 * perSecond then ⟨t.seconds, t.nanos + nanos, h.2.2⟩
  else
    let total := t.nanos % perSecond + nanos
    ⟨t.seconds + seconds + ((total / perSecond : Nat) : Int), total % perSecond,
      Nat.lt_trans (Nat.mod_lt _ (by decide)) (by decide)⟩

/-- One second for a leap second that lies between two instants. -/
def leapBetween (t start : Instant) : Int :=
  if start.secondOfDay < t.secondOfDay then if perSecond ≤ start.nanos then 1 else 0
  else if t.secondOfDay < start.secondOfDay then if perSecond ≤ t.nanos then -1 else 0
  else 0

/-- The nanoseconds from `start` to `t`. -/
def since (t start : Instant) : Int :=
  (t.seconds - start.seconds + leapBetween t start) * perSecond + (t.nanos - start.nanos)

/-- Outside leap seconds the time since an instant is the time that passed. -/
theorem since_plus {start : Instant} (h : start.nanos < perSecond) (millis : Nat) :
    (start.plus millis).since start = millis * 1000000 := by
  have hp : ¬ (perSecond ≤ start.nanos ∧ millis / 1000 = 0 ∧ start.nanos + millis % 1000 * 1000000 < 2 * perSecond) := by
    omega
  have hl : (start.nanos % perSecond + millis % 1000 * 1000000) % perSecond < perSecond := Nat.mod_lt _ (by decide)
  simp only [plus, hp, dite_false, since, leapBetween]
  rw [if_neg (by omega : ¬ perSecond ≤ start.nanos),
    if_neg (by omega : ¬ perSecond ≤ (start.nanos % perSecond + millis % 1000 * 1000000) % perSecond)]
  simp only [perSecond, ite_self] at *
  omega

/-- Whether an instant is not after another one. -/
def notAfter (a b : Instant) : Bool := a.seconds < b.seconds || (a.seconds == b.seconds && a.nanos ≤ b.nanos)

/-- The instant without its fraction of a second. -/
def truncated (t : Instant) : Instant :=
  if perSecond ≤ t.nanos then ⟨t.seconds, perSecond, by decide⟩ else ⟨t.seconds, 0, by decide⟩

/-- The day of an instant, in days from the start of 1970. -/
def days (t : Instant) : Int := t.seconds / 86400

/-- Whether a clock can show an instant: its year is one that dates reach, and only the last second of a minute goes on into a
leap second. -/
def InCalendar (t : Instant) : Prop :=
  (Date.ofDays t.days).InReach ∧ (t.nanos < perSecond ∨ t.seconds % 60 = 59)

instance (t : Instant) : Decidable t.InCalendar := inferInstanceAs (Decidable (_ ∧ _))

theorem truncated_truncated (t : Instant) : t.truncated.truncated = t.truncated := by
  unfold truncated
  split <;> rfl

/-- The hour of the day. -/
def hour (t : Instant) : Nat := (t.secondOfDay / 3600).toNat

/-- The minute of the hour. -/
def minute (t : Instant) : Nat := (t.secondOfDay / 60 % 60).toNat

/-- The second of the minute; 60 in a leap second that ends one. -/
def second (t : Instant) : Nat := (t.secondOfDay % 60).toNat + t.nanos / perSecond

/-- The nanosecond of the second. -/
def fraction (t : Instant) : Nat := t.nanos % perSecond

end Instant

end IngressOperator
