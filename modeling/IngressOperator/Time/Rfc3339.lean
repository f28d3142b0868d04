import IngressOperator.Time.Instant
import IngressOperator.Text.Blank
import IngressOperator.Text.Digits

/-!
# RFC 3339

Instants as text. Written, an instant stands in UTC with `Z`, and its fraction has as many groups of three digits as it needs.
Read, the form is relaxed: blanks may surround the separators, fields may be shorter, a year may have a sign, `t`, `T` or a
space divides date and time, and an offset is `Z`, `UTC` or hours and minutes with or without a colon. Second 60 is a leap
second, and digits after the ninth of a fraction are cut.
-/

namespace IngressOperator.Rfc3339

open Text (isBlank)

/-! ### Writing -/

/-- A year: four digits from 0 to 9999, and a sign before any other. -/
def year (y : Int) : List Char :=
  if 0 ≤ y ∧ y ≤ 9999 then Digits.padded 4 y.toNat
  else (if y < 0 then '-' else '+') :: Digits.padded 4 y.natAbs

/-- Year, month and day. -/
def date (d : Date) : List Char := year d.year ++ '-' :: (Digits.padded 2 d.month.toNat ++ '-' :: Digits.padded 2 d.day.toNat)

/-- Hour, minute and second. -/
def time (t : Instant) : List Char :=
  Digits.padded 2 t.hour ++ ':' :: (Digits.padded 2 t.minute ++ ':' :: Digits.padded 2 t.second)

/-- A fraction of a second with the fewest groups of three digits. -/
def fraction (nanos : Nat) : List Char :=
  if nanos = 0 then []
  else if nanos % 1000000 = 0 then '.' :: Digits.padded 3 (nanos / 1000000)
  else if nanos % 1000 = 0 then '.' :: Digits.padded 6 (nanos / 1000)
  else '.' :: Digits.padded 9 nanos

/-- The text of an instant. -/
def encode (t : Instant) : String :=
  String.ofList (date (Date.ofDays t.days) ++ 'T' :: (time t ++ fraction t.fraction ++ ['Z']))

/-! ### Reading -/

/-- What follows leading blanks. -/
def skipBlanks (cs : List Char) : List Char := cs.dropWhile isBlank

/-- A number of at least one and at most `width` digits, after blanks. -/
def number? (width : Nat) (cs : List Char) : Option (Nat × List Char) :=
  let cs := skipBlanks cs
  let digits := (cs.take width).takeWhile Digits.isDigit
  (Digits.nat? digits).map fun n => (n, cs.drop digits.length)

/-- A year: a sign and any number of digits, or up to four digits. -/
def year? (cs : List Char) : Option (Int × List Char) :=
  match skipBlanks cs with
  | '-' :: rest =>
    if rest.head?.any Digits.isDigit then (number? rest.length rest).map fun (n, r) => (-(n : Int), r) else none
  | '+' :: rest =>
    if rest.head?.any Digits.isDigit then (number? rest.length rest).map fun (n, r) => ((n : Int), r) else none
  | rest => (number? 4 rest).map fun (n, r) => ((n : Int), r)

/-- A separator, after blanks. -/
def separator? (c : Char) (cs : List Char) : Option (List Char) :=
  match skipBlanks cs with
  | c' :: rest => if c = c' then some rest else none
  | [] => none

/-- The nanoseconds of a fraction, if there is one. -/
def fraction? : List Char → Option (Nat × List Char)
  | '.' :: rest => do
    let digits := (rest.take 9).takeWhile Digits.isDigit
    let n ← Digits.nat? digits
    pure (n * Nat.pow 10 (9 - digits.length), rest.dropWhile Digits.isDigit)
  | cs => some (0, cs)

/-- Two digits of an offset. -/
def twoDigits? : List Char → Option (Nat × List Char)
  | a :: b :: rest => do
    let a ← Digits.decimal? a
    let b ← Digits.decimal? b
    pure (10 * a + b, rest)
  | _ => none

/-- The hours and minutes of an offset, in seconds. -/
def hoursMinutes? (cs : List Char) : Option (Int × List Char) := do
  let (hours, rest) ← twoDigits? cs
  let (minutes, rest) ← twoDigits? (rest.dropWhile fun c => c == ':' || isBlank c)
  if minutes < 60 ∧ hours < 24 then pure (((hours * 3600 + minutes * 60 : Nat) : Int), rest) else none

/-- The seconds by which a local time is ahead of UTC. -/
def offset? (cs : List Char) : Option (Int × List Char) :=
  match skipBlanks cs with
  | 'Z' :: rest | 'z' :: rest => some (0, rest)
  | '+' :: rest => hoursMinutes? rest
  | '-' :: rest | '\u2212' :: rest => (hoursMinutes? rest).map fun (s, rest) => (-s, rest)
  | u :: t :: c :: rest => if u.toUpper = 'U' ∧ t.toUpper = 'T' ∧ c.toUpper = 'C' then some (0, rest) else none
  | _ => none

/-- A date, and what follows it. -/
def date? (cs : List Char) : Option (Date × List Char) := do
  let (year, cs) ← year? cs
  let cs ← separator? '-' cs
  let (month, cs) ← number? 2 cs
  let cs ← separator? '-' cs
  let (day, cs) ← number? 2 cs
  let date : Date := ⟨year, month, day⟩
  if date.InReach ∧ date.IsValid then pure (date, cs) else none

/-- A time of day in seconds, with the nanoseconds after them, and what follows. -/
def time? (cs : List Char) : Option (Nat × { n : Nat // n < 2000000000 } × List Char) := do
  let (hour, cs) ← number? 2 cs
  let cs ← separator? ':' cs
  let (minute, cs) ← number? 2 cs
  let cs ← separator? ':' cs
  let (second, cs) ← number? 2 cs
  let (nanos, cs) ← fraction? cs
  let leap := if second = 60 then Instant.perSecond else 0
  if h : hour < 24 ∧ minute < 60 ∧ second ≤ 60 ∧ nanos + leap < 2000000000 then
    pure (hour * 3600 + minute * 60 + min second 59, ⟨nanos + leap, h.2.2.2⟩, cs)
  else none

/-- The instant of a text; the offset must not carry it out of the calendar. -/
def decode? (s : String) : Option Instant := do
  let (date, cs) ← date? s.toList
  match cs with
  | c :: cs =>
    if c = 't' ∨ c = 'T' ∨ c = ' ' then
      let (second, nanos, cs) ← time? cs
      let (offset, cs) ← offset? cs
      let t : Instant := ⟨date.toDays * 86400 + second - offset, nanos.1, nanos.2⟩
      if (skipBlanks cs).isEmpty ∧ t.InCalendar then pure t else none
    else none
  | [] => none

end IngressOperator.Rfc3339
