/-!
# Dates

The proleptic Gregorian calendar, counted in days from 1 January 1970. A year is taken to begin in March, so that the leap day
is its last: `Date.ofDays` divides days into eras of 400 years, years and months by one formula each, and `Date.toDays` adds
the same parts up again.

## Main statements

* `Date.toDays_ofDays`: the date of a day has the number of that day.
* `Date.isValid_ofDays`: the date of a day is one of the calendar.
-/

namespace IngressOperator

/-- A day of the Gregorian calendar. -/
structure Date where
  /-- The year; year 0 is the one before year 1. -/
  year : Int
  /-- The month, from 1 to 12. -/
  month : Int
  /-- The day of the month, from 1. -/
  day : Int
deriving DecidableEq, Inhabited

namespace Date

/-- Whether a year has a leap day. -/
def isLeap (year : Int) : Bool := year % 4 == 0 && (year % 100 != 0 || year % 400 == 0)

/-- The number of days of a month. -/
def monthLength (year month : Int) : Int :=
  if month = 2 then if isLeap year then 29 else 28
  else if month = 4 ∨ month = 6 ∨ month = 9 ∨ month = 11 then 30
  else 31

/-- Whether the calendar has a day of that year, month and day of the month. -/
def IsValid (d : Date) : Prop := 1 ≤ d.month ∧ d.month ≤ 12 ∧ 1 ≤ d.day ∧ d.day ≤ monthLength d.year d.month

instance (d : Date) : Decidable d.IsValid := inferInstanceAs (Decidable (_ ∧ _))

/-- Whether the year of a date is one that an instant may lie in. -/
def InReach (d : Date) : Prop := -262143 ≤ d.year ∧ d.year ≤ 262142

instance (d : Date) : Decidable d.InReach := inferInstanceAs (Decidable (_ ∧ _))

/-- The days of an era of 400 years that come before its year. -/
def yearStart (year : Int) : Int := 365 * year + year / 4 - year / 100

/-- The days of a year, begun in March, that come before its month; March is 0. -/
def monthStart (month : Int) : Int := (153 * month + 2) / 5

/-- The day in days from 1 January 1970. -/
def toDays (d : Date) : Int :=
  let year := if d.month ≤ 2 then d.year - 1 else d.year
  let month := if d.month ≤ 2 then d.month + 9 else d.month - 3
  year / 400 * 146097 + yearStart (year % 400) + monthStart month + (d.day - 1) - 719468

/-- The year, counted from the start of its era, in which a day of the era lies: the last century of an era and the last year
of four are a day longer than the others. -/
def yearOfEra (day : Int) : Int :=
  let century := min (day / 36524) 3
  let day := day - 36524 * century
  let four := day / 1461
  let day := day - 1461 * four
  100 * century + 4 * four + min (day / 365) 3

/-- The date of the day that is given in days from 1 January 1970. -/
def ofDays (days : Int) : Date :=
  let era := (days + 719468) / 146097
  let dayOfEra := (days + 719468) % 146097
  let year := yearOfEra dayOfEra
  let dayOfYear := dayOfEra - yearStart year
  let month := (5 * dayOfYear + 2) / 153
  let day := dayOfYear - monthStart month + 1
  if month < 10 then ⟨era * 400 + year, month + 3, day⟩ else ⟨era * 400 + year + 1, month - 9, day⟩

theorem yearOfEra_bounds {day : Int} (h0 : 0 ≤ day) (h1 : day < 146097) : 0 ≤ yearOfEra day ∧ yearOfEra day < 400 := by
  simp only [yearOfEra]
  omega

theorem dayOfYear_bounds {day : Int} (h0 : 0 ≤ day) (h1 : day < 146097) :
    0 ≤ day - yearStart (yearOfEra day) ∧ day - yearStart (yearOfEra day) < 366 := by
  simp only [yearStart, yearOfEra]
  have hc : 0 ≤ min (day / 36524) 3 ∧ min (day / 36524) 3 ≤ 3 := by omega
  have hd : 0 ≤ day - 36524 * min (day / 36524) 3 ∧ day - 36524 * min (day / 36524) 3 ≤ 36524 := by omega
  generalize min (day / 36524) 3 = century at *
  generalize hx : day - 36524 * century = x at *
  have hq : 0 ≤ x / 1461 ∧ x / 1461 ≤ 24 := by omega
  have hy : 0 ≤ x - 1461 * (x / 1461) ∧ x - 1461 * (x / 1461) ≤ 1460 := by omega
  generalize x / 1461 = four at *
  generalize hz : x - 1461 * four = y at *
  have e1 : (100 * century + 4 * four + min (y / 365) 3) / 4 = 25 * century + four := by omega
  have e2 : (100 * century + 4 * four + min (y / 365) 3) / 100 = century := by omega
  omega

/-- The date of a day has the number of that day. -/
theorem toDays_ofDays (days : Int) : (ofDays days).toDays = days := by
  have h0 : 0 ≤ (days + 719468) % 146097 := by omega
  have h1 : (days + 719468) % 146097 < 146097 := by omega
  obtain ⟨y0, y1⟩ := yearOfEra_bounds h0 h1
  obtain ⟨d0, d1⟩ := dayOfYear_bounds h0 h1
  simp only [ofDays]
  generalize yearOfEra ((days + 719468) % 146097) = year at *
  generalize hd : (days + 719468) % 146097 - yearStart year = dayOfYear at *
  split
  · next hm =>
    have h2 : ¬ (5 * dayOfYear + 2) / 153 + 3 ≤ 2 := by omega
    have e1 : ((days + 719468) / 146097 * 400 + year) / 400 = (days + 719468) / 146097 := by omega
    have e2 : ((days + 719468) / 146097 * 400 + year) % 400 = year := by omega
    have e3 : (5 * dayOfYear + 2) / 153 + 3 - 3 = (5 * dayOfYear + 2) / 153 := by omega
    simp only [toDays, h2, if_false, e1, e2, e3]
    omega
  · next hm =>
    have h2 : (5 * dayOfYear + 2) / 153 - 9 ≤ 2 := by omega
    have e0 : (days + 719468) / 146097 * 400 + year + 1 - 1 = (days + 719468) / 146097 * 400 + year := by omega
    have e1 : ((days + 719468) / 146097 * 400 + year) / 400 = (days + 719468) / 146097 := by omega
    have e2 : ((days + 719468) / 146097 * 400 + year) % 400 = year := by omega
    have e3 : (5 * dayOfYear + 2) / 153 - 9 + 9 = (5 * dayOfYear + 2) / 153 := by omega
    simp only [toDays, h2, if_true, e0, e1, e2, e3]
    omega

/-- A year begun in March has a leap day only if the year in which it ends is a leap year. -/
theorem isLeap_of_dayOfYear {era day : Int} (h0 : 0 ≤ day) (h1 : day < 146097)
    (h : day - yearStart (yearOfEra day) = 365) : isLeap (era * 400 + yearOfEra day + 1) = true := by
  simp only [yearStart, yearOfEra] at h ⊢
  have hc : 0 ≤ min (day / 36524) 3 ∧ min (day / 36524) 3 ≤ 3 := by omega
  have hd : 0 ≤ day - 36524 * min (day / 36524) 3 ∧ day - 36524 * min (day / 36524) 3 ≤ 36524 := by omega
  have hlast : min (day / 36524) 3 < 3 → day - 36524 * min (day / 36524) 3 ≤ 36523 := by omega
  generalize min (day / 36524) 3 = century at *
  generalize hx : day - 36524 * century = x at *
  have hq : 0 ≤ x / 1461 ∧ x / 1461 ≤ 24 := by omega
  generalize hf : x / 1461 = four at *
  have hz : 0 ≤ x - 1461 * four ∧ x - 1461 * four ≤ 1460 := by omega
  generalize hy : x - 1461 * four = y at *
  have e1 : (100 * century + 4 * four + min (y / 365) 3) / 4 = 25 * century + four := by omega
  have e2 : (100 * century + 4 * four + min (y / 365) 3) / 100 = century := by omega
  have hr : min (y / 365) 3 = 3 ∧ y = 1460 := by omega
  have hn : four = 24 → century = 3 := by omega
  rw [hr.1]
  simp only [isLeap, Bool.and_eq_true, Bool.or_eq_true, beq_iff_eq, bne_iff_ne]
  omega

/-- The date of a day is one of the calendar. -/
theorem isValid_ofDays (days : Int) : (ofDays days).IsValid := by
  have h0 : 0 ≤ (days + 719468) % 146097 := by omega
  have h1 : (days + 719468) % 146097 < 146097 := by omega
  obtain ⟨d0, d1⟩ := dayOfYear_bounds h0 h1
  have hl := @isLeap_of_dayOfYear ((days + 719468) / 146097) _ h0 h1
  simp only [ofDays, IsValid]
  generalize (days + 719468) / 146097 * 400 + yearOfEra ((days + 719468) % 146097) = year at *
  generalize (days + 719468) % 146097 - yearStart (yearOfEra ((days + 719468) % 146097)) = dayOfYear at *
  have hm : 0 ≤ (5 * dayOfYear + 2) / 153 ∧ (5 * dayOfYear + 2) / 153 ≤ 11 := by omega
  split
  · simp only [monthLength, monthStart]
    grind
  · have hf : isLeap (year + 1) = false → dayOfYear ≠ 365 := fun hf h => by simp [hl h] at hf
    simp only [monthLength, monthStart]
    cases hy : isLeap (year + 1) <;> grind

/-- The day of the week; Sunday is 0. -/
def weekday (days : Int) : Nat := ((days + 4) % 7).toNat

end Date

end IngressOperator
