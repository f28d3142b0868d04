import IngressOperator.Time.Rfc3339

/-!
# RFC 2822 and plain dates

Two more texts of an instant: the date of a mail header, and date and time divided by a space.
-/

namespace IngressOperator

/-- The days of the week, from Sunday. -/
def weekdayNames : List String := ["Sun", "Mon", "Tue", "Wed", "Thu", "Fri", "Sat"]

/-- The months, from January. -/
def monthNames : List String := ["Jan", "Feb", "Mar", "Apr", "May", "Jun", "Jul", "Aug", "Sep", "Oct", "Nov", "Dec"]

/-- The date of a mail header, in UTC; the day of the month is not filled up. -/
def Rfc2822.encode (t : Instant) : String :=
  let d := Date.ofDays t.days
  let weekday := weekdayNames.getD (Date.weekday t.days) ""
  let month := monthNames.getD (d.month - 1).toNat ""
  s!"{weekday}, {d.day} {month} " ++ String.ofList (Rfc3339.year d.year ++ ' ' :: (Rfc3339.time t ++ " +0000".toList))

/-- Date and time in UTC, divided by a space. -/
def Instant.plainText (t : Instant) : String :=
  String.ofList (Rfc3339.date (Date.ofDays t.days) ++ ' ' :: Rfc3339.time t)

end IngressOperator
