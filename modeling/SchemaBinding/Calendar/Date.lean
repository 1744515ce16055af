/-!
# Calendar dates

Dates of the proleptic Gregorian calendar from year 1 to year 9999, their numbering by days, and the
week dates of ISO 8601.
-/

namespace SchemaBinding.Calendar

/-- Whether a year has a 29th of February. -/
def isLeap (year : Nat) : Bool := year % 4 == 0 && (year % 100 != 0 || year % 400 == 0)

/-- The number of days in a month, zero if there is no such month. -/
def daysInMonth (year month : Nat) : Nat :=
  if month = 2 then (if isLeap year then 29 else 28)
  else if month = 4 ∨ month = 6 ∨ month = 9 ∨ month = 11 then 30
  else if 1 ≤ month ∧ month ≤ 12 then 31
  else 0

/-- Whether three numbers name a date of the calendar. -/
def IsDate (year month day : Nat) : Prop :=
  1 ≤ year ∧ year ≤ 9999 ∧ 1 ≤ month ∧ month ≤ 12 ∧ 1 ≤ day ∧ day ≤ daysInMonth year month

instance (year month day : Nat) : Decidable (IsDate year month day) := by
  unfold IsDate
  infer_instance

/-- A date of the calendar. -/
structure Date where
  /-- The year, from 1 to 9999. -/
  year : Nat
  /-- The month, from 1. -/
  month : Nat
  /-- The day of the month, from 1. -/
  day : Nat
  /-- The three name a date. -/
  isDate : IsDate year month day
deriving DecidableEq

namespace Date

/-- The date that three numbers name. -/
def ofParts? (year month day : Nat) : Option Date :=
  if h : IsDate year month day then some ⟨year, month, day, h⟩ else none

/-- The number of days before the first of January of a year. -/
def daysBeforeYear (year : Nat) : Nat :=
  let y := year - 1
  y * 365 + y / 4 - y / 100 + y / 400

/-- The number of days of a year before the first of a month. -/
def daysBeforeMonth (year month : Nat) : Nat :=
  (List.range month).foldr (fun m days => daysInMonth year m + days) 0

/-- The number of a date, counted from the first of January of year 1 as one. -/
def ordinal (d : Date) : Nat := daysBeforeYear d.year + daysBeforeMonth d.year d.month + d.day

/-- The first month from `month` on that holds the day counted from its start, with the day in it;
`months` bounds the months tried. -/
def monthOf (year : Nat) : (months : Nat) → (month day : Nat) → Nat × Nat
  | 0, month, day => (month, day)
  | months + 1, month, day =>
    if day ≤ daysInMonth year month then (month, day)
    else monthOf year months (month + 1) (day - daysInMonth year month)

/-- The year that holds the day with a number, with the day's place in the year from one. The years
before it fall into whole cycles of 400 years, then whole centuries, then whole cycles of four
years, then whole years; the last day of a cycle belongs to the cycle. -/
def yearOf (number : Nat) : Nat × Nat :=
  let n := number - 1
  let cycles := n / 146097
  let inCycle := n % 146097
  let centuries := min (inCycle / 36524) 3
  let inCentury := inCycle - centuries * 36524
  let quads := inCentury / 1461
  let inQuad := inCentury % 1461
  let years := min (inQuad / 365) 3
  (cycles * 400 + centuries * 100 + quads * 4 + years + 1, inQuad - years * 365 + 1)

/-- The date with a number. -/
def ofOrdinal? (number : Nat) : Option Date :=
  if number = 0 then none
  else
    let (year, dayOfYear) := yearOf number
    let (month, day) := monthOf year 11 1 dayOfYear
    ofParts? year month day

/-- The number of the first day of the first ISO week of a year: the Monday of the week that holds
the fourth of January. Days are numbered so that a number divisible by seven is a Sunday. -/
def firstWeek (year : Nat) : Nat :=
  let first := daysBeforeYear year + 1
  let weekday := (first + 6) % 7
  if weekday ≤ 3 then first - weekday else first + 7 - weekday

/-- Whether an ISO year has a week with that number. -/
def hasWeek (year week : Nat) : Bool :=
  let weekday := (daysBeforeYear year + 7) % 7
  (1 ≤ week && week ≤ 52) ||
    (week == 53 && (weekday == 3 || (weekday == 2 && isLeap year)))

/-- The date of a day (Monday is one) in a week of an ISO year. -/
def ofWeek? (year week day : Nat) : Option Date :=
  if 1 ≤ year ∧ year ≤ 9999 ∧ hasWeek year week ∧ 1 ≤ day ∧ day ≤ 7 then
    ofOrdinal? (firstWeek year + (week - 1) * 7 + (day - 1))
  else none

end Date

end SchemaBinding.Calendar
