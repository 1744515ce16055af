import SchemaBinding.Calendar.DateTime

/-!
# Parts out of range

Dates, times of day and offsets made of numbers. When the numbers name none, the first of them that
is out of range says so.
-/

namespace SchemaBinding.Calendar

/-- A part of a date, a time of day or an offset that is out of range. -/
inductive RangeFault where
  /-- The year is not from 1 to 9999. -/
  | year (n : Nat)
  /-- There is no such month. -/
  | month
  /-- The month has no such day. -/
  | day
  /-- There is no such hour. -/
  | hour
  /-- There is no such minute. -/
  | minute
  /-- There is no such second. -/
  | second
  /-- An offset, in microseconds, is a day or more. -/
  | offset (micros : Int)
deriving DecidableEq, Repr

/-- The date that three numbers name. -/
def dateOf (year month day : Nat) : Except RangeFault Date :=
  match Date.ofParts? year month day with
  | some d => .ok d
  | none =>
    if year < 1 ∨ 9999 < year then .error (.year year)
    else if month < 1 ∨ 12 < month then .error .month
    else .error .day

/-- The time of day that four numbers name; the microseconds are less than a second. -/
def timeOf (hour minute second micro : Nat) : Except RangeFault Time :=
  match Time.ofParts? hour minute second micro with
  | some t => .ok t
  | none => .error (if 23 < hour then .hour else if 59 < minute then .minute else .second)

/-- The offset of so many microseconds. -/
def offsetOf (micros : Int) : Except RangeFault Offset :=
  match Offset.ofMicros? micros with
  | some o => .ok o
  | none => .error (.offset micros)

end SchemaBinding.Calendar
