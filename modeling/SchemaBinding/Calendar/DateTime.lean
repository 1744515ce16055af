import SchemaBinding.Calendar.Date

/-!
# Times of day, offsets and date-times

A time of day counts microseconds. A date-time may carry an offset from UTC, less than a day in
either direction; without one it is naive. Date-times with offsets are compared as instants.
-/

namespace SchemaBinding.Calendar

/-- A time of day. -/
structure Time where
  /-- The hour. -/
  hour : Fin 24
  /-- The minute. -/
  minute : Fin 60
  /-- The second; there are no leap seconds. -/
  second : Fin 60
  /-- The microsecond. -/
  micro : Fin 1000000
deriving DecidableEq

namespace Time

/-- The start of the day. -/
def midnight : Time := ⟨0, 0, 0, 0⟩

/-- The time that four numbers name. -/
def ofParts? (hour minute second micro : Nat) : Option Time :=
  if h : hour < 24 ∧ minute < 60 ∧ second < 60 ∧ micro < 1000000 then
    some ⟨⟨hour, h.1⟩, ⟨minute, h.2.1⟩, ⟨second, h.2.2.1⟩, ⟨micro, h.2.2.2⟩⟩
  else none

/-- The microseconds since the start of the day. -/
def micros (t : Time) : Nat :=
  ((t.hour.val * 60 + t.minute.val) * 60 + t.second.val) * 1000000 + t.micro.val

end Time

/-- An offset from UTC in microseconds, of magnitude less than a day. -/
structure Offset where
  /-- The microseconds by which local time is ahead. -/
  micros : Int
  /-- Less than a day in either direction. -/
  lt_day : micros.natAbs < 86400000000
deriving DecidableEq

namespace Offset

/-- No offset. -/
def utc : Offset := ⟨0, by decide⟩

/-- The offset of so many microseconds, if that is less than a day. -/
def ofMicros? (micros : Int) : Option Offset :=
  if h : micros.natAbs < 86400000000 then some ⟨micros, h⟩ else none

end Offset

/-- A date and a time of day, with an offset from UTC or naive. -/
structure DateTime where
  /-- The local date. -/
  date : Date
  /-- The local time of day. -/
  time : Time
  /-- The offset from UTC, `none` for a naive date-time. -/
  offset : Option Offset
deriving DecidableEq

namespace DateTime

/-- Local microseconds since the start of the day numbered zero. -/
def localMicros (d : DateTime) : Int :=
  (d.date.ordinal * 86400000000 + d.time.micros : Nat)

/-- The microseconds that tell when a date-time is; a naive one stands for itself. -/
def instant (d : DateTime) : Int :=
  d.localMicros - (d.offset.map Offset.micros).getD 0

/-- Two date-times are the same when both carry offsets and name one instant, or when both are naive
and agree. -/
def same (a b : DateTime) : Bool :=
  a.offset.isSome == b.offset.isSome && a.instant == b.instant

/-- A naive date-time is taken as UTC. -/
def assumeUtc (d : DateTime) : DateTime :=
  match d.offset with
  | some _ => d
  | none => { d with offset := some .utc }

/-- The start of a date in UTC. -/
def midnightUtc (d : Date) : DateTime := ⟨d, .midnight, some .utc⟩

end DateTime

end SchemaBinding.Calendar
