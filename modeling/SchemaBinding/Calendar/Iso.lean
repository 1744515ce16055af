import SchemaBinding.Calendar.DateTime
import SchemaBinding.Text.Radix

/-!
# ISO 8601 texts

Dates and date-times are written in one form and read in many: calendar or week dates, with or
without separators; any one character between date and time; times of fewer units, with or without
colons, with a fraction of any length after a point or a comma; and an offset. Reading is lenient in
a few more places, each stated at its definition.

Lengths count bytes in UTF-8.

Specification: §4.2, step 4.
-/

namespace SchemaBinding.Calendar.Iso

open SchemaBinding.Text

/-- The number that `width` ASCII digits at the front write, and the rest. -/
def readDigits (width : Nat) (cs : List Char) : Option (Nat × List Char) :=
  let ds := cs.take width
  if ds.length = width ∧ ds.all isAsciiDigit then
    some (valueIn 10 ds, cs.drop width)
  else none

/-- A week of an ISO year and, when the text goes on, a day in it. `length` is where the date must
end if it has no day; characters after the day are not looked at. -/
def readWeekDate (year : Nat) (separated : Bool) (length : Nat) (cs : List Char) : Option Date :=
  (readDigits 2 cs).bind fun (week, rest) =>
    let consumed := if separated then 8 else 7
    if length ≤ consumed then Date.ofWeek? year week 1
    else
      match separated, rest with
      | true, '-' :: day => (readDigits 1 day).bind fun (d, _) => Date.ofWeek? year week d
      | true, _ => none
      | false, day => (readDigits 1 day).bind fun (d, _) => Date.ofWeek? year week d

/-- A month and a day in it; characters after them are not looked at. -/
def readMonthDay (year : Nat) (separated : Bool) (cs : List Char) : Option Date :=
  (readDigits 2 cs).bind fun (month, rest) =>
    match separated, rest with
    | true, '-' :: day => (readDigits 2 day).bind fun (d, _) => Date.ofParts? year month d
    | true, _ => none
    | false, day => (readDigits 2 day).bind fun (d, _) => Date.ofParts? year month d

/-- The date at the front of a text that is meant to be `length` long. -/
def readDatePart (length : Nat) (cs : List Char) : Option Date :=
  (readDigits 4 cs).bind fun (year, rest) =>
    let (separated, rest) :=
      match rest with
      | '-' :: r => (true, r)
      | r => (false, r)
    match rest with
    | 'W' :: r => readWeekDate year separated length r
    | r => readMonthDay year separated r

/-- The length of a text in bytes. -/
def byteLength (cs : List Char) : Nat := cs.foldr (fun c n => c.utf8Size + n) 0

/-- A text that is a date: seven, eight or ten bytes long. -/
def readDate (cs : List Char) : Option Date :=
  let length := byteLength cs
  if length = 7 ∨ length = 8 ∨ length = 10 then readDatePart length cs else none

/-- Where the date ends in the text of a date-time. After a week without separators the run of
digits decides: an odd number of them from there on includes a day. -/
def dateEnd (cs : List Char) : Nat :=
  if byteLength cs = 7 then 7
  else if cs[4]? == some '-' then
    if cs[5]? == some 'W' then
      if cs[8]? == some '-' then
        if (cs[10]?).any isAsciiDigit then 8 else 10
      else 8
    else 10
  else if cs[4]? == some 'W' then
    let stop := 7 + ((cs.drop 7).takeWhile isAsciiDigit).length
    if stop < 9 then stop
    else if stop % 2 == 0 then 7
    else 8
  else 8

/-- The units of a time or an offset as they are written, without bounds. -/
structure Clock where
  /-- The hours. -/
  hours : Nat
  /-- The minutes. -/
  minutes : Nat
  /-- The seconds. -/
  seconds : Nat
  /-- The microseconds. -/
  micros : Nat
  /-- Whether something is left over after the units. -/
  leftover : Bool
deriving DecidableEq

/-- The character at the front; the end of a text reads as the null character. -/
def front (cs : List Char) : Char := cs.headD '\x00'

/-- A clock of up to three units. -/
def clockOf (units : List Nat) (micros : Nat) (leftover : Bool) : Clock :=
  ⟨units.getD 0 0, units.getD 1 0, units.getD 2 0, micros, leftover⟩

/-- The fraction of the last unit as microseconds. Digits after the sixth are passed over. -/
def readFraction (units : List Nat) (room : Nat) (cs : List Char) : Option Clock :=
  let width := min 6 room
  (readDigits width cs).map fun (n, rest) =>
    clockOf units (n * Nat.pow 10 (6 - width)) (front (rest.dropWhile isAsciiDigit) != '\x00')

/-- The units of a clock, two digits each, of which `room` bytes are its own. `colons` is known once
the first unit has been read. After the third unit, or after a point or a comma, a fraction follows;
the byte that ends the room is not looked at more closely. -/
def readUnits : (left : Nat) → (units : List Nat) → (colons : Option Bool) → (room : Nat) →
    List Char → Option Clock
  | 0, units, _, room, cs => readFraction units room cs
  | left + 1, units, colons, room, cs =>
    (readDigits 2 cs).bind fun (n, rest) =>
      let units := units ++ [n]
      let c := front rest
      let colons := colons.getD (c == ':')
      if room ≤ 3 then some (clockOf units 0 (c != '\x00'))
      else if colons && c == ':' then
        readUnits left units (some colons) (room - 3) (rest.drop 1)
      else if c == '.' || c == ',' then readFraction units (room - 3) (rest.drop 1)
      else if !colons then readUnits left units (some colons) (room - 2) rest
      else none

/-- A clock in the first `room` bytes. -/
def readClock (room : Nat) (cs : List Char) : Option Clock := readUnits 3 [] none room cs

/-- A character that starts an offset. -/
def startsOffset (c : Char) : Bool := c == '+' || c == '-' || c == 'Z'

/-- The offset that a clock names; whole seconds of zero are UTC. -/
def offsetOf (negative : Bool) (c : Clock) : Option Offset :=
  let seconds := c.hours * 3600 + c.minutes * 60 + c.seconds
  if seconds = 0 then some .utc
  else
    let micros : Int := (seconds * 1000000 + c.micros : Nat)
    Offset.ofMicros? (if negative then -micros else micros)

/-- The offset at the end of a text, from its sign on. -/
def readOffset : List Char → Option Offset
  | 'Z' :: rest => if front rest == '\x00' then some .utc else none
  | sign :: rest =>
    (readClock (byteLength rest) rest).bind fun c =>
      if c.leftover then none else offsetOf (sign == '-') c
  | [] => none

/-- A time of day with an optional offset. Without an offset nothing may be left over. -/
def readTime (cs : List Char) : Option (Time × Option Offset) :=
  let own := cs.takeWhile fun c => !startsOffset c
  let rest := cs.drop own.length
  (readClock (byteLength own) cs).bind fun c =>
    (Time.ofParts? c.hours c.minutes c.seconds c.micros).bind fun t =>
      if rest.isEmpty then (if c.leftover then none else some (t, none))
      else (readOffset rest).map fun o => (t, some o)

/-- A text that is a date-time. A date alone is its midnight. -/
def readDateTime (cs : List Char) : Option DateTime :=
  let stop := dateEnd cs
  (readDatePart stop cs).bind fun date =>
    match cs.drop stop with
    | [] => some ⟨date, .midnight, none⟩
    | _ :: rest => (readTime rest).map fun (time, offset) => ⟨date, time, offset⟩

/-- A number in at least `width` digits, zeros in front. -/
def padded (width n : Nat) : String :=
  let ds := Nat.toDigits 10 n
  String.ofList (List.replicate (width - ds.length) '0' ++ ds)

/-- A date as text. -/
def dateText (d : Date) : String :=
  padded 4 d.year ++ "-" ++ padded 2 d.month ++ "-" ++ padded 2 d.day

/-- A number of microseconds as a fraction of a second, nothing if it is zero. -/
def fractionText (micros : Nat) : String :=
  if micros = 0 then "" else "." ++ padded 6 micros

/-- A time of day as text. -/
def timeText (t : Time) : String :=
  padded 2 t.hour ++ ":" ++ padded 2 t.minute ++ ":" ++ padded 2 t.second ++ fractionText t.micro

/-- An offset as text: seconds and their fraction only when they are not zero. -/
def offsetText (o : Offset) : String :=
  let n := o.micros.natAbs
  let seconds := n / 1000000
  (if o.micros < 0 then "-" else "+") ++ padded 2 (seconds / 3600) ++ ":" ++
    padded 2 (seconds / 60 % 60) ++
    (if n % 60000000 = 0 then ""
     else ":" ++ padded 2 (seconds % 60) ++ fractionText (n % 1000000))

/-- A date-time as text. -/
def dateTimeText (d : DateTime) : String :=
  dateText d.date ++ "T" ++ timeText d.time ++ (d.offset.map offsetText).getD ""

end SchemaBinding.Calendar.Iso
