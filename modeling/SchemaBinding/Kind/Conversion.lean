import SchemaBinding.Calendar.Epoch
import SchemaBinding.Calendar.Iso
import SchemaBinding.Kind.Basic
import SchemaBinding.LooseEquality

/-!
# Conversions

How a value is converted to a primitive kind or to a date. A primitive conversion keeps the JSON
kind of the value: an integral floating-point number may become an integer and an integer a
floating-point number, but no text is read as a number and nothing is turned into a text. Dates are
read from dates, from numbers (milliseconds since the start of 1970 in UTC) and from ISO 8601 texts.

Specification: §4.2, step 4.
-/

namespace SchemaBinding

open Calendar

namespace Value

/-- The text that bytes below 128 write. -/
def asciiText? (bs : List UInt8) : Option String :=
  if bs.all (·.toNat < 128) then some (String.ofList (bs.map fun b => Char.ofNat b.toNat)) else none

/-- The integer type called with a value: a floating-point number loses its fractional part, and a
text or bytes are read as a numeral (spec §4.2, step 4). -/
def toInteger? : Value → Option Int
  | .bool b => some (if b then 1 else 0)
  | .int i => some i
  | .float x => x.truncated?
  | .str s => Numeral.int? s
  | .bytes bs => (asciiText? bs).bind Numeral.int?
  | _ => none

/-- The floating-point type called with a value: an integer becomes the nearest number unless it is
too large, and a text or bytes are read as a numeral (spec §4.2, step 4). -/
def toDouble? : Value → Option Double
  | .bool b => some (if b then .one else .zero false)
  | .int i => Double.ofInt? i
  | .float x => some x
  | .str s => Numeral.double? s
  | .bytes bs => (asciiText? bs).bind Numeral.double?
  | _ => none

/-- Whether a value counts as true. -/
def truth : Value → Bool
  | .null => false
  | .bool b => b
  | .int i => i != 0
  | .float x => !x.same (.zero false)
  | .str s => !s.isEmpty
  | .list items _ => !items.isEmpty
  | .tuple items => !items.isEmpty
  | .dict entries => !entries.isEmpty
  | .bytes bs => !bs.isEmpty
  | _ => true

end Value

namespace Primitive

/-- What a primitive kind makes of a value, if anything. Texts are made of all that can be shown and
truth values of everything; an integer must equal the value that it is made of
(spec §4.2, step 4). -/
def coerce : Primitive → Value → Option Value
  | .str, v => if v.printable then some (.str v.words) else none
  | .int, v => (v.toInteger?.filter fun i => (Value.int i).eq v).map .int
  | .float, v => v.toDouble?.map .float
  | .bool, v => some (.bool v.truth)
  | .number, .int i => some (.int i)
  | .number, .float x => some (.float x)
  | .number, _ => none

/-- A value converted to a primitive kind, or what was expected instead of it: the kind itself if
nothing can be made of the value, and its JSON kind if what is made of it has another one than the
value has (spec §4.2, step 4). -/
def convert (p : Primitive) (raw : Value) : Except String Value :=
  match p.coerce raw with
  | none => .error p.name
  | some v => if v.kind = raw.kind then .ok v else .error p.jsonKind.name

end Primitive

/-- A date with or without a time of day (spec §4.2, step 4). -/
inductive Moment where
  | date (d : Date)
  | dateTime (d : DateTime)

namespace Moment

/-- The moment so many milliseconds after the start of 1970 (spec §4.2, step 4). -/
def ofEpoch (millis : Double) : Option Moment :=
  if millis.isFinite then (Epoch.ofSeconds? (millis.divNat 1000)).map .dateTime else none

/-- A text with a trailing `Z` or `z` written as the offset zero. -/
def expandZulu (cs : List Char) : List Char :=
  match cs.getLast? with
  | some 'Z' => cs.dropLast ++ "+00:00".toList
  | some 'z' => cs.dropLast ++ "+00:00".toList
  | _ => cs

/-- The moment that a text writes. Where a date is asked for, a date without a time is tried first
(spec §4.2, step 4). -/
def ofText (target : DateTarget) (s : String) : Option Moment :=
  let cs := Text.stripList s.toList
  if cs.isEmpty then none
  else
    let cs := expandZulu cs
    let read := (Iso.readDateTime cs).map .dateTime
    match target with
    | .dateTime => read
    | .date =>
      match Iso.readDate cs with
      | some d => some (.date d)
      | none => read

/-- The moment that a value stands for (spec §4.2, step 4). -/
def ofValue (target : DateTarget) : Value → Except Fault (Option Moment)
  | .dateTime d => .ok (some (.dateTime d))
  | .date d => .ok (some (.date d))
  | .int i => (nearestDouble i).map ofEpoch
  | .float x => .ok (ofEpoch x)
  | .str s => .ok (ofText target s)
  | _ => .ok none

/-- A moment as a date, or as a date-time that is not naive (spec §4.2, step 4). -/
def toValue : DateTarget → Moment → Value
  | .date, .date d => .date d
  | .date, .dateTime d => .date d.date
  | .dateTime, .date d => .dateTime (.midnightUtc d)
  | .dateTime, .dateTime d => .dateTime d.assumeUtc

end Moment

/-- A value read as a date; nothing if it is none. An integer beyond the floating-point numbers is a
fault (spec §4.2, step 4). -/
def parseDate (value : Value) (target : DateTarget) : Except Fault (Option Value) :=
  (Moment.ofValue target value).map fun m => m.map (Moment.toValue target)

end SchemaBinding
