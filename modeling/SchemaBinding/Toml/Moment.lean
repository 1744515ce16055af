import SchemaBinding.Calendar.Iso
import SchemaBinding.Text.Radix
import SchemaBinding.Value.Basic

/-!
# Dates and times of a TOML document

A date, a time of day, or both joined by `T` or a space; the two together may carry an offset from
UTC. Every unit has its full width, and what is out of range is no date or time at all.

Specification: §11.
-/

namespace SchemaBinding.Toml

open Calendar Text

/-- A number of two digits after a mark. -/
def readUnit (mark : Char) : List Char → Option (Nat × List Char)
  | c :: rest => if c == mark then Iso.readDigits 2 rest else none
  | [] => none

/-- The microseconds of a fraction of a second; digits after the sixth are passed over. -/
def takeMicros (cs : List Char) : Nat × List Char :=
  match cs with
  | '.' :: rest =>
    let ds := rest.takeWhile isAsciiDigit
    if ds.isEmpty then (0, cs)
    else
      let six := ds.take 6
      (valueIn 10 six * Nat.pow 10 (6 - six.length), rest.drop ds.length)
  | _ => (0, cs)

/-- A time of day. -/
def readTime (cs : List Char) : Option (Time × List Char) := do
  let (hour, rest) ← Iso.readDigits 2 cs
  let (minute, rest) ← readUnit ':' rest
  let (second, rest) ← readUnit ':' rest
  let (micro, rest) := takeMicros rest
  let t ← Time.ofParts? hour minute second micro
  return (t, rest)

/-- An offset from UTC, if one follows. -/
def takeOffset (cs : List Char) : Option Offset × List Char :=
  match cs with
  | c :: rest =>
    if c == 'Z' || c == 'z' then (some .utc, rest)
    else if c == '+' || c == '-' then
      let found : Option (Offset × List Char) := do
        let (hours, rest) ← Iso.readDigits 2 rest
        let (minutes, rest) ← readUnit ':' rest
        let t ← Time.ofParts? hours minutes 0 0
        let o ← Offset.ofMicros? (Double.signed (c == '-') t.micros)
        return (o, rest)
      match found with
      | some (o, rest) => (some o, rest)
      | none => (none, cs)
    else (none, cs)
  | [] => (none, cs)

/-- A date. -/
def readDate (cs : List Char) : Option (Date × List Char) := do
  let (year, rest) ← Iso.readDigits 4 cs
  let (month, rest) ← readUnit '-' rest
  let (day, rest) ← readUnit '-' rest
  let d ← Date.ofParts? year month day
  return (d, rest)

/-- What a date becomes with the time that may follow it. -/
def withTime (d : Date) (cs : List Char) : Value × List Char :=
  match cs with
  | c :: rest =>
    if c == 'T' || c == 't' || c == ' ' then
      match readTime rest with
      | some (t, rest) =>
        let (o, rest) := takeOffset rest
        (.dateTime ⟨d, t, o⟩, rest)
      | none => (.date d, cs)
    else (.date d, cs)
  | [] => (.date d, cs)

/-- A date, a date with a time, or a time of day. -/
def readMoment (cs : List Char) : Option (Value × List Char) :=
  match readDate cs with
  | some (d, rest) => some (withTime d rest)
  | none => (readTime cs).map fun (t, rest) => (.time t, rest)

end SchemaBinding.Toml
