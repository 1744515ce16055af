import SchemaBinding.Value.Basic
import SchemaBinding.Calendar.Iso
import SchemaBinding.Number.Shortest
import SchemaBinding.Text.Quoted

/-!
# Values in messages

How a value is shown inside a message. An integer of more than 4300 digits cannot be shown, and
neither can a value whose text has one. The text of a record has its attributes only if instances of
its class are compared by them; any other has just the name of the class.

Specification: §7.
-/

namespace SchemaBinding.Value

open Calendar

/-- The largest number of digits of an integer that can be shown. -/
def digitLimit : Nat := 4300

/-- Whether an integer has few enough digits to be shown. -/
def intPrintable (i : Int) : Bool := i.natAbs < Nat.pow 10 digitLimit

mutual

/-- Whether a value can be shown. -/
def printable (v : Value) : Bool :=
  match v with
  | .int i => intPrintable i
  | .list items _ => printableItems items
  | .tuple items => printableItems items
  | .dict entries => printableEntries entries
  | .record cls attrs => !cls.structural || printableAttrs attrs
  | _ => true
termination_by structural v

/-- Whether every item of a list can be shown. -/
def printableItems (vs : List Value) : Bool :=
  match vs with
  | [] => true
  | v :: vs => printable v && printableItems vs
termination_by structural vs

/-- Whether a key and its value can be shown. -/
def printableEntry (e : Value × Value) : Bool :=
  match e with
  | (k, v) => printable k && printable v
termination_by structural e

/-- Whether every entry of a dictionary can be shown. -/
def printableEntries (es : List (Value × Value)) : Bool :=
  match es with
  | [] => true
  | e :: es => printableEntry e && printableEntries es
termination_by structural es

/-- Whether an attribute can be shown. -/
def printableAttr (a : String × Value) : Bool :=
  match a with
  | (_, v) => printable v
termination_by structural a

/-- Whether every attribute of a record can be shown. -/
def printableAttrs (as : List (String × Value)) : Bool :=
  match as with
  | [] => true
  | a :: as => printableAttr a && printableAttrs as
termination_by structural as

end

/-- Numbers between commas. -/
def numbersText (ns : List Nat) : String := ", ".intercalate (ns.map toString)

/-- The arguments of a time of day: seconds only if they or the microseconds are not zero, and
microseconds only if they are not. -/
def timeArguments (t : Time) : List Nat :=
  [t.hour.val, t.minute.val] ++
    (if t.micro.val ≠ 0 then [t.second.val, t.micro.val]
     else if t.second.val ≠ 0 then [t.second.val]
     else [])

/-- A length of time, split into days, seconds and microseconds of which only the days may be
negative; parts that are zero are left out. -/
def durationText (micros : Int) : String :=
  let days := micros / 86400000000
  let seconds := micros % 86400000000 / 1000000
  let rest := micros % 1000000
  let parts :=
    (if days ≠ 0 then ["days=" ++ toString days] else []) ++
      (if seconds ≠ 0 then ["seconds=" ++ toString seconds] else []) ++
      (if rest ≠ 0 then ["microseconds=" ++ toString rest] else [])
  "datetime.timedelta(" ++ ", ".intercalate parts ++ ")"

/-- An offset from UTC. -/
def offsetText (o : Offset) : String :=
  if o.micros = 0 then "datetime.timezone.utc"
  else "datetime.timezone(" ++ durationText o.micros ++ ")"

/-- A date. -/
def dateText (d : Date) : String :=
  "datetime.date(" ++ numbersText [d.year, d.month, d.day] ++ ")"

/-- A time of day. -/
def timeText (t : Time) : String := "datetime.time(" ++ numbersText (timeArguments t) ++ ")"

/-- A date-time. -/
def dateTimeText (d : DateTime) : String :=
  let numbers := [d.date.year, d.date.month, d.date.day] ++ timeArguments d.time
  "datetime.datetime(" ++ numbersText numbers
    ++ (match d.offset with
      | some o => ", tzinfo=" ++ offsetText o
      | none => "") ++ ")"

mutual

/-- A value as text. -/
def text (v : Value) : String :=
  match v with
  | .null => "None"
  | .bool b => if b then "True" else "False"
  | .int i => toString i
  | .float x => x.text
  | .str s => Text.quoted s
  | .list items _ => "[" ++ ", ".intercalate (itemTexts items) ++ "]"
  | .tuple items =>
    match itemTexts items with
    | [t] => "(" ++ t ++ ",)"
    | ts => "(" ++ ", ".intercalate ts ++ ")"
  | .dict entries => "\x7b" ++ ", ".intercalate (entryTexts entries) ++ "\x7d"
  | .bytes bs => Text.quotedBytes bs
  | .dateTime d => dateTimeText d
  | .date d => dateText d
  | .time t => timeText t
  | .record cls attrs =>
    if cls.structural then cls.name ++ "(" ++ ", ".intercalate (attrTexts attrs) ++ ")"
    else "<" ++ cls.name ++ " object>"
termination_by structural v

/-- The items of a list as texts. -/
def itemTexts (vs : List Value) : List String :=
  match vs with
  | [] => []
  | v :: vs => text v :: itemTexts vs
termination_by structural vs

/-- A key and its value as text. -/
def entryText (e : Value × Value) : String :=
  match e with
  | (k, v) => text k ++ ": " ++ text v
termination_by structural e

/-- The entries of a dictionary as texts. -/
def entryTexts (es : List (Value × Value)) : List String :=
  match es with
  | [] => []
  | e :: es => entryText e :: entryTexts es
termination_by structural es

/-- An attribute as text. -/
def attrText (a : String × Value) : String :=
  match a with
  | (name, v) => name ++ "=" ++ text v
termination_by structural a

/-- The attributes of a record as texts. -/
def attrTexts (as : List (String × Value)) : List String :=
  match as with
  | [] => []
  | a :: as => attrText a :: attrTexts as
termination_by structural as

end

/-- A value as the words of a message: a text stands for itself, dates and times are in their ISO
form with a space between date and time, and everything else is as in `text`. -/
def words : Value → String
  | .str s => s
  | .date d => Iso.dateText d
  | .time t => Iso.timeText t
  | .dateTime d =>
    Iso.dateText d.date ++ " " ++ Iso.timeText d.time ++ (d.offset.map Iso.offsetText).getD ""
  | v => v.text

end SchemaBinding.Value
