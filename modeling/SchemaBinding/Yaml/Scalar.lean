import SchemaBinding.Calendar.Iso
import SchemaBinding.Document
import SchemaBinding.Number.Numeral
import SchemaBinding.Text.Radix
import SchemaBinding.Value.Basic

/-!
# Values of plain scalars

A plain scalar is null, a boolean, an integer, a floating-point number, a date or a date-time if it
has the form of one, and otherwise a text. Integers may be written in base two, eight, sixteen and
sixty, floating-point numbers in base sixty, and underscores are passed over. What has the form of a
date or a number but names none is a fault.

Specification: §12.
-/

namespace SchemaBinding.Yaml

open Text Calendar

/-- The texts that mean that there is no value. -/
def nulls : List String := ["", "~", "null", "Null", "NULL"]

/-- The texts that mean true. -/
def trues : List String := ["yes", "Yes", "YES", "true", "True", "TRUE", "on", "On", "ON"]

/-- The texts that mean false. -/
def falses : List String := ["no", "No", "NO", "false", "False", "FALSE", "off", "Off", "OFF"]

/-- Whether a character is a digit or an underscore. -/
def isDigitOrGap (base : Nat) (c : Char) : Bool := isDigitIn base c || c == '_'

/-- A text without its underscores. -/
def withoutGaps (cs : List Char) : List Char := cs.filter fun c => c != '_'

/-- The number that decimal digits write, if there are not too many of them. -/
def decimal (ds : List Char) : Except DocumentFault Nat :=
  if Numeral.digitLimit < ds.length then .error (.value (.numeral ds.length))
  else .ok (valueIn 10 ds)

/-- The number that the digits of a base write, of which there must be one. -/
def based (base : Nat) (ds : List Char) : Except DocumentFault Nat :=
  if ds.isEmpty then .error (.value (.integer base "")) else .ok (valueIn base ds)

/-- Whether a character is a decimal digit other than zero. -/
def isLeadingDigit (c : Char) : Bool := isAsciiDigit c && c != '0'

/-- Whether characters are the digits of one place in base sixty: a digit, or two below sixty. -/
def isSixtieth : List Char → Bool
  | [d] => isAsciiDigit d
  | [d, e] => '0' ≤ d && d ≤ '5' && isAsciiDigit e
  | _ => false

/-- The parts of a text between colons. -/
def splitColons (cs : List Char) : List (List Char) :=
  cs.foldr (fun c parts =>
    match c, parts with
    | ':', parts => [] :: parts
    | c, part :: parts => (c :: part) :: parts
    | c, [] => [[c]]) [[]]

/-- An integer without its sign, or `none` if the text has no such form. -/
def magnitude? (cs : List Char) : Option (Except DocumentFault Nat) :=
  let digits (base : Nat) (ds : List Char) : Option (Except DocumentFault Nat) :=
    if !ds.isEmpty && ds.all (isDigitOrGap base) then some (based base (withoutGaps ds)) else none
  match cs with
  | ['0'] => some (.ok 0)
  | '0' :: 'b' :: ds => digits 2 ds
  | '0' :: 'x' :: ds => digits 16 ds
  | '0' :: ds => if ds.all (isDigitOrGap 8) then some (.ok (valueIn 8 (withoutGaps ds))) else none
  | _ =>
    match splitColons cs with
    | [] => none
    | first :: more =>
      if first.head?.any isLeadingDigit && first.all (isDigitOrGap 10) && more.all isSixtieth then
        some (do
          let n ← decimal (withoutGaps first)
          return more.foldl (fun n part => 60 * n + valueIn 10 part) n)
      else none

/-- An integer. -/
def int? (cs : List Char) : Option (Except DocumentFault Value) :=
  let (negative, rest) := Numeral.readSign cs
  (magnitude? rest).map fun n => n.map fun n => .int (Double.signed negative n)

/-- A floating-point number in base ten: digits before the point, which may be missing if there is
no sign and a digit follows, digits after it, and an exponent with a sign. -/
def isDecimal (signed : Bool) (cs : List Char) : Bool :=
  let whole := cs.takeWhile (isDigitOrGap 10)
  match cs.dropWhile (isDigitOrGap 10) with
  | '.' :: rest =>
    let leads (ds : List Char) : Bool := ds.head?.any isAsciiDigit
    let exponentOk :=
      match rest.dropWhile (isDigitOrGap 10) with
      | [] => true
      | e :: sign :: ds =>
        (e == 'e' || e == 'E') && (sign == '+' || sign == '-') && !ds.isEmpty && ds.all isAsciiDigit
      | _ => false
    exponentOk && (if whole.isEmpty then !signed && leads rest else leads whole)
  | _ => false

/-- The places of a floating-point number in base sixty, the last with a point, least first. -/
def sixtieths? (cs : List Char) : Option (List (List Char)) :=
  match (splitColons cs).reverse with
  | last :: more =>
    let whole := last.takeWhile isAsciiDigit
    match last.dropWhile isAsciiDigit, more.reverse with
    | '.' :: fraction, first :: middle =>
      if isSixtieth whole && fraction.all (isDigitOrGap 10) && middle.all isSixtieth &&
          first.head?.any isAsciiDigit && first.all (isDigitOrGap 10) then some (last :: more)
      else none
    | _, _ => none
  | [] => none

/-- The sum of the places of a number in base sixty, least first, each times its power of sixty, and
rounded at every step. The powers of sixty must be within the floating-point numbers. -/
def sumSixtieths (total : Double) (power : Nat) : List Double → Except DocumentFault Double
  | [] => .ok total
  | digit :: digits =>
    match Double.ofInt? power with
    | none => .error (.overflow .double)
    | some weight => sumSixtieths (total.add (digit.mul weight)) (60 * power) digits

/-- The number that the text of a place writes. -/
def placeValue (cs : List Char) : Double :=
  (Numeral.double? (String.ofList (withoutGaps cs))).getD (.zero false)

/-- Not-a-number, which is the same one wherever it is written in a document. -/
def notANumber : Double := .nan (some 0)

/-- A floating-point number. -/
def float? (cs : List Char) : Option (Except DocumentFault Double) :=
  let (negative, rest) := Numeral.readSign cs
  let signed := rest.length != cs.length
  let word := String.ofList rest
  if [".inf", ".Inf", ".INF"].contains word then some (.ok (.infinite negative))
  else if !signed && [".nan", ".NaN", ".NAN"].contains word then some (.ok notANumber)
  else if isDecimal signed rest then
    (Numeral.double? (String.ofList (withoutGaps cs))).map .ok
  else (sixtieths? rest).map fun parts => do
    let total ← sumSixtieths (.zero false) 1 (parts.map placeValue)
    return if negative then total.neg else total

/-- The number that one or two digits at the front of a text write, and the rest. -/
def takeNumber (cs : List Char) : Option (Nat × List Char) :=
  let ds := (cs.take 2).takeWhile isAsciiDigit
  if ds.isEmpty then none else some (valueIn 10 ds, cs.drop ds.length)

/-- The text after a character that must come first. -/
def after? (c : Char) : List Char → Option (List Char)
  | d :: rest => if d == c then some rest else none
  | [] => none

/-- The microseconds of a fraction of a second, if one follows, and the rest. -/
def takeFraction (cs : List Char) : Nat × List Char :=
  match cs with
  | '.' :: rest =>
    let ds := rest.takeWhile isAsciiDigit
    let six := ds.take 6
    (valueIn 10 six * Nat.pow 10 (6 - six.length), rest.drop ds.length)
  | _ => (0, cs)

/-- The offset that ends a date-time, in microseconds, if there is one. -/
def zone? (cs : List Char) : Option (Option Int) :=
  match cs with
  | [] => some none
  | _ =>
    match cs.dropWhile fun c => c == ' ' || c == '\t' with
    | ['Z'] => some (some 0)
    | sign :: rest =>
      if sign == '+' || sign == '-' then do
        let (hours, rest) ← takeNumber rest
        let minutes ←
          if rest.isEmpty then some 0
          else do
            let (minutes, rest) ← Iso.readDigits 2 (← after? ':' rest)
            if rest.isEmpty then some minutes else none
        return some (Double.signed (sign == '-') ((hours * 60 + minutes) * 60000000))
      else none
    | [] => none

/-- The text after the mark or the blanks between a date and a time. -/
def afterJoin? (cs : List Char) : Option (List Char) :=
  match cs with
  | [] => none
  | c :: rest =>
    if c == 'T' || c == 't' then some rest
    else if c == ' ' || c == '\t' then some (rest.dropWhile fun c => c == ' ' || c == '\t')
    else none

/-- A fault of a date or time. -/
def ranged {α : Type} : Except RangeFault α → Except DocumentFault α
  | .ok a => .ok a
  | .error f => .error (.value (.range f))

/-- A date alone: every part has its full width. -/
def date? (cs : List Char) : Option (Except DocumentFault Value) := do
  let (year, rest) ← Iso.readDigits 4 cs
  let (month, rest) ← Iso.readDigits 2 (← after? '-' rest)
  let (day, rest) ← Iso.readDigits 2 (← after? '-' rest)
  if rest.isEmpty then some (ranged ((dateOf year month day).map Value.date)) else none

/-- A date alone, whose month and day may be written with one digit. -/
def looseDate? (cs : List Char) : Option (Except DocumentFault Value) := do
  let (year, rest) ← Iso.readDigits 4 cs
  let (month, rest) ← takeNumber (← after? '-' rest)
  let (day, rest) ← takeNumber (← after? '-' rest)
  if rest.isEmpty then some (ranged ((dateOf year month day).map Value.date)) else none

/-- A date and a time of day, with an offset or naive. -/
def dateTime? (cs : List Char) : Option (Except DocumentFault Value) := do
  let (year, rest) ← Iso.readDigits 4 cs
  let (month, rest) ← takeNumber (← after? '-' rest)
  let (day, rest) ← takeNumber (← after? '-' rest)
  let (hour, rest) ← takeNumber (← afterJoin? rest)
  let (minute, rest) ← Iso.readDigits 2 (← after? ':' rest)
  let (second, rest) ← Iso.readDigits 2 (← after? ':' rest)
  let (micro, rest) := takeFraction rest
  let zone ← zone? rest
  return ranged do
    let offset ← zone.mapM offsetOf
    let date ← dateOf year month day
    let time ← timeOf hour minute second micro
    return .dateTime ⟨date, time, offset⟩

/-- The marks that stand for no value of their own. -/
def reservedWords : List String := ["=", "<<"]

/-- The value of a plain scalar. -/
def plainValue (s : String) : Except DocumentFault Value :=
  let cs := s.toList
  if nulls.contains s then .ok .null
  else if trues.contains s then .ok (.bool true)
  else if falses.contains s then .ok (.bool false)
  else if reservedWords.contains s then .error .malformed
  else
    match int? cs <|> date? cs <|> dateTime? cs with
    | some v => v
    | none =>
      match float? cs with
      | some x => x.map .float
      | none => .ok (.str s)

end SchemaBinding.Yaml
