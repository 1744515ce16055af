import SchemaBinding.Text.Base64
import SchemaBinding.Text.LowerCase
import SchemaBinding.Yaml.Scalar
import SchemaBinding.Yaml.Tag

/-!
# Values of scalars

A scalar of which nothing is said has the value that its form gives it. One that is said to be of a
type is read as that type, more freely than its form alone would allow: numbers may be written with
the digits of every script and with blanks around them. A text that is not of the type is a fault.

Specification: §12.
-/

namespace SchemaBinding.Yaml

open Text

/-- The words for truth values, in lower case. -/
def truthWords : List (String × Bool) := [
  ("yes", true), ("no", false), ("true", true), ("false", false), ("on", true), ("off", false)]

/-- The truth value that a text is said to be. -/
def truthOf (s : String) : Except DocumentFault Bool :=
  let word := lower s
  match truthWords.find? fun w => w.1 == word with
  | some w => .ok w.2
  | none => .error (.word word)

/-- The digits of a number in a base, after the mark of the base if there is one. -/
def afterBaseMark (base : Nat) : List Char → List Char
  | '0' :: mark :: rest =>
    if [(2, 'b'), (8, 'o'), (16, 'x')].contains (base, asciiLower mark) then rest
    else '0' :: mark :: rest
  | cs => cs

/-- The integer that a text writes in a base. -/
def integerIn (base : Nat) (cs : List Char) : Except DocumentFault Int :=
  let (negative, rest) := Numeral.readSign (Numeral.normalise (String.ofList cs))
  let rest := afterBaseMark base rest
  let ds := rest.takeWhile (isDigitIn base)
  if base = 10 && Numeral.digitLimit < ds.length then .error (.value (.numeral ds.length))
  else if ds.isEmpty || ds.length < rest.length then
    .error (.value (.integer base (String.ofList cs)))
  else .ok (Double.signed negative (valueIn base ds))

/-- The integer that a text without a sign is said to be. -/
def unsignedOf (cs : List Char) : Except DocumentFault Int :=
  match cs with
  | [] => .error .emptyNumber
  | ['0'] => .ok 0
  | '0' :: 'b' :: ds => integerIn 2 ds
  | '0' :: 'x' :: ds => integerIn 16 ds
  | '0' :: _ => integerIn 8 cs
  | _ => do
    let places ← (splitColons cs).mapM (integerIn 10)
    return places.foldl (fun n place => 60 * n + place) 0

/-- The integer that a text is said to be. -/
def integerOf (s : String) : Except DocumentFault Int := do
  let (negative, rest) := Numeral.readSign (withoutGaps s.toList)
  let n ← unsignedOf rest
  return if negative then -n else n

/-- The floating-point number that a text writes. -/
def doubleIn (cs : List Char) : Except DocumentFault Double :=
  let s := String.ofList cs
  match Numeral.double? s with
  | some x => .ok x
  | none => .error (.value (.decimal s))

/-- The floating-point number that a text is said to be. -/
def doubleOf (s : String) : Except DocumentFault Double := do
  let cs := (lower (String.ofList (withoutGaps s.toList))).toList
  if cs.isEmpty then throw .emptyNumber
  let (negative, rest) := Numeral.readSign cs
  let word := String.ofList rest
  if word == ".nan" then return notANumber
  let x ←
    if word == ".inf" then pure (.infinite false)
    else if rest.contains ':' then do
      let places ← (splitColons rest).mapM doubleIn
      sumSixtieths (.zero false) 1 places.reverse
    else doubleIn rest
  return if negative then x.neg else x

/-- The bytes that a text is said to be. -/
def bytesOf (s : String) : Except DocumentFault (List UInt8) :=
  let cs := s.toList
  if cs.all isAscii then wellFormed (Base64.decode? cs) else .error .malformed

/-- The date or the date-time that a text is said to be. -/
def momentOf (s : String) : Except DocumentFault Value :=
  (looseDate? s.toList <|> dateTime? s.toList).getD (.error .formless)

/-- The value of a scalar. -/
def scalarValue (tag : Tag) (s : String) : Except DocumentFault Value :=
  match tag with
  | .implied => plainValue s
  | .null => .ok .null
  | .bool => (truthOf s).map .bool
  | .int => (integerOf s).map .int
  | .float => (doubleOf s).map .float
  | .str => .ok (.str s)
  | .binary => (bytesOf s).map .bytes
  | .timestamp => momentOf s
  | _ => .error .malformed

end SchemaBinding.Yaml
