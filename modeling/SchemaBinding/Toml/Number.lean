import SchemaBinding.Document
import SchemaBinding.Number.Numeral
import SchemaBinding.Text.Radix
import SchemaBinding.Value.Basic

/-!
# Numbers of a TOML document

Integers are decimal, without leading zeros, or unsigned in base sixteen, eight or two. A decimal
with a fraction or an exponent is a floating-point number, and so are infinity and not-a-number by
name. Single underscores may stand between digits.

Specification: §11.
-/

namespace SchemaBinding.Toml

open Text

/-- The letters that follow a zero and name a base. -/
def bases : List (Char × Nat) := [('x', 16), ('o', 8), ('b', 2)]

/-- An integer in a named base. -/
def readBased : List Char → Option (Value × List Char)
  | '0' :: letter :: rest => do
    let base ← (bases.find? fun b => b.1 == letter).map Prod.snd
    match takeDigitGroups base false rest with
    | ([], _) => none
    | (ds, rest) => some (.int (valueIn base ds), rest)
  | _ => none

/-- The digits of a decimal before any point: a single zero, or digits that do not start with one.
-/
def takeWhole : List Char → List Char × List Char
  | '0' :: rest => (['0'], rest)
  | cs => takeDigitGroups 10 false cs

/-- The digits of a fraction after a point; without one there are none. -/
def takeFraction : List Char → List Char × List Char
  | '.' :: rest =>
    match takeDigitGroups 10 false rest with
    | ([], _) => ([], '.' :: rest)
    | r => r
  | cs => ([], cs)

/-- The exponent of a decimal, if it has one. -/
def takeExponent (cs : List Char) : Option Int × List Char :=
  match cs with
  | e :: rest =>
    if e == 'e' || e == 'E' then
      let (negative, ds) := Numeral.readSign rest
      match takeDigitGroups 10 false ds with
      | ([], _) => (none, cs)
      | (ds, rest) => (some (Double.signed negative (valueIn 10 ds)), rest)
    else (none, cs)
  | [] => (none, cs)

/-- A decimal with an optional sign. -/
def readDecimal (cs : List Char) : Except DocumentFault (Option (Value × List Char)) :=
  let (negative, rest) := Numeral.readSign cs
  let (whole, rest) := takeWhole rest
  let (fraction, rest) := takeFraction rest
  let (exponent, rest) := takeExponent rest
  if whole.isEmpty then .ok none
  else if fraction.isEmpty && exponent.isNone then
    if Numeral.digitLimit < whole.length then .error (.value (.numeral whole.length))
    else .ok (some (.int (Double.signed negative (valueIn 10 whole)), rest))
  else
    let digits := whole ++ fraction
    .ok (some (.float (Numeral.nearest negative (valueIn 10 digits) digits.length
      (exponent.getD 0 - fraction.length)), rest))

/-- A number named by a word. -/
def readNamed (cs : List Char) : Option (Value × List Char) :=
  let (negative, rest) := Numeral.readSign cs
  let word := rest.take 3
  if word == ['i', 'n', 'f'] then some (.float (.infinite negative), rest.drop 3)
  else if word == ['n', 'a', 'n'] then some (.float (.nan none), rest.drop 3)
  else none

/-- A number. -/
def readNumber (cs : List Char) : Except DocumentFault (Value × List Char) :=
  match readBased cs with
  | some r => .ok r
  | none => do
    match ← readDecimal cs with
    | some r => return r
    | none => wellFormed (readNamed cs)

end SchemaBinding.Toml
