import SchemaBinding.Number.Double
import SchemaBinding.Text.Blank
import SchemaBinding.Text.LowerCase
import SchemaBinding.Text.Numeric
import SchemaBinding.Text.Radix

/-!
# Reading numerals

Numbers written as text. Blanks around a numeral are ignored, digits of every script count, and
single underscores may stand between digits. A floating-point numeral is a decimal with an optional
fraction and exponent, or a name of infinity or of not-a-number in any case, and reads as the
nearest number.

Specification: §4.2, step 4, and §4.3.
-/

namespace SchemaBinding.Numeral

open SchemaBinding.Text

/-- A digit of any script as its ASCII digit, any other blank beyond ASCII as a space; other
characters are kept. -/
def normalChar (c : Char) : Char :=
  if isAscii c then c
  else match decimalDigit? c with
    | some d => Nat.digitChar d
    | none => if isBlank c then ' ' else c

/-- The blanks that may surround a numeral once it has been normalised. -/
def isPlainBlank (c : Char) : Bool :=
  [' ', '\t', '\n', '\x0b', '\x0c', '\r'].contains c

/-- A list of characters without the plain blanks at either end. -/
def stripPlain (cs : List Char) : List Char :=
  ((cs.dropWhile isPlainBlank).reverse.dropWhile isPlainBlank).reverse

/-- A numeral ready for reading: ASCII digits, and no plain blanks around it. -/
def normalise (s : String) : List Char := stripPlain (s.toList.map normalChar)

/-- The characters without the underscores between digits, or `none` if an underscore stands
elsewhere; `afterDigit` tells whether a digit came just before. -/
def dropUnderscores (afterDigit : Bool) : List Char → Option (List Char)
  | [] => some []
  | '_' :: rest =>
    match afterDigit, rest with
    | true, c :: _ => if isAsciiDigit c then dropUnderscores false rest else none
    | _, _ => none
  | c :: rest => (dropUnderscores (isAsciiDigit c) rest).map (c :: ·)

/-- Splits a sign from the front: whether it is a minus, and the rest. -/
def readSign : List Char → Bool × List Char
  | '-' :: rest => (true, rest)
  | '+' :: rest => (false, rest)
  | cs => (false, cs)

/-- The exponent part of a numeral: none at all, or a letter, a sign and at least one digit. -/
def readExponent : List Char → Option Int
  | [] => some 0
  | e :: rest =>
    if e == 'e' || e == 'E' then
      let (negative, ds) := readSign rest
      if ds.isEmpty || !ds.all isAsciiDigit then none
      else some (Double.signed negative (valueIn 10 ds))
    else none

/-- The number nearest to `digits · 10^exponent`. A power of ten far outside the range of the format
is not computed. -/
def nearest (negative : Bool) (digits : Nat) (count : Nat) (exponent : Int) : Double :=
  if digits = 0 then .zero negative
  else if 400 < exponent then .infinite negative
  else if exponent + count < -400 then .zero negative
  else Double.ofRatio negative (digits * Nat.pow 10 exponent.toNat) (Nat.pow 10 (-exponent).toNat)

/-- A decimal without its sign: digits with at most one point and at least one digit, then an
optional exponent. -/
def readDecimal (negative : Bool) (cs : List Char) : Option Double :=
  let whole := cs.takeWhile isAsciiDigit
  let afterWhole := cs.dropWhile isAsciiDigit
  let (fraction, rest) :=
    match afterWhole with
    | '.' :: r => (r.takeWhile isAsciiDigit, r.dropWhile isAsciiDigit)
    | r => ([], r)
  let digits := whole ++ fraction
  if digits.isEmpty then none
  else (readExponent rest).map fun e =>
    nearest negative (valueIn 10 digits) digits.length (e - fraction.length)

/-- A floating-point numeral without blanks around it or underscores in it. -/
def readDouble (cs : List Char) : Option Double :=
  let (negative, rest) := readSign cs
  let name := String.ofList (rest.map asciiLower)
  if name == "inf" || name == "infinity" then some (.infinite negative)
  else if name == "nan" then some (.nan none)
  else readDecimal negative rest

/-- The number that a text writes. -/
def double? (s : String) : Option Double :=
  (dropUnderscores false (normalise s)).bind readDouble

/-- The longest run of digits in an integer numeral that is read. -/
def digitLimit : Nat := 4300

/-- The integer that a text writes, in decimal. A numeral of more digits than the limit is refused.
-/
def int? (s : String) : Option Int :=
  let (negative, rest) := readSign (normalise s)
  match dropUnderscores false rest with
  | none => none
  | some ds =>
    if ds.isEmpty || !ds.all isAsciiDigit || digitLimit < ds.length then none
    else some (Double.signed negative (valueIn 10 ds))

end SchemaBinding.Numeral
