import SchemaBinding.Number.Double

/-!
# The shortest decimal form of a number

A finite number is written with the fewest significant digits that read back as the same number, and
among those with the digits nearest to it. The notation is positional from 10⁻⁴ up to 10¹⁶ and
exponential elsewhere.
-/

namespace SchemaBinding.Double

/-- A decimal number `digits · 10^exponent`. -/
structure Decimal where
  /-- The digits as a whole number. -/
  digits : Nat
  /-- The power of ten that they count. -/
  exponent : Int
deriving DecidableEq, Repr

/-- The number of decimal digits of a natural number, one for zero. -/
def digitCount (n : Nat) : Nat := (Nat.toDigits 10 n).length

/-- The power of ten of the first digit of a positive quotient. -/
def leadingPower (num den : Nat) : Int :=
  if den ≤ num then (digitCount (num / den) : Int) - 1
  else -(digitCount ((den - 1) / num) : Int)

/-- Whether the decimal number reads back as the finite number of that magnitude. -/
def readsAs (exponent : Fin 2047) (fraction : Fin 4503599627370496) (d : Decimal) : Bool :=
  ofRatio false (d.digits * Nat.pow 10 d.exponent.toNat) (Nat.pow 10 (-d.exponent).toNat) ==
    .finite false exponent fraction

/-- The two decimal neighbours of the number on the grid of that power of ten, the nearer first; a
tie puts the even one first. -/
def neighbours (num den : Nat) (power : Int) : List Decimal :=
  let n := num * Nat.pow 10 (-power).toNat
  let d := den * Nat.pow 10 power.toNat
  let q := n / d
  let r := n % d
  if 2 * r < d ∨ (2 * r = d ∧ q % 2 = 0) then [⟨q, power⟩, ⟨q + 1, power⟩]
  else [⟨q + 1, power⟩, ⟨q, power⟩]

/-- The first decimal number that reads back, trying one digit more each time; `fuel` bounds the
number of digits, and seventeen always suffice. -/
def firstReading (exponent : Fin 2047) (fraction : Fin 4503599627370496) (num den : Nat) :
    (fuel : Nat) → (power : Int) → Decimal
  | 0, power => ⟨num * Nat.pow 10 (-power).toNat / (den * Nat.pow 10 power.toNat), power⟩
  | fuel + 1, power =>
    match (neighbours num den power).find? (readsAs exponent fraction) with
    | some d => d
    | none => firstReading exponent fraction num den fuel (power - 1)

/-- The shortest decimal number that reads back as a positive finite number. -/
def shortest (exponent : Fin 2047) (fraction : Fin 4503599627370496) : Decimal :=
  let num := magnitude exponent fraction
  let den := Nat.pow 2 unitBits
  firstReading exponent fraction num den 17 (leadingPower num den)

/-- A digit list without the zeros at its end, and how many they were. -/
def dropTrailingZeros (digits : List Char) : List Char × Nat :=
  let kept := (digits.reverse.dropWhile (· == '0')).reverse
  (kept, digits.length - kept.length)

/-- The decimal exponent in exponential notation: a sign and at least two digits. -/
def exponentText (e : Int) : List Char :=
  let digits := Nat.toDigits 10 e.natAbs
  'e' :: (if e < 0 then '-' else '+') :: (if digits.length < 2 then '0' :: digits else digits)

/-- Significant digits (the last not zero) with the point after the first `point` of them:
positional if `-4 < point ≤ 16`, exponential elsewhere. -/
def layout (digits : List Char) (point : Int) : List Char :=
  if -4 < point ∧ point ≤ 16 then
    if point ≤ 0 then ['0', '.'] ++ List.replicate (-point).toNat '0' ++ digits
    else if digits.length ≤ point.toNat then
      digits ++ List.replicate (point.toNat - digits.length) '0' ++ ['.', '0']
    else digits.take point.toNat ++ '.' :: digits.drop point.toNat
  else
    (match digits with
      | [d] => [d]
      | d :: ds => d :: '.' :: ds
      | [] => []) ++ exponentText (point - 1)

/-- The text of a finite number's magnitude. -/
def magnitudeText (exponent : Fin 2047) (fraction : Fin 4503599627370496) : List Char :=
  if magnitude exponent fraction = 0 then ['0', '.', '0']
  else
    let d := shortest exponent fraction
    let (digits, zeros) := dropTrailingZeros (Nat.toDigits 10 d.digits)
    layout digits (digits.length + zeros + d.exponent)

/-- The text of a number. -/
def text : Double → String
  | .nan _ => "nan"
  | .infinite negative => if negative then "-inf" else "inf"
  | .finite negative exponent fraction =>
    String.ofList ((if negative then ['-'] else []) ++ magnitudeText exponent fraction)

end SchemaBinding.Double
