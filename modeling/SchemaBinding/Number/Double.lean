/-!
# Binary floating-point numbers

The numbers of the 64-bit binary interchange format. A finite number is a sign, an exponent field
and a fraction, so each number has one form. Every finite number is a whole multiple of the least
positive one, 2⁻¹⁰⁷⁴; `units` counts that multiple, and order, equality and conversion are stated on
it. No operation goes through machine floating point.

A not-a-number equals nothing, itself included. Where it matters whether two of them are one and the
same, their origins tell.
-/

namespace SchemaBinding

/-- A number of the 64-bit binary format. -/
inductive Double where
  /-- Not a number. Two with an origin are the same one if they share it; one without an origin is
  the same as no other. -/
  | nan (origin : Option Nat)
  /-- An infinity of either sign. -/
  | infinite (negative : Bool)
  /-- A finite number: its sign, its exponent field and the 52 bits of its fraction. -/
  | finite (negative : Bool) (exponent : Fin 2047) (fraction : Fin 4503599627370496)
deriving DecidableEq, Repr, Inhabited

namespace Double

/-- The number of bits after the point of the least positive number. -/
def unitBits : Nat := 1074

/-- The significand of a finite number as a whole number; the leading bit is implicit unless the
exponent field is zero. -/
def significand (exponent : Fin 2047) (fraction : Fin 4503599627370496) : Nat :=
  if exponent.val = 0 then fraction.val else Nat.pow 2 52 + fraction.val

/-- The power of two, in units, that a significand counts. -/
def scale (exponent : Fin 2047) : Nat := exponent.val - 1

/-- The magnitude of a finite number in units of 2⁻¹⁰⁷⁴. -/
def magnitude (exponent : Fin 2047) (fraction : Fin 4503599627370496) : Nat :=
  significand exponent fraction * Nat.pow 2 (scale exponent)

/-- A magnitude with a sign. -/
def signed (negative : Bool) (n : Nat) : Int := if negative then -(n : Int) else n

/-- A finite number in units of 2⁻¹⁰⁷⁴. -/
def units? : Double → Option Int
  | .finite negative exponent fraction => some (signed negative (magnitude exponent fraction))
  | _ => none

/-- The zero of either sign. -/
def zero (negative : Bool) : Double := .finite negative 0 0

/-- The number one. -/
def one : Double := .finite false 1023 0

/-- The quotient of two naturals rounded to the nearest natural, a tie to the even one. -/
def roundDiv (num den : Nat) : Nat :=
  let q := num / den
  let r := num % den
  if 2 * r < den then q
  else if den < 2 * r then q + 1
  else q + q % 2

/-- The number `sig · 2^scale` units, for a significand of at most 53 bits that has all 53 unless
the scale is zero; beyond the largest finite number it is infinite. -/
def ofScaled (negative : Bool) (sig scale : Nat) : Double :=
  if sig < Nat.pow 2 52 then .finite negative 0 (Fin.ofNat 4503599627370496 sig)
  else if h : scale + 1 < 2047 then
    .finite negative ⟨scale + 1, h⟩ (Fin.ofNat 4503599627370496 (sig - Nat.pow 2 52))
  else .infinite negative

/-- The scale at which `n` units and a fraction have a significand of 53 bits, or zero when fewer
suffice. -/
def scaleFor (n : Nat) : Nat := n.log2 - 52

/-- The number nearest to `num / den` units, ties to the even significand. -/
def ofUnitRatio (negative : Bool) (num den : Nat) : Double :=
  let s := scaleFor (num / den)
  let sig := roundDiv num (den * Nat.pow 2 s)
  if sig = Nat.pow 2 53 then ofScaled negative (Nat.pow 2 52) (s + 1) else ofScaled negative sig s

/-- The number nearest to `num / den`, ties to the even significand. -/
def ofRatio (negative : Bool) (num den : Nat) : Double :=
  ofUnitRatio negative (num * Nat.pow 2 unitBits) den

/-- A number, or `none` if it is infinite. -/
def unlessInfinite : Double → Option Double
  | .infinite _ => none
  | x => some x

/-- The number nearest to an integer, or `none` when that is beyond the finite numbers. -/
def ofInt? (i : Int) : Option Double := (ofRatio (i < 0) i.natAbs 1).unlessInfinite

/-- Whether a number is neither infinite nor `nan`. -/
def isFinite : Double → Bool
  | .finite .. => true
  | _ => false

/-- The integer that a number equals, if there is one. -/
def toInt? (x : Double) : Option Int :=
  match x.units? with
  | some u => if u % Nat.pow 2 unitBits = 0 then some (u / Nat.pow 2 unitBits) else none
  | none => none

/-- A finite number without its fractional part. -/
def truncated? (x : Double) : Option Int :=
  x.units?.map fun u => u.tdiv (Nat.pow 2 unitBits)

/-- Whether a number is finite and has no fractional part. -/
def isIntegral (x : Double) : Bool := x.toInt?.isSome

/-- Where a number stands on the line: below, on or above the finite numbers. -/
inductive Place where
  | below
  | at (units : Int)
  | above
deriving DecidableEq, Repr

namespace Place

/-- The order of two places. -/
def compare : Place → Place → Ordering
  | .at a, .at b => Ord.compare a b
  | .below, .below => .eq
  | .above, .above => .eq
  | .below, _ => .lt
  | _, .below => .gt
  | .above, _ => .gt
  | _, .above => .lt

end Place

/-- The place of a number; `nan` has none. -/
def place? : Double → Option Place
  | .nan _ => none
  | .infinite negative => some (if negative then .below else .above)
  | .finite negative exponent fraction => some (.at (signed negative (magnitude exponent fraction)))

/-- The place of an integer. -/
def placeOfInt (i : Int) : Place := .at (i * Nat.pow 2 unitBits)

/-- Whether two numbers are the same number. Not-a-number is none, and the two zeros are one. -/
def same (x y : Double) : Bool :=
  match x.place?, y.place? with
  | some p, some q => p == q
  | _, _ => false

/-- A number with the other sign. -/
def neg : Double → Double
  | .nan origin => .nan origin
  | .infinite negative => .infinite !negative
  | .finite negative exponent fraction => .finite (!negative) exponent fraction

/-- The sum of two numbers, correctly rounded. -/
def add (x y : Double) : Double :=
  match x, y with
  | .infinite a, .infinite b => if a = b then .infinite a else .nan none
  | .infinite a, .finite .. => .infinite a
  | .finite .., .infinite b => .infinite b
  | .finite a ea fa, .finite b eb fb =>
    let sum := signed a (magnitude ea fa) + signed b (magnitude eb fb)
    if sum = 0 then .zero (a && b) else ofUnitRatio (sum < 0) sum.natAbs 1
  | _, _ => .nan none

/-- The product of two numbers, correctly rounded. -/
def mul (x y : Double) : Double :=
  match x, y with
  | .infinite a, .infinite b => .infinite (a ^^ b)
  | .infinite a, .finite b e f => if magnitude e f = 0 then .nan none else .infinite (a ^^ b)
  | .finite a e f, .infinite b => if magnitude e f = 0 then .nan none else .infinite (a ^^ b)
  | .finite a ea fa, .finite b eb fb =>
    ofUnitRatio (a ^^ b) (magnitude ea fa * magnitude eb fb) (Nat.pow 2 unitBits)
  | _, _ => .nan none

/-- The product with a natural number, correctly rounded. -/
def mulNat (x : Double) (n : Nat) : Double :=
  match x with
  | .nan _ => .nan none
  | .infinite negative => if n = 0 then .nan none else .infinite negative
  | .finite negative exponent fraction =>
    ofUnitRatio negative (magnitude exponent fraction * n) 1

/-- The quotient by a positive natural number, correctly rounded. -/
def divNat (x : Double) (n : Nat) : Double :=
  match x with
  | .nan _ => .nan none
  | .infinite negative => .infinite negative
  | .finite negative exponent fraction => ofUnitRatio negative (magnitude exponent fraction) n

end Double

end SchemaBinding
