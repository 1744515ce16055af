import SchemaBinding.Calendar.DateTime
import SchemaBinding.Number.Double

/-!
# Epoch time

Instants counted in seconds from the start of 1970 in UTC. A floating-point count keeps its whole
seconds; its fraction is multiplied by a million in floating point and rounded to the nearest
microsecond, a tie to the even one.

Specification: §4.2, step 4.
-/

namespace SchemaBinding.Calendar.Epoch

/-- The number of the first of January 1970. -/
def firstDay : Nat := 719163

/-- The UTC date-time so many microseconds after the start of 1970, if the calendar holds it. -/
def ofMicros? (micros : Int) : Option DateTime :=
  let n := micros + (firstDay * 86400000000 : Nat)
  if n < 0 then none
  else
    let n := n.toNat
    let ofDay := n % 86400000000
    (Date.ofOrdinal? (n / 86400000000)).bind fun date =>
      (Time.ofParts? (ofDay / 3600000000) (ofDay / 60000000 % 60) (ofDay / 1000000 % 60)
        (ofDay % 1000000)).map fun time => ⟨date, time, some .utc⟩

/-- The magnitude of the fraction of a second as microseconds. -/
def fractionMicros (fraction : Nat) : Nat :=
  match Double.mulNat (Double.ofUnitRatio false fraction 1) 1000000 with
  | .finite _ exponent mantissa =>
    Double.roundDiv (Double.magnitude exponent mantissa) (Nat.pow 2 Double.unitBits)
  | _ => 0

/-- A number of seconds as microseconds; nothing for numbers that are not finite. -/
def micros? : Double → Option Int
  | .finite negative exponent fraction =>
    let m := Double.magnitude exponent fraction
    some (Double.signed negative
      (m / Nat.pow 2 Double.unitBits * 1000000 +
        fractionMicros (m % Nat.pow 2 Double.unitBits)))
  | _ => none

/-- The UTC date-time so many seconds after the start of 1970, if the calendar holds it. -/
def ofSeconds? (seconds : Double) : Option DateTime := (micros? seconds).bind ofMicros?

end SchemaBinding.Calendar.Epoch
