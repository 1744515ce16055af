import SchemaBinding.Fault
import SchemaBinding.Number.Numeral
import SchemaBinding.Value.Equality

/-!
# Loose equality

Equality that also lets numbers, booleans and texts that write numbers compare with one another.
Equal values are loosely equal. Two texts are loosely equal only if they are equal; otherwise each
side is read as a floating-point number, a blank text as zero, and the two must be the same number.
An integer beyond the floating-point numbers cannot be read so.

Specification: §4.3.
-/

namespace SchemaBinding

/-- A number that was found, or else a fault: it was too large. -/
def orOverflow : Option Double → Except Fault Double
  | some x => .ok x
  | none => .error (.overflow .double)

/-- The floating-point number nearest to an integer. -/
def nearestDouble (i : Int) : Except Fault Double := orOverflow (Double.ofInt? i)

/-- A text as a number: zero if it is blank (spec §4.3). -/
def looseText (s : String) : Option Double :=
  if (Text.strip s).isEmpty then some (.zero false) else Numeral.double? (Text.strip s)

/-- A value as a number, if it can be taken for one (spec §4.3). -/
def looseNumber : Value → Except Fault (Option Double)
  | .bool b => .ok (some (if b then .one else .zero false))
  | .int i => (nearestDouble i).map some
  | .float x => .ok (some x)
  | .str s => .ok (looseText s)
  | _ => .ok none

/-- Whether two optional numbers are both there and the same (spec §4.3). -/
def sameLoose (a b : Option Double) : Bool :=
  match a, b with
  | some x, some y => x.same y
  | _, _ => false

/-- Whether two values are loosely equal (spec §4.3). -/
def looseEq (left right : Value) : Except Fault Bool :=
  if left.eq right then .ok true
  else match left, right with
    | .str _, .str _ => .ok false
    | _, _ => do
      let a ← looseNumber left
      let b ← looseNumber right
      return sameLoose a b

end SchemaBinding
