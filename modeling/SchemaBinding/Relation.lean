/-!
# Relations

The relations between a value and a bound that a field may be required to stand in.

Specification: §4.3.
-/

namespace SchemaBinding

/-- A relation between a value and a bound (spec §4.3). -/
inductive Relation where
  | greater
  | greaterOrEqual
  | less
  | lessOrEqual
  | equal
  | notEqual
deriving DecidableEq, Repr

namespace Relation

/-- The symbol of a relation (spec §4.2, step 7). -/
def symbol : Relation → String
  | .greater => ">"
  | .greaterOrEqual => ">="
  | .less => "<"
  | .lessOrEqual => "<="
  | .equal => "=="
  | .notEqual => "!="

/-- Whether a relation compares by order, and so numbers only (spec §4.3). -/
def isNumeric : Relation → Bool
  | .equal => false
  | .notEqual => false
  | _ => true

/-- Whether an order is one that the relation admits. -/
def admits : Relation → Ordering → Bool
  | .greater, o => o == .gt
  | .greaterOrEqual, o => o != .lt
  | .less, o => o == .lt
  | .lessOrEqual, o => o != .gt
  | .equal, o => o == .eq
  | .notEqual, o => o != .eq

end Relation

end SchemaBinding
