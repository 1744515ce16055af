import SchemaBinding.LooseEquality

/-!
# Comparisons

A required relation to a bound. The orderings compare numbers exactly, whatever mix of integers and
floating-point numbers they are; equality and inequality are loose.

Specification: §4.3.
-/

namespace SchemaBinding

/-- A relation to a bound. An ordering has a number for its bound (spec §4.3). -/
structure Comparison where
  /-- The relation. -/
  relation : Relation
  /-- The bound. -/
  bound : Value
  /-- An ordering compares with a number. -/
  bound_isNumber : relation.isNumeric = true → bound.isNumber = true

namespace Comparison

/-- The comparison with a bound (spec §4.3). -/
def of (relation : Relation) (bound : Value) : Except Fault Comparison :=
  if h : relation.isNumeric = true → bound.isNumber = true then .ok ⟨relation, bound, h⟩
  else .error (.type (.bound relation.symbol bound.kind))

/-- Whether a value stands in the relation to the bound; a number, if the relation is an ordering
(spec §4.3). -/
def holds (c : Comparison) (value : Value) : Except Fault Bool :=
  match c.relation with
  | .equal => looseEq value c.bound
  | .notEqual => (looseEq value c.bound).map (! ·)
  | r => .ok ((value.numberOrder? c.bound).any r.admits)

end Comparison

/-- Asks for a number (spec §4.2, step 7). -/
def requireNumber (typeName fieldName check : String) (value : Value) : Except Fault Unit :=
  if value.isNumber then .ok ()
  else .error (.ofBinding ⟨typeName, fieldName, .notNumeric check value.kind⟩)

/-- Asks that a value stand in the relation to the bound (spec §4.2, step 7). -/
def Comparison.check (c : Comparison) (typeName fieldName : String) (value : Value) :
    Except Fault Unit := do
  if c.relation.isNumeric then requireNumber typeName fieldName c.relation.symbol value
  if ← c.holds value then return ()
  else throw (.ofBinding ⟨typeName, fieldName, .comparison c.relation c.bound value⟩)

/-- Whether a value loosely equals one of those allowed, tried in order (spec §4.2, step 5). -/
def isMember (value : Value) : List Value → Except Fault Bool
  | [] => .ok false
  | candidate :: rest => do
    if ← looseEq candidate value then return true else isMember value rest

/-- Asks that a value loosely equal one of those allowed (spec §4.2, step 5). -/
def checkUnion (typeName fieldName : String) (allowed : List Value) (value : Value) :
    Except Fault Unit := do
  if ← isMember value allowed then return ()
  else throw (.ofBinding ⟨typeName, fieldName, .notInUnion allowed value⟩)

/-- Asks for a number without a fractional part (spec §4.2, step 8). -/
def checkInteger (typeName fieldName : String) (value : Value) : Except Fault Unit := do
  requireNumber typeName fieldName "integer" value
  match value with
  | .float x =>
    if x.isIntegral then return ()
    else throw (.ofBinding ⟨typeName, fieldName, .notInteger value⟩)
  | _ => return ()

end SchemaBinding
