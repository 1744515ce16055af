import SchemaBinding.Value.Equality

/-!
# Order of values

Texts, bytes, dates and numbers have an order among their like, lists and tuples the order of the
first items in which they differ. Not-a-number stands in no order to any number. Other values cannot
be put in order at all.
-/

namespace SchemaBinding

/-- Why two values cannot be put in order. -/
inductive OrderFault where
  /-- Values of these types have no order. -/
  | types (left right : String)
  /-- A date-time has no order with a date. -/
  | dateTimeWithDate
  /-- One date-time has an offset and the other has none. -/
  | mixedOffsets
deriving DecidableEq, Repr

/-- The fault as words; `symbol` is the relation that was asked about. -/
def OrderFault.message (symbol : String) : OrderFault → String
  | .types left right =>
    "'" ++ symbol ++ "' not supported between instances of '" ++ left ++ "' and '" ++ right ++ "'"
  | .dateTimeWithDate => "can't compare datetime.datetime to datetime.date"
  | .mixedOffsets => "can't compare offset-naive and offset-aware datetimes"

namespace Value

/-- The place on the line of an integer or a floating-point number; booleans are integers. -/
def place? : Value → Option Double.Place
  | .float x => x.place?
  | v => v.asInt?.map Double.placeOfInt

/-- Whether a value is a number or a boolean. -/
def isOnLine (v : Value) : Bool := v.isNumber || v.asInt?.isSome

/-- The order of two numbers, unless one of them is not-a-number. Integers are compared as they are
and otherwise places on the line. -/
def numberOrder? (a b : Value) : Option Ordering :=
  match a.asInt?, b.asInt? with
  | some i, some j => some (compare i j)
  | _, _ =>
    match a.place?, b.place? with
    | some p, some q => some (p.compare q)
    | _, _ => none

/-- The order of two texts, by their code points. -/
def textOrder (s t : String) : Ordering := if s < t then .lt else if s = t then .eq else .gt

mutual

/-- The order of two values, `none` if a not-a-number stands in the way. -/
def order (a b : Value) : Except OrderFault (Option Ordering) :=
  match a, b with
  | .str s, .str t => .ok (some (textOrder s t))
  | .bytes s, .bytes t => .ok (some (compare s t))
  | .date d, .date e => .ok (some (compare d.ordinal e.ordinal))
  | .dateTime d, .dateTime e =>
    if d.offset.isSome == e.offset.isSome then .ok (some (compare d.instant e.instant))
    else .error .mixedOffsets
  | .dateTime _, .date _ => .error .dateTimeWithDate
  | .date _, .dateTime _ => .error .dateTimeWithDate
  | .list as _, .list bs _ => itemOrder as bs
  | .tuple as, .tuple bs => itemOrder as bs
  | a, b =>
    if a.isOnLine && b.isOnLine then .ok (numberOrder? a b)
    else .error (.types a.fullTypeName b.fullTypeName)
termination_by structural a

/-- The order of two lists of items: that of the first that are not alike, and else the longer list
comes after the shorter one. -/
def itemOrder (as bs : List Value) : Except OrderFault (Option Ordering) :=
  match as, bs with
  | [], [] => .ok (some .eq)
  | [], _ :: _ => .ok (some .lt)
  | _ :: _, [] => .ok (some .gt)
  | a :: as, b :: bs => if alike a b then itemOrder as bs else order a b
termination_by structural as

end

end Value

end SchemaBinding
