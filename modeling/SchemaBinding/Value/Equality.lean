import SchemaBinding.Value.Basic

/-!
# Equality of values

Numbers are equal when they are the same number, whatever their type, and true and false count as
one and zero. Lists equal lists and tuples tuples, element by element. Dictionaries are equal when
they hold equal values under equal keys, in any order, and so are records of one class whose
instances are compared by their attributes; a record of any other class equals only itself.
Not-a-number equals nothing, but inside of a list, a tuple, a dictionary or a record it counts as
alike to itself.

Specification: §3.2 and §4.3.
-/

namespace SchemaBinding.Value

/-- Whether two values are both numbers, and the same one. -/
def sameNumber : Value → Value → Bool
  | .float x, .float y => x.same y
  | .float x, b => b.asInt?.isSome && x.toInt? == b.asInt?
  | a, .float y => a.asInt?.isSome && y.toInt? == a.asInt?
  | a, b => a.asInt?.isSome && a.asInt? == b.asInt?

/-- Whether two values are the same not-a-number. -/
def sameNaN : Value → Value → Bool
  | .float (.nan (some m)), .float (.nan (some n)) => m == n
  | _, _ => false

mutual

/-- Whether two values are equal. -/
def eq (a b : Value) : Bool :=
  match a, b with
  | .null, .null => true
  | .str a, .str b => a == b
  | .bytes a, .bytes b => a == b
  | .dateTime a, .dateTime b => a.same b
  | .date a, .date b => a == b
  | .time a, .time b => a == b
  | .list as _, .list bs _ => eqItems as bs
  | .tuple as, .tuple bs => eqItems as bs
  | .dict as, .dict bs => as.length == bs.length && eqEntries as bs
  | .record r as, .record s bs =>
    if r.structural then
      r.toClassRef == s.toClassRef && as.length == bs.length && eqAttrs as bs
    else r.same s
  | a, b => sameNumber a b
termination_by structural a

/-- Whether two lists are alike element by element. -/
def eqItems (as bs : List Value) : Bool :=
  match as, bs with
  | [], [] => true
  | a :: as, b :: bs => (sameNaN a b || eq a b) && eqItems as bs
  | _, _ => false
termination_by structural as

/-- Whether a dictionary has a value alike under a key alike. -/
def eqEntry (a : Value × Value) (bs : List (Value × Value)) : Bool :=
  match a with
  | (k, v) =>
    match bs.find? fun b => sameNaN k b.1 || eq k b.1 with
    | some b => sameNaN v b.2 || eq v b.2
    | none => false
termination_by structural a

/-- Whether every entry of the first dictionary has its like in the second. -/
def eqEntries (as bs : List (Value × Value)) : Bool :=
  match as with
  | [] => true
  | a :: as => eqEntry a bs && eqEntries as bs
termination_by structural as

/-- Whether a record has a value alike under the same name. -/
def eqAttr (a : String × Value) (bs : List (String × Value)) : Bool :=
  match a with
  | (name, v) =>
    match bs.find? fun b => b.1 == name with
    | some b => sameNaN v b.2 || eq v b.2
    | none => false
termination_by structural a

/-- Whether every attribute of the first record has its like in the second. -/
def eqAttrs (as bs : List (String × Value)) : Bool :=
  match as with
  | [] => true
  | a :: as => eqAttr a bs && eqAttrs as bs
termination_by structural as

end

/-- Whether two values are alike: equal, or the same not-a-number. -/
def alike (a b : Value) : Bool := sameNaN a b || eq a b

/-- Dictionary entries with one of them set: a key alike keeps its place and its first form. -/
def setEntry (entries : List (Value × Value)) (key value : Value) : List (Value × Value) :=
  match entries with
  | [] => [(key, value)]
  | (k, v) :: rest => if alike k key then (k, value) :: rest else (k, v) :: setEntry rest key value

end SchemaBinding.Value
