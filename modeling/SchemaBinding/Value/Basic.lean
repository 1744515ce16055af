import SchemaBinding.Calendar.DateTime
import SchemaBinding.Number.Double

/-!
# Values

The untyped data that is bound, and what binding makes of it: JSON values, together with the further
values a caller may hand over (tuples, bytes, dates and times) and the records that binding builds.
A dictionary keeps the order of its entries; its keys may be any value. A list can grow, and so it
matters whether two lists are one and the same: lists that are one bear the same label. It matters
as well for instances of a class that has no equality of its own: those that are one bear the same
identity. The only numbers are integers and floating-point numbers, as in the JSON-like trees of
specification §1; no other numeric types are values here.
-/

namespace SchemaBinding

open Calendar

/-- A class, as its instances know it. Classes are told apart by their ids; two may share a name. -/
structure ClassRef where
  /-- The identity of the class. -/
  id : Nat
  /-- The name that messages give. -/
  name : String
  /-- Whether two instances with the same attributes are equal. Otherwise an instance equals only
  itself. -/
  structural : Bool
deriving DecidableEq, Repr

/-- Which instance of a class a record is. -/
structure InstanceRef extends ClassRef where
  /-- What instances that equal only themselves are told apart by. An instance without it is the
  same as no other. -/
  identity : Option Nat
  /-- Instances that are compared by their attributes need none. -/
  identity_eq_none : structural = true → identity = none

namespace InstanceRef

/-- A new instance of a class, which is the same as no other. -/
def new (cls : ClassRef) : InstanceRef := ⟨cls, none, fun _ => rfl⟩

/-- A class stands for a new instance of it. -/
instance : Coe ClassRef InstanceRef := ⟨new⟩

/-- An instance of the same class that is the same as no other. -/
def renewed (r : InstanceRef) : InstanceRef := new r.toClassRef

/-- Whether two instances are known to be one. -/
def same (r s : InstanceRef) : Bool :=
  r.toClassRef == s.toClassRef && r.identity.isSome && r.identity == s.identity

end InstanceRef

/-- A value. -/
inductive Value where
  /-- The absent value. -/
  | null
  | bool (b : Bool)
  | int (i : Int)
  | float (x : Double)
  | str (s : String)
  /-- A list. One without a label is the same as no other. -/
  | list (items : List Value) (label : Option Nat)
  | tuple (items : List Value)
  /-- A dictionary, its entries in insertion order. -/
  | dict (entries : List (Value × Value))
  | bytes (bs : List UInt8)
  | dateTime (d : DateTime)
  | date (d : Date)
  | time (t : Time)
  /-- An instance of a class, its attributes in the order in which they were first set. -/
  | record (cls : InstanceRef) (attrs : List (String × Value))
deriving Inhabited

/-- The kinds of values that JSON knows. -/
inductive JsonKind where
  | null
  | boolean
  | number
  | string
  | object
  | array
  /-- No kind of JSON value. -/
  | unknown
deriving DecidableEq, Repr

/-- The name of a kind. -/
def JsonKind.name : JsonKind → String
  | .null => "null"
  | .boolean => "boolean"
  | .number => "number"
  | .string => "string"
  | .object => "object"
  | .array => "array"
  | .unknown => "unknown"

namespace Value

/-- The JSON kind of a value. -/
def kind : Value → JsonKind
  | .null => .null
  | .bool _ => .boolean
  | .int _ => .number
  | .float _ => .number
  | .str _ => .string
  | .list .. => .array
  | .tuple _ => .array
  | .dict _ => .object
  | _ => .unknown

/-- Whether a value is a number; booleans are not. -/
def isNumber (v : Value) : Bool := v.kind == .number

/-- The name of a value's type. -/
def typeName : Value → String
  | .null => "NoneType"
  | .bool _ => "bool"
  | .int _ => "int"
  | .float _ => "float"
  | .str _ => "str"
  | .list .. => "list"
  | .tuple _ => "tuple"
  | .dict _ => "dict"
  | .bytes _ => "bytes"
  | .dateTime _ => "datetime"
  | .date _ => "date"
  | .time _ => "time"
  | .record cls _ => cls.name

/-- The full name of a value's type, which tells the module of dates and times. -/
def fullTypeName : Value → String
  | .dateTime _ => "datetime.datetime"
  | .date _ => "datetime.date"
  | .time _ => "datetime.time"
  | v => v.typeName

/-- The whole number that a value is by its type: an integer, or one and zero for true and false. -/
def asInt? : Value → Option Int
  | .bool b => some (if b then 1 else 0)
  | .int i => some i
  | _ => none

/-- The entry of a dictionary under a text. -/
def lookup? (key : String) : List (Value × Value) → Option Value
  | [] => none
  | (.str k, v) :: rest => if k == key then some v else lookup? key rest
  | _ :: rest => lookup? key rest

/-- The value of an attribute. -/
def attr? (name : String) (attrs : List (String × Value)) : Option Value :=
  (attrs.find? fun a => a.1 == name).map Prod.snd

/-- Attributes with one of them set: in its place if it was set before, else at the end. -/
def setAttr (attrs : List (String × Value)) (name : String) (value : Value) :
    List (String × Value) :=
  match attrs with
  | [] => [(name, value)]
  | (n, v) :: rest => if n == name then (n, value) :: rest else (n, v) :: setAttr rest name value

end Value

end SchemaBinding
