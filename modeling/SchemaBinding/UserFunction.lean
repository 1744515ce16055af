import SchemaBinding.BindingError

/-!
# Functions of the caller

A field may be given functions of its own, to replace a value or to check it. A function is called
with the record under construction, the name of the field and the value. It may set attributes of
the record, and it gives a value or raises an error.

A function does not look at which lists are one, but it may pass lists on, and so it says of a value
that it gives where that value comes from. It may also keep a value of its own from call to call.

Specification: §4.2, steps 6 and 7.
-/

namespace SchemaBinding

/-- An error that a function raises (spec §4.2, steps 6 and 7). -/
inductive Raised where
  /-- An ordinary error: the name of its class and its words. -/
  | ordinary (typeName text : String)
  /-- A binding error, which is passed on as it is. -/
  | binding (error : BindingError)

namespace Raised

/-- The words that describe an ordinary error: the name of its class if it has none. -/
def detail (typeName text : String) : String := if text.isEmpty then typeName else text

end Raised

/-- A value that a function gives, by where it comes from. -/
inductive Given where
  /-- A value made for this call. -/
  | made (v : Value)
  /-- The value that the function was called with. -/
  | argument
  /-- The value that the function keeps. -/
  | kept
  /-- The value of an attribute of the record, null if it has none of that name. -/
  | attribute (name : String)
  /-- A new list of one item. -/
  | single (item : Given)
  /-- The items of a list or a tuple, several times over, in a new one. -/
  | repeated (times : Nat) (items : Given)

/-- What a function does (spec §4.2, steps 6 and 7). -/
inductive Reply where
  /-- It sets attributes of the record, in order, and gives a value. -/
  | returned (sets : List (String × Given)) (value : Given)
  /-- It raises an error. -/
  | raised (error : Raised)

/-- The record that a function is called with. -/
structure Subject where
  /-- Its class. -/
  cls : ClassRef
  /-- Its attributes, in the order in which they were first set. -/
  attrs : List (String × Value)
  /-- Whether it can be given attributes. -/
  hasAttributes : Bool

/-- The value of an attribute of a record, null if it has none of that name. -/
def Subject.attr (s : Subject) (name : String) : Value := (Value.attr? name s.attrs).getD .null

/-- A function of the caller (spec §3.1). -/
structure UserFunction where
  /-- A label by which calls can be told apart. -/
  label : String
  /-- The value that it keeps. -/
  kept : Value
  /-- What it does with a record, a field and a value. -/
  reply : Subject → String → Value → Reply

/-- One call of a function. -/
structure Call where
  /-- The label of the function. -/
  label : String
  /-- The record. -/
  subject : Subject
  /-- The name of the field. -/
  field : String
  /-- The value that was passed. -/
  value : Value

end SchemaBinding
