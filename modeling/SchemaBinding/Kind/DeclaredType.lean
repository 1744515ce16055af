import SchemaBinding.Value.Basic
import SchemaBinding.Text.Quoted

/-!
# Declared types

What a field may be declared as: a basic type, a class, or a generic form with arguments. Not every
form has a conversion; the others are kept, so that they can be named in a message.

Specification: §3.1.
-/

namespace SchemaBinding

/-- The basic types (spec §3.1). -/
inductive BasicType where
  | str
  | int
  | float
  | bool
  /-- Any number, integer or floating-point. -/
  | number
  | dateTime
  | date
  | list
  | tuple
  | dict
  | mapping
  /-- The root of all classes: any value. -/
  | object
  | any
  /-- No type, the state of a field that was never given one: any value. -/
  | none
deriving DecidableEq, Repr

/-- The name of a basic type inside a generic form. -/
def BasicType.text : BasicType → String
  | .str => "str"
  | .int => "int"
  | .float => "float"
  | .bool => "bool"
  | .number => "numbers.Real"
  | .dateTime => "datetime.datetime"
  | .date => "datetime.date"
  | .list => "list"
  | .tuple => "tuple"
  | .dict => "dict"
  | .mapping => "collections.abc.Mapping"
  | .object => "object"
  | .any => "typing.Any"
  | .none => "None"

/-- A declared type (spec §3.1). -/
inductive DeclaredType where
  | basic (type : BasicType)
  /-- A class. -/
  | cls (c : ClassRef)
  /-- The generic list without arguments. -/
  | anyList
  /-- The generic dictionary without arguments. -/
  | anyDict
  | listOf (item : DeclaredType)
  | tupleOf (items : List DeclaredType)
  | dictOf (key item : DeclaredType)
  | mappingOf (key item : DeclaredType)
  /-- The ellipsis that makes a tuple of one item type as long as it likes. -/
  | ellipsis
  /-- A text in the place of a type. -/
  | quoted (text : String)
  /-- Any other type expression, known only by the way it is written. -/
  | foreign (text : String)
deriving Inhabited

namespace DeclaredType

mutual

/-- A declared type as it is written. -/
def text (t : DeclaredType) : String :=
  match t with
  | .basic type => type.text
  | .cls c => c.name
  | .anyList => "typing.List"
  | .anyDict => "typing.Dict"
  | .listOf item => "list[" ++ text item ++ "]"
  | .tupleOf [] => "tuple[()]"
  | .tupleOf (item :: items) => "tuple[" ++ ", ".intercalate (text item :: texts items) ++ "]"
  | .dictOf key item => "dict[" ++ text key ++ ", " ++ text item ++ "]"
  | .mappingOf key item => "collections.abc.Mapping[" ++ text key ++ ", " ++ text item ++ "]"
  | .ellipsis => "..."
  | .quoted s => Text.quoted s
  | .foreign s => s
termination_by structural t

/-- Declared types as they are written. -/
def texts (ts : List DeclaredType) : List String :=
  match ts with
  | [] => []
  | t :: ts => text t :: texts ts
termination_by structural ts

end

/-- Whether a type is a list or a tuple, with or without arguments. -/
def isListType : DeclaredType → Bool
  | .basic .list => true
  | .basic .tuple => true
  | .anyList => true
  | .listOf _ => true
  | .tupleOf _ => true
  | _ => false

end DeclaredType

end SchemaBinding
