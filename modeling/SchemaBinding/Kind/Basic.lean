import SchemaBinding.Fault
import SchemaBinding.Kind.DeclaredType

/-!
# Kinds

The kind of a field says how its values are converted. A declared type resolves to a kind once, when
the plan of its schema is compiled. An array holds elements of one kind that is no array itself, or
elements that are not looked at.

Specification: §3.1 and §4.2, step 4.
-/

namespace SchemaBinding

/-- The kinds of scalars that keep one JSON kind (spec §3.1). -/
inductive Primitive where
  | str
  | int
  | float
  | bool
  /-- An integer or a floating-point number, kept as it is. -/
  | number
deriving DecidableEq, Repr

namespace Primitive

/-- The name of a primitive kind. -/
def name : Primitive → String
  | .str => "str"
  | .int => "int"
  | .float => "float"
  | .bool => "bool"
  | .number => "number"

/-- The JSON kind of its values. -/
def jsonKind : Primitive → JsonKind
  | .str => .string
  | .bool => .boolean
  | _ => .number

end Primitive

/-- The two kinds of dates (spec §3.1). -/
inductive DateTarget where
  | date
  | dateTime
deriving DecidableEq, Repr

/-- The name of a kind of dates. -/
def DateTarget.name : DateTarget → String
  | .date => "date"
  | .dateTime => "datetime"

/-- A kind other than an array (spec §4.2, step 4). -/
inductive ScalarKind where
  | primitive (p : Primitive)
  | date (target : DateTarget)
  /-- A nested schema. -/
  | schema (cls : ClassRef)
  /-- A dictionary without contracts of its own. -/
  | mapping
  /-- A value of any kind, kept as it is. -/
  | any
deriving DecidableEq, Repr

/-- A kind (spec §4.2, step 4). -/
inductive ValueKind where
  | scalar (kind : ScalarKind)
  /-- An array; without an element kind its elements are not looked at. -/
  | array (element : Option ScalarKind)
deriving DecidableEq, Repr

/-- The name of a scalar kind. -/
def ScalarKind.describe : ScalarKind → String
  | .primitive p => p.name
  | .date target => target.name
  | .schema cls => cls.name
  | .mapping => JsonKind.object.name
  | .any => "any"

/-- The name of a kind. -/
def ValueKind.describe : ValueKind → String
  | .scalar kind => kind.describe
  | .array none => JsonKind.array.name
  | .array (some kind) => JsonKind.array.name ++ "[" ++ kind.describe ++ "]"

/-- Why a declared type has no kind (spec §7). -/
inductive KindFault where
  /-- The elements of an array are arrays. -/
  | nestedArray
  /-- The type, as written, has no conversion. -/
  | unsupported (text : String)
deriving DecidableEq, Repr

/-- The fault of a declared type that stands alone. -/
def KindFault.toFault : KindFault → Fault
  | .nestedArray => .value .nestedArray
  | .unsupported text => .type (.unsupportedType text)

namespace DeclaredType

/-- The kind of a type that is no array. `isSchema` tells which classes may be nested
(spec §4.1). -/
def scalarKind (isSchema : ClassRef → Bool) : DeclaredType → Except KindFault ScalarKind
  | .basic .str => .ok (.primitive .str)
  | .basic .int => .ok (.primitive .int)
  | .basic .float => .ok (.primitive .float)
  | .basic .bool => .ok (.primitive .bool)
  | .basic .number => .ok (.primitive .number)
  | .basic .dateTime => .ok (.date .dateTime)
  | .basic .date => .ok (.date .date)
  | .basic .dict => .ok .mapping
  | .basic .mapping => .ok .mapping
  | .basic .object => .ok .any
  | .basic .any => .ok .any
  | .basic .none => .ok .any
  | .anyDict => .ok .mapping
  | .dictOf .. => .ok .mapping
  | .mappingOf .. => .ok .mapping
  | .cls c => if isSchema c then .ok (.schema c) else .error (.unsupported c.name)
  | .ellipsis => .error (.unsupported "Ellipsis")
  | t => .error (.unsupported t.text)

/-- The kind of an array with a declared element type, which may be no array (spec §4.2, step 4). -/
def arrayKind (isSchema : ClassRef → Bool) (element : DeclaredType) :
    Except KindFault ValueKind :=
  if element.isListType then .error .nestedArray
  else (element.scalarKind isSchema).map fun kind => .array (some kind)

/-- The kind of a declared type. A declared element type makes an array of any type; a tuple type
must have one item type and an ellipsis (spec §4.1). -/
def kind (isSchema : ClassRef → Bool) (element : Option DeclaredType) (t : DeclaredType) :
    Except KindFault ValueKind :=
  match element, t with
  | some e, _ => arrayKind isSchema e
  | none, .listOf item => arrayKind isSchema item
  | none, .anyList => arrayKind isSchema (.basic .object)
  | none, .tupleOf [item, .ellipsis] => arrayKind isSchema item
  | none, .tupleOf items =>
    .error (.unsupported ((DeclaredType.tupleOf items).text ++ "; use tuple[T, ...] or array(T)"))
  | none, .basic .list => .ok (.array none)
  | none, .basic .tuple => .ok (.array none)
  | none, t => (t.scalarKind isSchema).map .scalar

end DeclaredType

end SchemaBinding
