import SchemaBinding.Contract.Comparison
import SchemaBinding.Kind.DeclaredType
import SchemaBinding.UserFunction

/-!
# Contract fragments

A contract is put together from fragments, each of which adds one rule: whether the field must be
there, where its value is read from, what it may be, and what is done with it.

Specification: §4.1.
-/

namespace SchemaBinding

/-- Whether a field must be there (spec §3.1). -/
inductive Requirement where
  /-- It must be there. -/
  | required
  /-- It may be absent. -/
  | optional
  /-- It may be absent, and then has this value. -/
  | defaulted (value : Value)

namespace Requirement

/-- The name of a requirement. -/
def name : Requirement → String
  | .required => "required"
  | .optional => "optional"
  | .defaulted _ => "optional-with-default"

/-- The value of an absent field (spec §3.1). -/
def default? : Requirement → Option Value
  | .defaulted value => some value
  | _ => none

/-- Whether an absent field is an error (spec §3.1). -/
def isRequired : Requirement → Bool
  | .required => true
  | _ => false

end Requirement

/-- A key of the input: a text that is not empty (spec §3.1). -/
structure SourceKey where
  /-- The key. -/
  key : String
  /-- It is not empty. -/
  key_ne : key ≠ ""
deriving DecidableEq

/-- The values that a field may take: at least one (spec §3.1). -/
structure Members where
  /-- The values, in the order in which they are tried. -/
  values : List Value
  /-- There is at least one. -/
  values_ne : values ≠ []

/-- A check of a converted value (spec §3.1). -/
inductive Check where
  | comparison (c : Comparison)
  /-- A predicate, which refuses a value by returning false or by raising an error. -/
  | custom (predicate : UserFunction)

/-- One rule of a contract (spec §4.1). -/
inductive Fragment where
  | requirement (r : Requirement)
  | sourceKey (key : SourceKey)
  /-- The value is kept as it is, neither converted nor checked. -/
  | passthrough
  /-- The field is an array of elements of a type. -/
  | arrayOf (element : DeclaredType)
  | union (members : Members)
  /-- The value is a number without a fractional part. -/
  | integer
  /-- A function that may replace the value. -/
  | transform (function : UserFunction)
  | check (c : Check)

namespace Fragment

/-- The name of the kind of rule. -/
def name : Fragment → String
  | .requirement _ => "Requirement"
  | .sourceKey _ => "SourceKey"
  | .passthrough => "Passthrough"
  | .arrayOf _ => "ArrayOf"
  | .union _ => "UnionOf"
  | .integer => "IntegerOnly"
  | .transform _ => "Transform"
  | .check _ => "AddCheck"

/-- The rule to read the field under a key, which must be a text and not empty (spec §4.1). -/
def mapFrom : Value → Except Fault Fragment
  | .str key => if h : key ≠ "" then .ok (.sourceKey ⟨key, h⟩) else .error (.type .sourceKey)
  | _ => .error (.type .sourceKey)

/-- The elements of a value: the items of a list or a tuple, the keys of a dictionary. -/
def elements : Value → Except Fault (List Value)
  | .list items _ => .ok items
  | .tuple items => .ok items
  | .dict entries => .ok (entries.map Prod.fst)
  | v => .error (.type (.notIterable v.fullTypeName))

/-- The elements of a value as the allowed values of a union. -/
def members : Value → Except Fault Members
  | .str _ => .error (.type .textUnion)
  | .bytes _ => .error (.type .textUnion)
  | v => do
    let values ← elements v
    if h : values ≠ [] then return ⟨values, h⟩ else throw (.value .emptyUnion)

/-- The rule to admit only the elements of a value (spec §4.1). -/
def unionOf (v : Value) : Except Fault Fragment := (members v).map .union

/-- The rule that a value stand in a relation to a bound (spec §4.1). -/
def comparing (relation : Relation) (bound : Value) : Except Fault Fragment :=
  (Comparison.of relation bound).map fun c => .check (.comparison c)

end Fragment

/-- An argument of a declaration: a fragment, or a value that is none (spec §4.1). -/
inductive Argument where
  | fragment (f : Fragment)
  | other (v : Value)

namespace Argument

/-- The type of the first argument that is no fragment. -/
def firstOther? : List Argument → Option String
  | [] => none
  | .fragment _ :: rest => firstOther? rest
  | .other v :: _ => some v.typeName

/-- The fragments among arguments. -/
def fragments : List Argument → List Fragment
  | [] => []
  | .fragment f :: rest => f :: fragments rest
  | .other _ :: rest => fragments rest

end Argument

end SchemaBinding
