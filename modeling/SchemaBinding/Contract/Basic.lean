import SchemaBinding.Contract.Fragment
import SchemaBinding.Kind.Basic
import SchemaBinding.Text.Identifier

/-!
# Field contracts and plans

The contract of a field collects every rule declared for it. Rules of one sort replace one another,
except transforms and checks, which add up in order. The plan of a field is its contract compiled:
the declared type has become a kind.

Specification: §3.1 and §4.1.
-/

namespace SchemaBinding

/-- The rules declared for one field (spec §3.1). -/
structure FieldContract where
  /-- The name of the field. -/
  name : String
  /-- The declared type. -/
  declared : DeclaredType
  /-- Whether it must be there, if that was declared. -/
  requirement : Option Requirement
  /-- The key under which it is read, if not its name. -/
  sourceKey : Option SourceKey
  /-- Whether its value is kept as it is. -/
  passthrough : Bool
  /-- The type of its elements, if it was declared as an array. -/
  element : Option DeclaredType
  /-- The values that it may take. -/
  union : Option Members
  /-- The functions that may replace its value, in order. -/
  transforms : List UserFunction
  /-- The checks of its value, in order. -/
  checks : List Check
  /-- Whether it must be a number without a fractional part. -/
  integer : Bool

namespace FieldContract

/-- The contract of a field for which nothing has been declared (spec §3.1). -/
def empty (name : String) : FieldContract :=
  ⟨name, .basic .none, none, none, false, none, none, [], [], false⟩

/-- Whether the field must be there; unless declared, it need not (spec §3.1). -/
def isRequired (c : FieldContract) : Bool := c.requirement.any Requirement.isRequired

end FieldContract

/-- Adds one rule to a contract. If requiredness may be declared only once, a second declaration
fails with the one that stands (spec §3.1). -/
def FieldContract.add (once : Bool) (c : FieldContract) (f : Fragment) :
    Except Requirement FieldContract :=
  match f with
  | .requirement r =>
    match once, c.requirement with
    | true, some existing => .error existing
    | _, _ => .ok { c with requirement := some r }
  | .sourceKey key => .ok { c with sourceKey := some key }
  | .passthrough => .ok { c with passthrough := true }
  | .arrayOf element => .ok { c with element := some element }
  | .union members => .ok { c with union := some members }
  | .integer => .ok { c with integer := true }
  | .transform function => .ok { c with transforms := c.transforms ++ [function] }
  | .check check => .ok { c with checks := c.checks ++ [check] }

/-- Adds rules to a contract, in order (spec §4.1). -/
def FieldContract.addAll (once : Bool) (c : FieldContract) :
    List Fragment → Except Requirement FieldContract
  | [] => .ok c
  | f :: fs =>
    match c.add once f with
    | .ok c => addAll once c fs
    | .error existing => .error existing

/-- A compiled contract (spec §4.1). -/
structure FieldPlan where
  /-- The name of the field. -/
  name : String
  /-- The key under which it is read. -/
  sourceKey : String
  /-- Whether it must be there. -/
  requirement : Requirement
  /-- How its value is converted; not at all without a kind. -/
  kind : Option ValueKind
  /-- The values that it may take. -/
  union : Option Members
  /-- The functions that may replace its value, in order. -/
  transforms : List UserFunction
  /-- The checks of its value, in order. -/
  checks : List Check
  /-- Whether it must be a number without a fractional part. -/
  integer : Bool

/-- The plan of a contract; passthrough fields need no kind (spec §4.1). -/
def FieldContract.plan (isSchema : ClassRef → Bool) (c : FieldContract) :
    Except KindFault FieldPlan := do
  let kind ←
    if c.passthrough then pure none
    else (c.declared.kind isSchema c.element).map some
  return {
    name := c.name
    sourceKey := (c.sourceKey.map SourceKey.key).getD c.name
    requirement := c.requirement.getD .optional
    kind := kind
    union := c.union
    transforms := c.transforms
    checks := c.checks
    integer := c.integer }

/-- Whether a value may name a field of a class: an identifier that is not reserved (spec §4.1). -/
def checkFieldName (owner : String) (name : Value) : Except Fault String :=
  match name with
  | .str s =>
    if !Text.isIdentifier s then .error (.schema (.notIdentifier owner name))
    else if Text.isReserved s then .error (.schema (.reserved owner s))
    else .ok s
  | _ =>
    if name.printable then .error (.schema (.notIdentifier owner name))
    else .error (.value .digits)

end SchemaBinding
