import SchemaBinding.Value.Printer
import SchemaBinding.Relation

/-!
# Binding errors

Why a payload cannot be bound. Every error names the schema and the field it arose at, however deep
that lies, and a cause; the wording is one function of the three.

Specification: §7.
-/

namespace SchemaBinding

/-- The field that errors about a payload as a whole name. -/
def rootField : String := "<root>"

/-- Why a field cannot be bound (spec §7). -/
inductive BindingCause where
  /-- A required field is absent. -/
  | missing
  /-- A value has the wrong kind, in an array at an index. -/
  | mismatch (expected : String) (actual : JsonKind) (index : Option Nat)
  /-- A value is no date. -/
  | invalidDate (value : Value)
  /-- A number has a fractional part where it may not have one. -/
  | notInteger (value : Value)
  /-- A value is none of those allowed. -/
  | notInUnion (allowed : List Value) (value : Value)
  /-- A value does not stand in the relation to the bound. -/
  | comparison (relation : Relation) (bound value : Value)
  /-- A check asks for a number and got something else. -/
  | notNumeric (check : String) (actual : JsonKind)
  /-- A function of the caller refused. -/
  | custom (detail : String)
  /-- Schemas are nested too deeply. -/
  | tooDeep (maxDepth : Nat)
  /-- A function of the caller gave its own reason. -/
  | own (reason : String)

namespace BindingCause

/-- The name of the kind of error (spec §7). -/
def name : BindingCause → String
  | .missing => "MissingRequiredField"
  | .mismatch .. => "TypeMismatch"
  | .invalidDate _ => "InvalidDate"
  | .notInteger _ => "NotInteger"
  | .notInUnion .. => "NotInUnion"
  | .comparison .. => "ComparisonFailed"
  | .notNumeric .. => "NotNumeric"
  | .custom _ => "CustomValidationFailed"
  | .tooDeep _ => "NestingTooDeep"
  | .own _ => "BindingError"

/-- The words that give the cause (spec §7). -/
def reason : BindingCause → String
  | .missing => "is required"
  | .mismatch expected actual index =>
    "expected " ++ expected ++ ", got " ++ actual.name ++
      (match index with
        | some i => " at index " ++ toString i
        | none => "")
  | .invalidDate value => value.text ++ " is not a valid date"
  | .notInteger value => "must be an integer (got " ++ value.text ++ ")"
  | .notInUnion allowed value =>
    value.text ++ " is not one of the allowed values: [" ++
      ", ".intercalate (allowed.map Value.text) ++ "]"
  | .comparison relation bound value =>
    "requirement failed: value " ++ relation.symbol ++ " " ++ bound.text ++
      " (got " ++ value.text ++ ")"
  | .notNumeric check actual => check ++ " requires a numeric type, got " ++ actual.name
  | .custom detail => "custom validation failed: " ++ detail
  | .tooDeep maxDepth => "nesting exceeds max_depth=" ++ toString maxDepth
  | .own reason => reason

/-- Whether every value that the words show can be shown. -/
def printable : BindingCause → Bool
  | .invalidDate value => value.printable
  | .notInteger value => value.printable
  | .notInUnion allowed value => allowed.all Value.printable && value.printable
  | .comparison _ bound value => bound.printable && value.printable
  | .tooDeep maxDepth => Value.intPrintable maxDepth
  | _ => true

end BindingCause

/-- A failure to bind a payload (spec §7). -/
structure BindingError where
  /-- The name of the schema at which it failed. -/
  typeName : String
  /-- The name of the field, or `<root>`. -/
  fieldName : String
  /-- Why it failed. -/
  cause : BindingCause

namespace BindingError

/-- The reason as words. -/
def reason (e : BindingError) : String := e.cause.reason

/-- The error as words (spec §7). -/
def message (e : BindingError) : String := e.typeName ++ "." ++ e.fieldName ++ ": " ++ e.reason

end BindingError

end SchemaBinding
