import SchemaBinding.BindingError

/-!
# Events

What the library tells a log: a declared field, a compiled plan, a failed bind and a built schema
table. Only a failed bind is of interest in ordinary operation; the others are for debugging.

Specification: §10.
-/

namespace SchemaBinding

/-- How important an event is (spec §10). -/
inductive EventLevel where
  | debug
  | info
deriving DecidableEq, Repr

/-- The name of a level. -/
def EventLevel.name : EventLevel → String
  | .debug => "debug"
  | .info => "info"

/-- Something that happened (spec §10). -/
inductive Event where
  /-- A field of a schema was declared, by fragments of these names. -/
  | fieldDeclared (schema field : String) (fragments : List String) (first : Bool)
  /-- A registry compiled the plan of a schema: the names of its fields, each with its kind. -/
  | planCompiled (registry : Nat) (schema : ClassRef) (fields : List (String × String))
  /-- Binding a payload to a schema failed. -/
  | bindFailed (schema : String) (error : BindingError)
  /-- The schemas of a table were created. -/
  | tableBuilt (schemas : List String)

namespace Event

/-- The name of an event (spec §10). -/
def name : Event → String
  | .fieldDeclared .. => "jsonbind_field_declared"
  | .planCompiled .. => "jsonbind_plan_compiled"
  | .bindFailed .. => "jsonbind_bind_failed"
  | .tableBuilt .. => "jsonbind_schema_table_built"

/-- The level of an event (spec §10). -/
def level : Event → EventLevel
  | .bindFailed .. => .info
  | _ => .debug

/-- The texts of a list as a value. -/
def textList (texts : List String) : Value := .list (texts.map .str) none

/-- What an event carries, in order (spec §10). -/
def fields : Event → List (String × Value)
  | .fieldDeclared schema field fragments first =>
    [("schema", .str schema), ("field", .str field), ("fragments", textList fragments),
      ("first_declaration", .bool first)]
  | .planCompiled _ schema fields =>
    [("schema", .str schema.name),
      ("fields", .list (fields.map fun f =>
        .dict [(.str "name", .str f.1), (.str "kind", .str f.2)]) none)]
  | .bindFailed schema error =>
    [("schema", .str schema), ("error", .str error.cause.name),
      ("failed_schema", .str error.typeName), ("field", .str error.fieldName),
      ("reason", .str error.reason)]
  | .tableBuilt schemas => [("schemas", textList schemas)]

end Event

end SchemaBinding
