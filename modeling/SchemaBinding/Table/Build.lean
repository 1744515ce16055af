import SchemaBinding.Table.Spec

/-!
# Building the schemas of a table

Nothing is created unless the whole table is valid. Then every schema becomes a class, and only
after that are the fields declared, so that schemas may refer to one another in any order.

Specification: §12.
-/

namespace SchemaBinding

namespace World

/-- Declares a field of a schema class after its body, in the registry of its binder. The field then
reads as absent, unless the class answers to its name already (spec §6). -/
def declareOnClass (c : ClassRef) (name : Value) (args : List Argument)
    (declared : Option DeclaredType) : Action Unit := do
  let w ← get
  let contract ← declareField (w.registryOf c) c name args declared
  modify fun w =>
    if w.classes.answersTo c contract.name then w
    else { w with classes := w.classes.setNull c contract.name }

end World

namespace Table

/-- The class of a schema name; every schema of a table has one by the time it is asked for. -/
def classOf (created : List ClassRef) (name : String) : ClassRef :=
  (created.find? fun c => c.name == name).getD .schemaBase

/-- The declared type that a type of a table stands for (spec §12). -/
def TypeRef.resolve (created : List ClassRef) : TypeRef → DeclaredType
  | .builtin t => t
  | .schema name => .cls (classOf created name)

/-- The fragment that a rule of a table stands for (spec §12). -/
def SpecRule.resolve (created : List ClassRef) : SpecRule → Fragment
  | .rule f => f
  | .arrayOf element => .arrayOf (element.resolve created)

/-- Creates the classes of schemas, in order (spec §12). -/
def createAll (binder : Option Nat) : List SchemaSpec → Action (List ClassRef)
  | [] => return []
  | s :: rest => do
    let c ← World.createClass s.name [.schemaBase] binder []
    let cs ← createAll binder rest
    return c :: cs

/-- Declares the fields of a schema, in order (spec §12). -/
def declareFields (created : List ClassRef) (c : ClassRef) : List FieldSpec → Action Unit
  | [] => return ()
  | f :: rest => do
    World.declareOnClass c (.str f.name)
      (f.rules.map fun r => .fragment (r.resolve created)) (some (f.declared.resolve created))
    declareFields created c rest

/-- Declares the fields of schemas, in order (spec §12). -/
def declareAll (created : List ClassRef) : List SchemaSpec → Action Unit
  | [] => return ()
  | s :: rest => do
    declareFields created (classOf created s.name) s.fields
    declareAll created rest

/-- The schemas that a table describes, unless its validation ends with a fault or has issues
(spec §12). -/
def Found.accepted {α : Type} (found : Found α) : Except Fault α :=
  match found.faults, found.issues with
  | fault :: _, _ => .error fault
  | [], issue :: issues => .error (.table (issue :: issues))
  | [], [] => .ok found.result

/-- Creates the schemas of a table, and gives their classes in order (spec §12). -/
def build (binder : Option Nat) (table : Value) : Action (List ClassRef) :=
  match table with
  | .dict entries =>
    if !printable entries then throw (.value .digits)
    else do
      let specs ← World.lift (read entries).accepted
      let created ← createAll binder specs
      declareAll created specs
      World.logEvent (.tableBuilt (created.map ClassRef.name))
      return created
  | v => throw (.table [typeIssue rootField "object" v])

end Table

end SchemaBinding
