import SchemaBinding.Class.Creation
import SchemaBinding.Text.Sorted

/-!
# Schema tables

A table describes schemas as plain data: schema names with field names, each with a type name or a
dictionary of rules. The whole table is validated first, and every offence becomes an issue under
its path; the result describes the schemas with references to one another by name. What a rule says
is tested here, and tested again when its fragment is made: a fragment that cannot be made of what
passed the first test is a fault and no issue, and ends the validation.

Specification: §12.
-/

namespace SchemaBinding.Table

/-- A type that a table names: a builtin one, or a schema of the table (spec §12). -/
inductive TypeRef where
  | builtin (t : DeclaredType)
  | schema (name : String)

/-- A rule of a field; only the element type of an array can refer to a schema (spec §12). -/
inductive SpecRule where
  | rule (f : Fragment)
  | arrayOf (element : TypeRef)

/-- A field of a schema (spec §12). -/
structure FieldSpec where
  /-- Its name. -/
  name : String
  /-- Its type. -/
  declared : TypeRef
  /-- Its rules, in the order in which they are declared. -/
  rules : List SpecRule

/-- A schema of a table (spec §12). -/
structure SchemaSpec where
  /-- Its name. -/
  name : String
  /-- Its fields. -/
  fields : List FieldSpec

/-- What a validation gives: a result, if there is one, the issues found on the way, and the faults
at which fragments were made (spec §12). -/
structure Found (α : Type) where
  /-- The result. -/
  result : α
  /-- The issues, in order. -/
  issues : List Issue
  /-- The faults, in order. The first of them ends the validation. -/
  faults : List Fault

namespace Found

variable {α : Type}

/-- A result, with nothing wrong. -/
def clean (result : α) : Found α := ⟨result, [], []⟩

/-- A result in spite of an issue. -/
def flawed (result : α) (issue : Issue) : Found α := ⟨result, [issue], []⟩

end Found

/-- The names of the builtin types (spec §12). -/
def builtinTypes : List (String × BasicType) := [
  ("str", .str), ("string", .str), ("int", .int), ("float", .float), ("number", .number),
  ("bool", .bool), ("boolean", .bool), ("date", .date), ("datetime", .dateTime),
  ("array", .list), ("list", .list), ("object", .dict), ("dict", .dict), ("any", .object)]

/-- The names of the array type. -/
def arrayTypeNames : List String := ["array", "list"]

/-- The rules that compare with a bound, in the order in which they are declared. -/
def comparisonKeys : List (String × Relation) := [
  ("gt", .greater), ("gte", .greaterOrEqual), ("lt", .less), ("lte", .lessOrEqual),
  ("eq", .equal), ("ne", .notEqual)]

/-- The keys that a field may have (spec §12). -/
def fieldKeys : List String :=
  ["type", "required", "default", "map", "items", "union", "integer", "passthrough"] ++
    comparisonKeys.map Prod.fst

/-- The issues of a name for a schema or a field. -/
def nameIssues (path : String) (name : Value) : List Issue :=
  match name with
  | .str s =>
    if !Text.isIdentifier s then [⟨path, "expected identifier, got " ++ name.text⟩]
    else if Text.isReserved s then [⟨path, name.text ++ " is reserved"⟩]
    else []
  | _ => [⟨path, "expected identifier, got " ++ name.text⟩]

/-- The name that a value is, if it may name a schema or a field. -/
def validName? (name : Value) : Option String :=
  match name with
  | .str s => if (nameIssues "" name).isEmpty then some s else none
  | _ => none

/-- An issue that a value has the wrong type. -/
def typeIssue (path expected : String) (v : Value) : Issue :=
  ⟨path, "expected " ++ expected ++ ", got " ++ v.typeName⟩

/-- The type that a value names (spec §12). -/
def readType (schemas : List String) (path : String) (v : Value) : Found (Option TypeRef) :=
  match v with
  | .str name =>
    if schemas.contains name then .clean (some (.schema name))
    else match builtinTypes.find? fun b => b.1 == name with
      | some b => .clean (some (.builtin (.basic b.2)))
      | none => .flawed none ⟨path, "unknown type " ++ Text.quoted name⟩
  | _ => .flawed none (typeIssue path "type name" v)

/-- The truth value under a key, if there is one. -/
def readFlag (path : String) (v : Value) : Found (Option Bool) :=
  match v with
  | .bool b => .clean (some b)
  | _ => .flawed none (typeIssue path "boolean" v)

/-- The keys of a field that mean nothing, in order. -/
def unknownKeys (path : String) (entries : List (Value × Value)) : List Issue :=
  ((Text.sorted (entries.map fun e => e.1.words)).filter fun k => !fieldKeys.contains k).map
    fun k => ⟨Issue.join path k, "unknown field"⟩

/-- Whether the field must be there. A default excludes that it must (spec §12). -/
def readRequirement (path : String) (entries : List (Value × Value)) : Found (List SpecRule) :=
  let default? := Value.lookup? "default" entries
  let own : Found (List SpecRule) :=
    match Value.lookup? "required" entries with
    | none => .clean []
    | some v =>
      let flag := readFlag (Issue.join path "required") v
      match flag.result, default? with
      | some true, some _ =>
        { flag with
          result := [.rule (.requirement .required)]
          issues := flag.issues ++
            [⟨Issue.join path "default", "cannot be combined with required: true"⟩] }
      | some true, none => { flag with result := [.rule (.requirement .required)] }
      | some false, none => { flag with result := [.rule (.requirement .optional)] }
      | _, _ => { flag with result := [] }
  match default? with
  | some v => { own with result := own.result ++ [.rule (.requirement (.defaulted v))] }
  | none => own

/-- The rule of a fragment, if it could be made. -/
def madeRule : Except Fault Fragment → Found (List SpecRule)
  | .ok f => .clean [.rule f]
  | .error fault => ⟨[], [], [fault]⟩

/-- Whether a value is a text that is not empty. -/
def isFilledText : Value → Bool
  | .str s => !s.isEmpty
  | _ => false

/-- The key under which the field is read (spec §12). -/
def readMap (path : String) (entries : List (Value × Value)) : Found (List SpecRule) :=
  match Value.lookup? "map" entries with
  | none => .clean []
  | some v =>
    if isFilledText v then madeRule (Fragment.mapFrom v)
    else .flawed [] ⟨Issue.join path "map", "expected non-empty string"⟩

/-- Whether a value is a name of the array type. -/
def isArrayName : Value → Bool
  | .str s => arrayTypeNames.contains s
  | _ => false

/-- Whether the value under a key is exactly true. -/
def isTrue (key : String) (entries : List (Value × Value)) : Bool :=
  match Value.lookup? key entries with
  | some (.bool true) => true
  | _ => false

/-- The type of the elements. Only a passthrough field may name arrays of arrays (spec §12). -/
def readItems (schemas : List String) (path : String) (typeName : Value)
    (entries : List (Value × Value)) : Found (List SpecRule) :=
  match Value.lookup? "items" entries with
  | none => .clean []
  | some v =>
    let itemsPath := Issue.join path "items"
    if !isArrayName typeName then .flawed [] ⟨itemsPath, "only array fields may declare items"⟩
    else if !isTrue "passthrough" entries && isArrayName v then
      .flawed [] ⟨itemsPath, "array elements may not be arrays"⟩
    else
      let element := readType schemas itemsPath v
      { element with result := (element.result.map SpecRule.arrayOf).toList }

/-- Whether a value is a list that is not empty. -/
def isFilledList : Value → Bool
  | .list items _ => !items.isEmpty
  | _ => false

/-- The values that the field may take (spec §12). -/
def readUnion (path : String) (entries : List (Value × Value)) : Found (List SpecRule) :=
  match Value.lookup? "union" entries with
  | none => .clean []
  | some v =>
    if isFilledList v then madeRule (Fragment.unionOf v)
    else .flawed [] ⟨Issue.join path "union", "expected non-empty list"⟩

/-- Whether a value is of the boolean type. -/
def isBoolean : Value → Bool
  | .bool _ => true
  | _ => false

/-- Whether a value is of a type of real numbers. The boolean type is one of them, and the only
others that values have are the integer and the floating-point type. -/
def isReal : Value → Bool
  | .bool _ => true
  | .int _ => true
  | .float _ => true
  | _ => false

/-- One comparison with a bound. The bound of an ordering must be a real number and no boolean
(spec §12). -/
def readComparison (path : String) (entries : List (Value × Value)) (key : String)
    (relation : Relation) : Found (List SpecRule) :=
  match Value.lookup? key entries with
  | none => .clean []
  | some bound =>
    if relation.isNumeric && (isBoolean bound || !isReal bound) then
      .flawed [] (typeIssue (Issue.join path key) "number" bound)
    else madeRule (Fragment.comparing relation bound)

/-- A rule that holds when the value under a key is true. -/
def readRule (path : String) (entries : List (Value × Value)) (key : String) (f : Fragment) :
    Found (List SpecRule) :=
  match Value.lookup? key entries with
  | none => .clean []
  | some v =>
    let flag := readFlag (Issue.join path key) v
    { flag with result := if flag.result == some true then [.rule f] else [] }

/-- The entries that describe a field, a type name standing for a dictionary with only a type. -/
def fieldEntries? : Value → Option (List (Value × Value))
  | .str s => some [(.str "type", .str s)]
  | .dict entries => some entries
  | _ => none

/-- A field of a schema, if its type is known (spec §12). -/
def readField (schemas : List String) (path name : String) (v : Value) :
    Found (Option FieldSpec) :=
  match fieldEntries? v with
  | none => .flawed none (typeIssue path "type name or object" v)
  | some entries =>
    let typeName := (Value.lookup? "type" entries).getD (.str "any")
    let declared := readType schemas (Issue.join path "type") typeName
    let parts := [readRequirement path entries, readMap path entries,
        readItems schemas path typeName entries, readUnion path entries] ++
      comparisonKeys.map (fun k => readComparison path entries k.1 k.2) ++
      [readRule path entries "integer" .integer, readRule path entries "passthrough" .passthrough]
    ⟨declared.result.map fun t => ⟨name, t, parts.flatMap Found.result⟩,
      unknownKeys path entries ++ declared.issues ++ parts.flatMap Found.issues,
      declared.faults ++ parts.flatMap Found.faults⟩

/-- The fields of a schema (spec §12). -/
def readFields (schemas : List String) (path : String) :
    List (Value × Value) → Found (List FieldSpec)
  | [] => .clean []
  | (key, v) :: rest =>
    let fieldPath := Issue.join path key.words
    let others := readFields schemas path rest
    match validName? key with
    | none => { others with issues := nameIssues fieldPath key ++ others.issues }
    | some name =>
      let field := readField schemas fieldPath name v
      ⟨field.result.toList ++ others.result, field.issues ++ others.issues,
        field.faults ++ others.faults⟩

/-- One schema; an absent description is one without fields (spec §12). -/
def readSchema (schemas : List String) (name : String) (v : Value) : Found SchemaSpec :=
  match v with
  | .null => .clean ⟨name, []⟩
  | .dict entries =>
    let fields := readFields schemas name entries
    ⟨⟨name, fields.result⟩, fields.issues, fields.faults⟩
  | _ => .flawed ⟨name, []⟩ (typeIssue name "object" v)

/-- The names of the schemas of a table. -/
def schemaNames (entries : List (Value × Value)) : List String :=
  entries.filterMap fun e => validName? e.1

/-- The schemas of a table whose names are valid (spec §12). -/
def readSchemas (schemas : List String) : List (Value × Value) → Found (List SchemaSpec)
  | [] => .clean []
  | (key, v) :: rest =>
    let others := readSchemas schemas rest
    match validName? key with
    | none => others
    | some name =>
      let schema := readSchema schemas name v
      ⟨schema.result :: others.result, schema.issues ++ others.issues,
        schema.faults ++ others.faults⟩

/-- All that a table describes, and all its issues: those of the schema names first (spec §12). -/
def read (entries : List (Value × Value)) : Found (List SchemaSpec) :=
  let schemas := readSchemas (schemaNames entries) entries
  ⟨schemas.result, entries.flatMap (fun e => nameIssues e.1.words e.1) ++ schemas.issues,
    schemas.faults⟩

/-- Whether the keys of dictionary entries can be shown. -/
def keysPrintable (entries : List (Value × Value)) : Bool := entries.all fun e => e.1.printable

/-- The entries of a value, if it is a dictionary. -/
def entriesOf : Value → List (Value × Value)
  | .dict entries => entries
  | _ => []

/-- Whether every key that a validation looks at can be shown: those of the table, of the schemas
with valid names, and of the fields with valid names. -/
def printable (entries : List (Value × Value)) : Bool :=
  let named := fun (e : Value × Value) => if (validName? e.1).isSome then entriesOf e.2 else []
  let fields := entries.flatMap named
  keysPrintable entries && keysPrintable fields && keysPrintable (fields.flatMap named)

end SchemaBinding.Table
