import SchemaBinding.Log.Level
import SchemaBinding.Log.Redaction
import SchemaBinding.Sorting

/-!
# Log lines

An event is logged with fields of its own and those of the scopes it is logged in, which it may
override. Its level and the time are added under keys of their own, secrets are masked, and the
whole is written as a JSON object with its keys in order. Values that JSON does not know are written
as texts.

Specification: §10.
-/

namespace SchemaBinding.Log

/-- An event to be logged. -/
structure Entry where
  /-- The name of the method by which it is logged. -/
  method : String
  /-- What happened. -/
  event : Value
  /-- The fields of the event. -/
  fields : List (Value × Value)
  /-- The fields of the scope; those without a value are left out. -/
  scope : List (String × Option String)

/-- The methods by which events are logged, each with the level that it logs at. -/
def methods : List (String × EntryLevel) := [
  ("debug", .debug), ("info", .info), ("msg", .info), ("warning", .warning), ("warn", .warning),
  ("error", .error), ("exception", .error), ("critical", .critical), ("fatal", .critical)]

/-- A method by which an event is logged. -/
structure Method where
  /-- Its name. -/
  name : String
  /-- The level that it logs at. -/
  level : EntryLevel
  /-- Whether it only promises to log, so that nothing is written unless the promise is kept. -/
  promises : Bool

namespace Method

/-- The method of a name. The name of one that only promises has a letter before it. -/
def find? (name : String) : Option Method :=
  methods.findSome? fun m =>
    if m.1 == name then some ⟨name, m.2, false⟩
    else if "a" ++ m.1 == name then some ⟨name, m.2, true⟩
    else none

/-- The name by which a method goes in messages, given whether events of its level are let through.
-/
def title (m : Method) (isOpen : Bool) : String :=
  if m.name == "exception" || m.name == "aexception" then m.name
  else
    let part := (if m.promises then "a" else "") ++ (if isOpen then "meth" else "nop")
    if isOpen then "_make_filtering_bound_logger.<locals>.make_method.<locals>." ++ part
    else "_" ++ part

/-- The names of the arguments that every method takes itself. -/
def arguments : List String := ["self", "event"]

/-- Asks that no field be named like an argument that a function takes itself. -/
def requireOthers (function : String) (taken : List String) (fields : List (Value × Value)) :
    Except Fault Unit :=
  match fields.findSome? fun f => taken.find? fun name => f.1.eq (.str name) with
  | some name => .error (.type (.repeatedArgument function name))
  | none => .ok ()

/-- Asks that fields can be handed to a method: their names are texts, and none is taken. -/
def accept (m : Method) (isOpen : Bool) (fields : List (Value × Value)) : Except Fault Unit := do
  if fields.any fun f => f.1.kind != .string then throw (.type .keywords)
  requireOthers (m.title isOpen) arguments fields
  if isOpen && !m.promises then
    requireOthers "BoundLoggerBase._proxy_to_logger" ["method_name"] fields

end Method

/-- Whether one entry of a dictionary comes before another, by their keys. -/
def entryBefore {α : Type} (a b : Value × α) : Except Fault Bool :=
  match a.1.order b.1 with
  | .ok o => .ok (o == some .lt)
  | .error f => .error (.type (.unordered f))

/-- An integer in decimal, unless it has too many digits. -/
def decimal (i : Int) : Except Fault String :=
  if Value.intPrintable i then .ok (toString i) else .error (.value .digits)

/-- A key as JSON has it: a text. -/
def jsonKey : Value → Except Fault String
  | .str s => .ok s
  | .null => .ok "null"
  | .bool b => .ok (if b then "true" else "false")
  | .int i => decimal i
  | .float x =>
    .ok (match x with
      | .nan _ => "NaN"
      | .infinite negative => if negative then "-Infinity" else "Infinity"
      | x => x.text)
  | v => .error (.type (.jsonKey v.fullTypeName))

/-- The entries of a dictionary as they come back from a line: the keys are texts and in order, and
of keys with the same text the last counts. What stands under a key is looked at after the key. -/
def writtenDict (entries : List (Value × Except Fault Value)) : Except Fault Value := do
  let sorted ← Sorting.sort entryBefore entries
  let keyed ← sorted.mapM fun e => do
    let key ← jsonKey e.1
    let value ← e.2
    return (Value.str key, value)
  return .dict (keyed.foldl (fun acc e => Value.setEntry acc e.1 e.2) [])

mutual

/-- A value as it comes back from a line: tuples are lists, keys are texts and in order, and values
that JSON does not know are texts. -/
def written (v : Value) : Except Fault Value :=
  match v with
  | .list items _ => (writtenItems items).map fun items => .list items none
  | .tuple items => (writtenItems items).map fun items => .list items none
  | .dict entries => writtenDict (writtenEntries entries)
  | .null => .ok .null
  | .bool b => .ok (.bool b)
  | .int i => (decimal i).map fun _ => .int i
  | .float x => .ok (.float x)
  | .str s => .ok (.str s)
  | other => .ok (.str other.text)
termination_by structural v

/-- Items as they come back. -/
def writtenItems (vs : List Value) : Except Fault (List Value) :=
  match vs with
  | [] => .ok []
  | v :: vs => do
    let w ← written v
    let ws ← writtenItems vs
    return w :: ws
termination_by structural vs

/-- An entry with its value as it comes back. -/
def writtenEntry (e : Value × Value) : Value × Except Fault Value :=
  match e with
  | (k, v) => (k, written v)
termination_by structural e

/-- Entries with their values as they come back. -/
def writtenEntries (es : List (Value × Value)) : List (Value × Except Fault Value) :=
  match es with
  | [] => []
  | e :: es => writtenEntry e :: writtenEntries es
termination_by structural es

end

/-- The fields of the event itself. An exception is said to be one, unless a field says otherwise.
-/
def ownFields (e : Entry) : List (Value × Value) :=
  let noted := e.fields.any fun f => f.1.eq (.str "exc_info")
  if e.method == "exception" && !noted then e.fields ++ [(.str "exc_info", .bool true)]
  else e.fields

/-- The fields of an event before redaction. What happened is left out if it is null, and the time
is known only to be present (spec §10). -/
def assemble (level : EntryLevel) (e : Entry) : List (Value × Value) :=
  let scope := e.scope.filterMap fun f => f.2.map fun v => (Value.str f.1, Value.str v)
  let fields := (ownFields e).foldl (fun acc f => Value.setEntry acc f.1 f.2) scope
  let named := match e.event with
    | .null => fields
    | event => Value.setEntry fields (.str "event") event
  Value.setEntry (Value.setEntry named (.str "level") (.str level.name)) (.str "timestamp")
    (.bool true)

/-- The line of an event (spec §10). -/
def line (c : Config) (level : EntryLevel) (e : Entry) : Except Fault Value := do
  let fields ← if c.redact then redactEvent (assemble level e) else pure (assemble level e)
  written (.dict fields)

/-- The line of an event, if it is important enough (spec §10). -/
def line? (c : Config) (e : Entry) : Except Fault (Option Value) :=
  match Method.find? e.method with
  | none => .error (.attribute (.ofInstance (filterName c.level) e.method))
  | some m => do
    let isOpen := decide (c.level ≤ m.level.number)
    m.accept isOpen e.fields
    if isOpen && !m.promises then return some (← line c m.level e) else return none

/-- The lines of events that are important enough (spec §10). -/
def lines (c : Config) : List Entry → Except Fault (List Value)
  | [] => .ok []
  | e :: es => do
    let first ← line? c e
    let rest ← lines c es
    return first.toList ++ rest

end SchemaBinding.Log
