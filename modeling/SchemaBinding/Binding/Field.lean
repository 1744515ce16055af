import SchemaBinding.Kind.Conversion
import SchemaBinding.World

/-!
# Binding one field

The value of a field is converted to the field's kind, tried against the union, passed through the
transforms, checked in declaration order, and at last asked to be integral. A nested schema is
entered through a function that the caller provides, so that what a field does is settled apart from
how deep schemas nest. A conversion can fail, and asks nothing else of the monad that it runs in.

Specification: §4.2, steps 3 to 8.
-/

namespace SchemaBinding.Binding

section Convert

variable {m : Type → Type} [Monad m] [MonadExceptOf Fault m]

/-- A failure at a field (spec §7). -/
def fail {α : Type} (typeName field : String) (cause : BindingCause) : m α :=
  throw (.ofBinding ⟨typeName, field, cause⟩)

variable (enter : ClassRef → Value → m Value)

/-- A value converted to a kind that is no array. `index` is its place in an array
(spec §4.2, step 4). -/
def convertScalar (typeName field : String) (index : Option Nat) (raw : Value) :
    ScalarKind → m Value
  | .primitive p =>
    match p.convert raw with
    | .ok v => return v
    | .error expected => fail typeName field (.mismatch expected raw.kind index)
  | .date target =>
    match parseDate raw target with
    | .ok (some v) => return v
    | .ok none => fail typeName field (.invalidDate raw)
    | .error fault => throw fault
  | .schema cls =>
    match raw with
    | .dict _ => enter cls raw
    | _ => fail typeName field (.mismatch JsonKind.object.name raw.kind index)
  | .mapping =>
    match raw with
    | .dict entries => return .dict entries
    | _ => fail typeName field (.mismatch JsonKind.object.name raw.kind index)
  | .any => return raw

/-- The elements of an array, converted from left to right from an index on (spec §4.2, step 4). -/
def convertItems (typeName field : String) (kind : ScalarKind) :
    (index : Nat) → List Value → m (List Value)
  | _, [] => return []
  | index, raw :: rest => do
    let v ← convertScalar enter typeName field (some index) raw kind
    let vs ← convertItems typeName field kind (index + 1) rest
    return v :: vs

/-- The items of a list or a tuple (spec §4.2, step 4). -/
def arrayItems? : Value → Option (List Value)
  | .list items _ => some items
  | .tuple items => some items
  | _ => none

/-- A value converted to a kind (spec §4.2, step 4). -/
def convert (typeName field : String) (raw : Value) : ValueKind → m Value
  | .scalar kind => convertScalar enter typeName field none raw kind
  | .array element =>
    match arrayItems? raw with
    | none => fail typeName field (.mismatch JsonKind.array.name raw.kind none)
    | some items =>
      match element with
      | none => return .list items none
      | some kind => do
        let vs ← convertItems enter typeName field kind 0 items
        return .list vs none

/-- A value converted to the kind of a planned field. A number that a primitive kind refuses is
called no integer if the field asks for one (spec §4.2, steps 4 and 8). -/
def convertField (typeName : String) (plan : FieldPlan) (kind : ValueKind) (raw : Value) :
    m Value :=
  match kind with
  | .scalar (.primitive p) =>
    match p.convert raw with
    | .ok v => return v
    | .error expected =>
      if plan.integer && raw.isNumber then fail typeName plan.name (.notInteger raw)
      else fail typeName plan.name (.mismatch expected raw.kind none)
  | kind => convert enter typeName plan.name raw kind

end Convert

/-- How a nested schema is bound: a class and a value make a record (spec §4.2, step 4). -/
abbrev Enter := ClassRef → Value → Action Value

/-- A list or a tuple that holds the items of another several times over. -/
def repeatItems (times : Nat) : Value → Value
  | .list items _ => .list (List.replicate times items).flatten none
  | .tuple items => .tuple (List.replicate times items).flatten
  | v => v

/-- A value that a function gives: `kept` is the value that it keeps, `argument` the one that it was
called with, and `attrs` are the attributes of the record. -/
def obtain (kept argument : Value) (attrs : List (String × Value)) : Given → Action Value
  | .made v => World.adopt v
  | .argument => return argument
  | .kept => return kept
  | .attribute name => return (Value.attr? name attrs).getD .null
  | .single item => do
    let v ← obtain kept argument attrs item
    World.adopt (.list [v] none)
  | .repeated times items => do
    let v ← obtain kept argument attrs items
    World.adopt (repeatItems times v)

/-- The attributes of a record after a function has set some of them. -/
def setGiven (kept argument : Value) :
    List (String × Given) → (attrs : List (String × Value)) → Action (List (String × Value))
  | [], attrs => return attrs
  | (name, given) :: rest, attrs => do
    let v ← obtain kept argument attrs given
    setGiven kept argument rest (Value.setAttr attrs name v)

/-- Calls a function of the caller: the attributes that it leaves, and what it gives. An ordinary
error that it raises fails the field, and so does an attempt to set an attribute of a record that
can have none; a binding error is passed on (spec §4.2, steps 6 and 7). -/
def call (cls : ClassRef) (field : String) (attrs : List (String × Value)) (f : UserFunction)
    (value : Value) : Action (List (String × Value) × Value) := do
  let w ← get
  let subject : Subject :=
    ⟨cls, attrs.map fun a => (a.1, a.2.unlabelled), w.classes.hasAttributes cls⟩
  modify fun w => { w with calls := w.calls ++ [⟨f.label, subject, field, value⟩] }
  match f.reply subject field value.unlabelled with
  | .raised (.binding e) => throw (.binding e)
  | .raised (.ordinary typeName text) =>
    fail cls.name field (.custom (Raised.detail typeName text))
  | .returned sets given => do
    match subject.hasAttributes, sets with
    | false, (name, _) :: _ =>
      fail cls.name field (.custom (AttributeFault.unsettable cls.name name).message)
    | _, _ => do
      let kept := w.growth.current f.kept
      let attrs ← setGiven kept value sets attrs
      return (attrs, ← obtain kept value attrs given)

/-- The transforms of a field in order; each may replace the value by returning one that is not null
(spec §4.2, step 6). -/
def transform (cls : ClassRef) (field : String) :
    List UserFunction → (attrs : List (String × Value)) → (value : Value) →
      Action (List (String × Value) × Value)
  | [], attrs, value => return (attrs, value)
  | f :: fs, attrs, value => do
    let (attrs, replacement) ← call cls field attrs f value
    match replacement with
    | .null => transform cls field fs attrs value
    | v => transform cls field fs attrs v

/-- One check of a value. A predicate refuses the value by returning false (spec §4.2, step 7). -/
def check (cls : ClassRef) (field : String) (attrs : List (String × Value)) (value : Value) :
    Check → Action (List (String × Value))
  | .comparison c => do
    World.lift (c.check cls.name field value)
    return attrs
  | .custom predicate => do
    let (attrs, verdict) ← call cls field attrs predicate value
    match verdict with
    | .bool false =>
      if value.printable then fail cls.name field (.custom (value.text ++ " rejected"))
      else throw (.value .digits)
    | _ => return attrs

/-- The checks of a value in order (spec §4.2, step 7). -/
def checkAll (cls : ClassRef) (field : String) (value : Value) :
    List Check → (attrs : List (String × Value)) → Action (List (String × Value))
  | [], attrs => return attrs
  | c :: cs, attrs => do
    let attrs ← check cls field attrs value c
    checkAll cls field value cs attrs

/-- Asks that a value loosely equal one of the allowed ones, if there is such a rule
(spec §4.2, step 5). -/
def checkMembers (typeName field : String) (members : Option Members) (value : Value) :
    Except Fault Unit :=
  match members with
  | some m => checkUnion typeName field m.values value
  | none => .ok ()

/-- Asks that a value be integral, if there is such a rule (spec §4.2, step 8). -/
def checkIntegral (typeName field : String) (integer : Bool) (value : Value) :
    Except Fault Unit :=
  if integer then checkInteger typeName field value else .ok ()

/-- The value of a field and the attributes that its functions leave. A field without a kind keeps
its raw value, on which only the transforms run (spec §4.2, steps 3 to 8). -/
def resolve (enter : Enter) (cls : ClassRef) (plan : FieldPlan) (attrs : List (String × Value))
    (raw : Value) : Action (List (String × Value) × Value) :=
  match plan.kind with
  | none => transform cls plan.name plan.transforms attrs raw
  | some kind => do
    let value ← World.adopt (← convertField enter cls.name plan kind raw)
    World.lift (checkMembers cls.name plan.name plan.union value)
    let (attrs, value) ← transform cls plan.name plan.transforms attrs value
    let attrs ← checkAll cls plan.name value plan.checks attrs
    World.lift (checkIntegral cls.name plan.name plan.integer value)
    return (attrs, value)

end SchemaBinding.Binding
