import SchemaBinding.Binding.Field

/-!
# Binding records

A record is bound field by field, in the order of its plan: a field that is absent or null takes its
default, and without one it fails if it is required and else stays unset. Nested schemas are bound
by the same rules one level deeper, each schema class with its own binder and other classes with the
binder at work. The first failure ends the whole bind.

Specification: §4.2, steps 1 and 2 and 9, and §10.
-/

namespace SchemaBinding.Binding

/-- A copy of the default of a field, null without one (spec §3.1). -/
def defaultCopy (plan : FieldPlan) : Value :=
  (plan.requirement.default?.map Value.copied).getD .null

/-- The raw value of a field: what the payload has under its key, or a copy of its default
(spec §4.2, steps 1 and 2). -/
def rawValue (plan : FieldPlan) (entries : List (Value × Value)) : Value :=
  match Value.lookup? plan.sourceKey entries with
  | some .null => defaultCopy plan
  | some v => v
  | none => defaultCopy plan

/-- Sets an attribute of a record, if its class lets it (spec §4.2, step 9). -/
def assign (cls : ClassRef) (attrs : List (String × Value)) (name : String) (value : Value) :
    Action (List (String × Value)) := do
  let w ← get
  if w.classes.hasAttributes cls then return Value.setAttr attrs name value
  else throw (.attribute (.unsettable cls.name name))

/-- Binds one field of a record (spec §4.2, steps 1 to 9). -/
def bindField (enter : Enter) (cls : ClassRef) (entries : List (Value × Value)) (plan : FieldPlan)
    (attrs : List (String × Value)) : Action (List (String × Value)) :=
  match rawValue plan entries with
  | .null =>
    if plan.requirement.isRequired then fail cls.name plan.name .missing else return attrs
  | raw => do
    let (attrs, value) ← resolve enter cls plan attrs (← World.adopt raw)
    assign cls attrs plan.name value

/-- Binds the fields of a record in order (spec §4.2). -/
def bindFields (enter : Enter) (cls : ClassRef) (entries : List (Value × Value)) :
    List FieldPlan → (attrs : List (String × Value)) → Action (List (String × Value))
  | [], attrs => return attrs
  | plan :: plans, attrs => do
    let attrs ← bindField enter cls entries plan attrs
    bindFields enter cls entries plans attrs

/-- A new instance of a class with attributes. Those of one class are bytes, and there are none in
them (spec §3.2). -/
def instanceOf (cls : ClassRef) (attrs : List (String × Value)) : Value :=
  if cls = .bytes then .bytes [] else .record cls attrs

/-- Binds a payload to a class with a binder at a depth, and gives the attributes of the record.
`source` tells the plans. `levels` counts the levels that any binder still allows, so none are left
only beyond every limit (spec §4.2). -/
def populate (source : PlanSource) : (levels : Nat) → (binder depth : Nat) → ClassRef → Value →
    Action (List (String × Value))
  | 0, binder, _, cls, _ => do
    let w ← get
    fail cls.name rootField (.tooDeep (w.binder binder).maxDepth)
  | levels + 1, binder, depth, cls, data => do
    let w ← get
    let b := w.binder binder
    if b.maxDepth < depth then fail cls.name rootField (.tooDeep b.maxDepth)
    else match data with
      | .dict entries =>
        let plans ← source b.registry cls
        let enter : Enter := fun nested raw => do
          let next := w.nestedBinder binder nested
          return instanceOf nested (← populate source levels next (depth + 1) nested raw)
        bindFields enter cls entries plans []
      | v => fail cls.name rootField (.mismatch JsonKind.object.name v.kind none)

/-- Reports a failed bind, which goes on failing (spec §10). -/
def reporting {α : Type} (cls : ClassRef) (action : Action α) : Action α :=
  tryCatch action fun fault =>
    match fault with
    | .binding e => do
      World.logEvent (.bindFailed cls.name e)
      throw fault
    | _ => throw fault

/-- An absent payload counts as an empty one (spec §6). -/
def rootPayload : Value → Value
  | .null => .dict []
  | v => v

/-- The attributes of a new record of a class, bound with a binder. The payload is first told apart
from all other values (spec §4.2). -/
def bindAttrs (source : PlanSource) (binder : Nat) (cls : ClassRef) (data : Value) :
    Action (List (String × Value)) := do
  let data ← World.adopt data
  let w ← get
  reporting cls (populate source (w.depthBound + 1) binder 0 cls (rootPayload data))

/-- A new instance of a class, bound with a binder (spec §4.2 and §6). -/
def bind (binder : Nat) (cls : ClassRef) (data : Value) : Action Value :=
  return instanceOf cls (← bindAttrs World.planOf binder cls data)

/-- Attributes with others laid over them. -/
def overlay (attrs : List (String × Value)) (added : List (String × Value)) :
    List (String × Value) :=
  added.foldl (fun attrs a => Value.setAttr attrs a.1 a.2) attrs

/-- Binds a payload onto a record of a class that has these attributes, and gives those that it has
afterwards. The fields are bound to a new record, whose attributes are laid over the others only
once every field has passed; to read them off, the class must let its instances have attributes
(spec §4.2). -/
def bindOnto (source : PlanSource) (binder : Nat) (cls : ClassRef) (attrs : List (String × Value))
    (data : Value) : Action (List (String × Value)) := do
  let bound ← bindAttrs source binder cls data
  let w ← get
  if w.classes.hasAttributes cls then return overlay attrs bound
  else throw (.type .noAttributes)

end SchemaBinding.Binding
