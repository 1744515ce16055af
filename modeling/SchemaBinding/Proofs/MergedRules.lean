import SchemaBinding.Proofs.ContractChanges

/-!
# What merging rules makes of a contract

Rules of one sort replace one another, or add up in order; rules of different sorts have nothing to
do with each other. So a contract into which rules are merged is told part by part, each part by the
rules of its own sort. Whether rules conflict is told by the requirements among them alone: where
requiredness may be declared only once, by the contract and all rules there may be one.
-/

namespace SchemaBinding

namespace Fragment

/-- The requirement that a rule states. -/
def requirement? : Fragment → Option Requirement
  | .requirement r => some r
  | _ => none

/-- The source key that a rule gives. -/
def sourceKey? : Fragment → Option SourceKey
  | .sourceKey key => some key
  | _ => none

/-- The type of elements that a rule gives. -/
def element? : Fragment → Option DeclaredType
  | .arrayOf element => some element
  | _ => none

/-- The members that a rule allows. -/
def members? : Fragment → Option Members
  | .union members => some members
  | _ => none

/-- The transform that a rule adds. -/
def transform? : Fragment → Option UserFunction
  | .transform function => some function
  | _ => none

/-- The check that a rule adds. -/
def check? : Fragment → Option Check
  | .check c => some c
  | _ => none

/-- Whether a rule keeps the value as it is. -/
def isPassthrough : Fragment → Bool
  | .passthrough => true
  | _ => false

/-- Whether a rule asks for a number without a fractional part. -/
def isInteger : Fragment → Bool
  | .integer => true
  | _ => false

/-- The requirements that rules state, in order. -/
def requirements (fs : List Fragment) : List Requirement := fs.filterMap requirement?

end Fragment

namespace FieldContract

open Fragment

variable {c d : FieldContract} {fs gs : List Fragment}

/-- A contract into which rules have been merged, part by part. -/
def merged (c : FieldContract) (fs : List Fragment) : FieldContract where
  name := c.name
  declared := c.declared
  requirement := (requirements fs).getLast?.or c.requirement
  sourceKey := (fs.filterMap sourceKey?).getLast?.or c.sourceKey
  passthrough := c.passthrough || fs.any isPassthrough
  element := (fs.filterMap element?).getLast?.or c.element
  union := (fs.filterMap members?).getLast?.or c.union
  transforms := c.transforms ++ fs.filterMap transform?
  checks := c.checks ++ fs.filterMap check?
  integer := c.integer || fs.any isInteger

/-- What is last of a list with one more item in front: of a rule that says something and what later
ones say. -/
private theorem getLast?_filterMap_cons {α : Type} (p : Fragment → Option α) (f : Fragment)
    (fs : List Fragment) (a : Option α) :
    ((f :: fs).filterMap p).getLast?.or a = (fs.filterMap p).getLast?.or ((p f).or a) := by
  cases h : p f with
  | none => simp [h]
  | some x =>
    rw [List.filterMap_cons_some h, List.getLast?_cons]
    cases (fs.filterMap p).getLast? <;> rfl

/-- Rules merged one after another are merged part by part. -/
theorem foldl_merge_eq_merged (c : FieldContract) (fs : List Fragment) :
    fs.foldl merge c = c.merged fs := by
  induction fs generalizing c with
  | nil => simp [merged, requirements]
  | cons f fs ih =>
    rw [List.foldl_cons, ih]
    simp only [merged, requirements, getLast?_filterMap_cons, List.any_cons]
    cases f <;>
      simp [merge, add, Except.toOption, requirement?, sourceKey?, element?, members?, transform?,
        check?, isPassthrough, isInteger, List.filterMap_cons]

/-- The requirements that a contract, and then rules, state. -/
def stated (c : FieldContract) (fs : List Fragment) : List Requirement :=
  c.requirement.toList ++ requirements fs

/-- Where requiredness may be declared only once, rules are merged if they and the contract state at
most one requirement. Otherwise the first of all is in the way. -/
theorem addAll_true (c : FieldContract) (fs : List Fragment) :
    c.addAll true fs = match c.stated fs with
      | r :: _ :: _ => .error r
      | _ => .ok (c.merged fs) := by
  rw [← foldl_merge_eq_merged]
  induction fs generalizing c with
  | nil => cases h : c.requirement <;> simp [stated, requirements, addAll, h]
  | cons f fs ih =>
    cases f with
    | requirement q =>
      cases h : c.requirement with
      | none =>
          simp [addAll, add, h, ih, stated, requirements, requirement?, merge, Except.toOption]
      | some r => simp [addAll, add, h, stated, requirements, requirement?]
    | _ => exact ih _

/-- What rules make of a contract is told part by part. -/
theorem addAll_congr {once : Bool} (hm : c.merged fs = c.merged gs)
    (hr : requirements fs = requirements gs) : c.addAll once fs = c.addAll once gs := by
  cases once with
  | false => rw [addAll_false, addAll_false, foldl_merge_eq_merged, foldl_merge_eq_merged, hm]
  | true => rw [addAll_true, addAll_true, stated, stated, hm, hr]

end FieldContract

/-- A registry that gets to know a class is as strict as before. -/
theorem Registry.strict_know (r : Registry) (c : ClassRef) : (r.know c).strict = r.strict := by
  unfold know
  split <;> rfl

end SchemaBinding
