import SchemaBinding.Event
import SchemaBinding.Registry
import SchemaBinding.Value.Identity

/-!
# The world of an operation

Classes, registries and binders, together with a journal of what happened: the events that were
logged and the calls of the caller's functions. An operation runs in a world and leaves it changed,
whether it succeeds or fails. The world also knows what has been appended to lists, and which labels
are in use.

Specification: §4 and §11.
-/

namespace SchemaBinding

/-- Builds records with the contracts of a registry, down to a limit of nesting (spec §4.2). -/
structure Binder where
  /-- The number of its registry. -/
  registry : Nat
  /-- How deep schemas may be nested. -/
  maxDepth : Nat
  /-- At least one level is allowed. -/
  maxDepth_pos : 0 < maxDepth
deriving DecidableEq, Repr

/-- The depth limit of a binder that is not told otherwise (spec §11). -/
def defaultMaxDepth : Nat := 64

/-- The binder of the default registry with the default limit. -/
def Binder.default : Binder := ⟨0, defaultMaxDepth, by decide⟩

/-- All that operations read and change. Registry zero and binder zero are the default ones. -/
structure World where
  /-- The classes. -/
  classes : ClassTable
  /-- The registries, by number. -/
  registries : List Registry
  /-- The binders, by number. -/
  binders : List Binder
  /-- The events logged, in order. -/
  events : List Event
  /-- The calls of the caller's functions, in order. -/
  calls : List Call
  /-- What the lists hold by now to which something has been appended. -/
  growth : Growth
  /-- The labels and origins that are in no use yet. -/
  supply : Supply

/-- An operation: it changes the world, and succeeds or fails. -/
abbrev Action (α : Type) := ExceptT Fault (StateM World) α

/-- Where the plans of a class in a registry, known by its number, come from. -/
abbrev PlanSource := Nat → ClassRef → Action (List FieldPlan)

namespace World

/-- The world at the start: a lenient default registry and a default binder. -/
def initial : World := ⟨.initial, [.empty false], [.default], [], [], [], ⟨1, 1⟩⟩

/-- A registry by its number. -/
def registry (w : World) (i : Nat) : Registry := (w.registries[i]?).getD (.empty false)

/-- A binder by its number. -/
def binder (w : World) (i : Nat) : Binder := (w.binders[i]?).getD .default

/-- The world with a registry replaced. -/
def setRegistry (w : World) (i : Nat) (r : Registry) : World :=
  { w with registries := w.registries.set i r }

/-- The world with a binder replaced. -/
def setBinder (w : World) (i : Nat) (b : Binder) : World :=
  { w with binders := w.binders.set i b }

/-- The world with an event logged. -/
def log (w : World) (e : Event) : World := { w with events := w.events ++ [e] }

/-- The world with an empty journal. -/
def clearJournal (w : World) : World := { w with events := [], calls := [] }

/-- The number of the binder of a class: the one that it or a class it inherits from was given, else
the default one. -/
def binderOf (w : World) (c : ClassRef) : Nat := (w.classes.binder? c).getD 0

/-- The binder of a nested schema: that of its class, if it is a schema class, and else the one at
work (spec §4.2, step 4). -/
def nestedBinder (w : World) (binder : Nat) (c : ClassRef) : Nat :=
  if w.classes.isSchemaClass c then w.binderOf c else binder

/-- The greatest depth limit of all binders, the default limit among them. -/
def depthBound (w : World) : Nat := (w.binders.map Binder.maxDepth).foldl max defaultMaxDepth

/-- The result of something that does not change the world. -/
def lift {α : Type} (e : Except Fault α) : Action α := ExceptT.mk (pure e)

/-- A value with its lists and not-a-numbers told apart from all others, as far as they were not so
yet. -/
def adopt (v : Value) : Action Value := do
  let w ← get
  let (v, supply) := v.labelled.run w.supply
  set { w with supply := supply }
  return v

/-- A function whose kept value is told apart from all others. -/
def adoptFunction (f : UserFunction) : Action UserFunction := do
  return { f with kept := ← adopt f.kept }

/-- A rule whose values are told apart from all others. -/
def adoptFragment : Fragment → Action Fragment
  | .requirement (.defaulted v) => do return .requirement (.defaulted (← adopt v))
  | .transform f => do return .transform (← adoptFunction f)
  | .check (.custom f) => do return .check (.custom (← adoptFunction f))
  | f => return f

/-- Logs an event (spec §10). -/
def logEvent (e : Event) : Action Unit := modify fun w => w.log e

/-- The name of the kind of a planned field in a log (spec §10). -/
def planKindName (p : FieldPlan) : String :=
  match p.kind with
  | some kind => kind.describe
  | none => "passthrough"

/-- The plans of a class in a registry: those that were kept, or else newly compiled ones, which are
kept and logged (spec §4.1). -/
def planOf : PlanSource := fun i c => do
  let w ← get
  let r := w.registry i
  match r.cached? c with
  | some plans => return plans
  | none =>
    let plans ← lift (r.compile w.classes c)
    modify fun w => w.setRegistry i (r.keep c plans)
    logEvent (.planCompiled i c (plans.map fun p => (p.name, planKindName p)))
    return plans

/-- Declares fragments for a field of a class in a registry (spec §4.1). -/
def declareField (i : Nat) (c : ClassRef) (name : Value) (args : List Argument)
    (declared : Option DeclaredType) : Action FieldContract := do
  let field ← lift (checkFieldName c.name name)
  match Argument.firstOther? args with
  | some typeName => throw (.schema (.notFragment c.name field typeName))
  | none =>
    let fragments ← (Argument.fragments args).mapM adoptFragment
    let w ← get
    let (r, result) := (w.registry i).declare c field fragments declared
    set (w.setRegistry i r)
    match result with
    | .error requirement => throw (.schema (.conflict c.name field requirement.name))
    | .ok (contract, first) =>
      logEvent (.fieldDeclared c.name field (fragments.map Fragment.name) first)
      return contract

/-- Marks a class as a schema in a registry (spec §4.1). -/
def registerClass (i : Nat) (c : ClassRef) : Action Unit :=
  modify fun w => w.setRegistry i ((w.registry i).register c)

end World

end SchemaBinding
