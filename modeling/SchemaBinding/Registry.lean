import SchemaBinding.Class.Table
import SchemaBinding.Contract.Basic

/-!
# Registries

A registry keeps the contracts of schemas: for every class that is known to it, the contracts of the
fields declared on that class, in the order in which they were first declared. The fields of a class
include those of the classes it inherits from. Plans are compiled on first use and kept until a
declaration, a registration or a clearing.

Specification: §4.1.
-/

namespace SchemaBinding

/-- A store of contracts (spec §4.1). -/
structure Registry where
  /-- Whether requiredness may be declared only once for a field. -/
  strict : Bool
  /-- The contracts declared on each known class. -/
  contracts : List (ClassRef × List FieldContract)
  /-- The plans compiled since the contracts last changed. -/
  plans : List (ClassRef × List FieldPlan)

namespace Registry

/-- A registry without contracts. -/
def empty (strict : Bool) : Registry := ⟨strict, [], []⟩

/-- Whether a class is known. -/
def knows (r : Registry) (c : ClassRef) : Bool := r.contracts.any fun e => e.1 == c

/-- The contracts declared on a class itself (spec §4.1). -/
def own (r : Registry) (c : ClassRef) : List FieldContract :=
  ((r.contracts.find? fun e => e.1 == c).map Prod.snd).getD []

/-- The contract declared on a class itself for a field. -/
def ownField? (r : Registry) (c : ClassRef) (name : String) : Option FieldContract :=
  (r.own c).find? fun f => f.name == name

/-- Contracts with one of them put in: in the place of the one of its name, else at the end
(spec §3.1). -/
def putContract (fields : List FieldContract) (f : FieldContract) : List FieldContract :=
  match fields with
  | [] => [f]
  | g :: rest => if g.name == f.name then f :: rest else g :: putContract rest f

/-- The registry with a class known to it. -/
def know (r : Registry) (c : ClassRef) : Registry :=
  if r.knows c then r else { r with contracts := r.contracts ++ [(c, [])] }

/-- The registry without its compiled plans (spec §4.1). -/
def dropPlans (r : Registry) : Registry := { r with plans := [] }

/-- Marks a class as a schema (spec §4.1). -/
def register (r : Registry) (c : ClassRef) : Registry := (r.know c).dropPlans

/-- The registry with a contract of a known class put in. -/
def put (r : Registry) (c : ClassRef) (f : FieldContract) : Registry :=
  { r with contracts := r.contracts.map fun e =>
      if e.1 == c then (e.1, putContract e.2 f) else e }

/-- Forgets the contracts of a class (spec §4.1). -/
def forget (r : Registry) (c : ClassRef) : Registry :=
  { r with contracts := r.contracts.filter (fun e => e.1 != c), plans := [] }

/-- Forgets all contracts (spec §4.1). -/
def clear (r : Registry) : Registry := { r with contracts := [], plans := [] }

/-- Merges fragments into the contract of a field, which starts empty. The class becomes known even
if the fragments conflict. The result is the registry, with the new contract and whether it is the
first, or with the requirement that stood in the way (spec §4.1). -/
def declare (r : Registry) (c : ClassRef) (name : String) (fragments : List Fragment)
    (declared : Option DeclaredType) : Registry × Except Requirement (FieldContract × Bool) :=
  let known := r.know c
  let existing := known.ownField? c name
  match (existing.getD (.empty name)).addAll r.strict fragments with
  | .error requirement => (known, .error requirement)
  | .ok merged =>
    let contract := { merged with declared := declared.getD merged.declared }
    ((known.put c contract).dropPlans, .ok (contract, existing.isNone))

/-- Whether a class or one that it inherits from is known (spec §4.1). -/
def isSchema (classes : ClassTable) (r : Registry) (c : ClassRef) : Bool :=
  (classes.order c).any r.knows

/-- Whether fields may be declared with a class: a schema, or any schema class
(spec §4.2, step 4). -/
def acceptsNested (classes : ClassTable) (r : Registry) (c : ClassRef) : Bool :=
  r.isSchema classes c || classes.isSchemaClass c

/-- Contracts with those of a class laid over them (spec §3.1). -/
def overlay (fields : List FieldContract) (own : List FieldContract) : List FieldContract :=
  own.foldl putContract fields

/-- The contracts of a class, inherited ones first; a contract declared again replaces the inherited
one in its place (spec §4.1). -/
def fields (classes : ClassTable) (r : Registry) (c : ClassRef) : List FieldContract :=
  (classes.order c).reverse.foldl (fun fields k => overlay fields (r.own k)) []

/-- The plan of a contract of a class (spec §4.1). -/
def compileField (classes : ClassTable) (r : Registry) (c : ClassRef) (f : FieldContract) :
    Except Fault FieldPlan :=
  match f.plan (r.acceptsNested classes) with
  | .ok plan => .ok plan
  | .error .nestedArray => .error (.schema (.nestedArray c.name f.name))
  | .error (.unsupported text) => .error (.schema (.unsupportedType c.name f.name text))

/-- The plans of contracts, up to the first that has none (spec §4.1). -/
def compileFields (classes : ClassTable) (r : Registry) (c : ClassRef) :
    List FieldContract → Except Fault (List FieldPlan)
  | [] => .ok []
  | f :: fs => do
    let plan ← compileField classes r c f
    let plans ← compileFields classes r c fs
    return plan :: plans

/-- The plans of the fields of a schema, compiled from its contracts (spec §4.1). -/
def compile (classes : ClassTable) (r : Registry) (c : ClassRef) : Except Fault (List FieldPlan) :=
  if r.isSchema classes c then compileFields classes r c (r.fields classes c)
  else .error (.schema (.noContracts c.name))

/-- The plans that were compiled for a class since the contracts last changed (spec §4.1). -/
def cached? (r : Registry) (c : ClassRef) : Option (List FieldPlan) :=
  (r.plans.find? fun e => e.1 == c).map Prod.snd

/-- The registry with plans kept for a class (spec §4.1). -/
def keep (r : Registry) (c : ClassRef) (plans : List FieldPlan) : Registry :=
  { r with plans := (c, plans) :: r.plans }

end Registry

end SchemaBinding
