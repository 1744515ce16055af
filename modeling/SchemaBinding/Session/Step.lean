import SchemaBinding.Log.Level
import SchemaBinding.Session.Basic

/-!
# Steps of a session

What each operation does. A step starts with an empty journal, so that afterwards the world holds
what this step logged and called. A failing step may still have changed the session.

Specification: §6.
-/

namespace SchemaBinding

/-- A step in progress: it changes the session, and succeeds or fails. -/
abbrev Step (α : Type) := ExceptT Fault (StateM Session) α

namespace Session

/-- Runs an action in the world of the session. -/
def act {α : Type} (a : Action α) : Step α := fun s =>
  let (result, world) := StateT.run (ExceptT.run a) s.world
  (result, { s with world := world })

/-- A result that does not depend on the session. -/
def lift {α : Type} (e : Except Fault α) : Step α := ExceptT.mk (pure e)

/-- A kept record as it was stored. -/
def stored (i : Nat) : Step Kept := do
  let s ← get
  return (s.records[i]?).getD ⟨.object, []⟩

/-- A kept record as it is by now. -/
def record (i : Nat) : Step Kept := do
  let k ← stored i
  let s ← get
  return k.current s.world.growth

mutual

/-- Whether an instance of one of some classes is in a value. -/
def holdsAny (p : ClassRef → Bool) (v : Value) : Bool :=
  match v with
  | .list items _ => anyItem p items
  | .tuple items => anyItem p items
  | .dict entries => anyEntry p entries
  | .record cls attrs => p cls.toClassRef || anyAttr p attrs
  | _ => false
termination_by structural v

/-- Whether an instance of one of some classes is in one of the items. -/
def anyItem (p : ClassRef → Bool) (vs : List Value) : Bool :=
  match vs with
  | [] => false
  | v :: vs => holdsAny p v || anyItem p vs
termination_by structural vs

/-- Whether an instance of one of some classes is in an entry. -/
def inEntry (p : ClassRef → Bool) (e : Value × Value) : Bool :=
  match e with
  | (k, v) => holdsAny p k || holdsAny p v
termination_by structural e

/-- Whether an instance of one of some classes is in one of the entries. -/
def anyEntry (p : ClassRef → Bool) (es : List (Value × Value)) : Bool :=
  match es with
  | [] => false
  | e :: es => inEntry p e || anyEntry p es
termination_by structural es

/-- Whether an instance of one of some classes is in an attribute. -/
def inAttr (p : ClassRef → Bool) (a : String × Value) : Bool :=
  match a with
  | (_, v) => holdsAny p v
termination_by structural a

/-- Whether an instance of one of some classes is in one of the attributes. -/
def anyAttr (p : ClassRef → Bool) (as : List (String × Value)) : Bool :=
  match as with
  | [] => false
  | a :: as => inAttr p a || anyAttr p as
termination_by structural as

end

/-- Shows a value. All instances in it must have attributes (spec §13). -/
def shown (v : Value) : Step Outcome := do
  let classes := (← get).world.classes
  if holdsAny (fun c => !classes.hasAttributes c) v then throw (.type .noAttributes)
  else return .value v

/-- Keeps a record. -/
def keep (k : Kept) : Step Unit := modify fun s => { s with records := s.records ++ [k] }

/-- Replaces a kept record. -/
def replace (i : Nat) (k : Kept) : Step Unit :=
  modify fun s => { s with records := s.records.set i k }

/-- The class of a target. -/
def classOf : Target → Except Fault ClassRef
  | .cls c => .ok c
  | .value v => .error (.schema (.notClass v.typeName))

/-- A depth limit that a value gives: a positive integer. -/
def depthOf : Value → Except Fault { n : Nat // 0 < n }
  | .int i => if h : 0 < i.toNat then .ok ⟨i.toNat, h⟩ else .error (.value .maxDepth)
  | v => .error (.type (.maxDepth v.typeName))

/-- A strictness that a value gives: a boolean. -/
def strictOf : Value → Except Fault Bool
  | .bool b => .ok b
  | v => .error (.type (.strict v.typeName))

/-- Sets the strictness of a registry (spec §4.1). -/
def setStrict (i : Nat) (v : Value) : Action Unit := do
  let strict ← World.lift (strictOf v)
  modify fun w => w.setRegistry i { w.registry i with strict := strict }

/-- Sets the depth limit of a binder (spec §4.2). -/
def setMaxDepth (i : Nat) (v : Value) : Action Unit := do
  let depth ← World.lift (depthOf v)
  modify fun w => w.setBinder i ⟨(w.binder i).registry, depth.val, depth.property⟩

/-- Whether a switch that holds a value is on. -/
def truth (v : Value) : Bool := v.truth

/-- Applies settings: each takes effect in turn, and those before one that fails stay in effect
(spec §11). -/
def configure (s : Settings) : Action Unit := do
  setStrict 0 s.strictRequiredness
  setMaxDepth 0 s.maxDepth
  let _ ← World.lift (Log.configure s.logLevel s.logFormat (truth s.redactLogs))

/-- The name of the first list or dictionary in a value that makes it unfit to be a key. -/
def unhashable? : Value → Option String
  | .list .. => some "list"
  | .dict _ => some "dict"
  | .tuple items => unhashableItem? items
  | .record cls _ => if cls.structural then some cls.name else none
  | _ => none
where
  /-- The first of the items that is unfit. -/
  unhashableItem? : List Value → Option String
    | [] => none
    | v :: vs =>
      match unhashable? v with
      | some name => some name
      | none => unhashableItem? vs

/-- Looks up a value where classes are keys, which fails for a value that cannot be one. -/
def asKey (v : Value) : Except Fault Unit :=
  match unhashable? v with
  | some name => .error (.type (.unhashable name))
  | none => .ok ()

/-- The class from which a new record is made. -/
def makerOf : Target → Except Fault ClassRef
  | .cls c => .ok c
  | .value v => .error (.type (.noInstances v.fullTypeName))

/-- Forgets contracts (spec §4.1). -/
def clear (i : Nat) : Option Target → Action Unit
  | none => modify fun w => w.setRegistry i (w.registry i).clear
  | some (.value .null) => modify fun w => w.setRegistry i (w.registry i).clear
  | some (.cls c) => modify fun w => w.setRegistry i ((w.registry i).forget c)
  | some (.value v) => do
    let w ← get
    if !(w.registry i).contracts.isEmpty then World.lift (asKey v)
    modify fun w => w.setRegistry i (w.registry i).dropPlans

/-- The plans of a target (spec §4.1). -/
def plansOf (source : PlanSource) (i : Nat) : Target → Action (List FieldPlan)
  | .cls c => source i c
  | .value v => do
    World.lift (asKey v)
    throw (.attribute (.ofInstance v.fullTypeName "__name__"))

/-- The contracts of a target in the registry of its binder; a class that is no schema class has
none of its own, and the default registry is asked (spec §13). -/
def fieldsOf (target : Target) : Action (List FieldContract) := do
  let w ← get
  let c ← World.lift (classOf target)
  if w.classes.isSchemaClass c then
    World.lift (World.requireMethod w.classes c "contracts")
    return (w.registry (w.registryOf c)).fields w.classes c
  else return (w.registry 0).fields w.classes c

/-- Declares a field through its class (spec §6). -/
def declareOn (target : Target) (field : Value) (args : List Argument)
    (declared : Option DeclaredType) : Action Unit :=
  match target with
  | .value v => throw (.attribute (.ofInstance v.fullTypeName "declare"))
  | .cls c => do
    let w ← get
    World.lift (World.requireMethod w.classes c "declare")
    World.declareOnClass c field args declared

/-- Binds a payload to a new record of a target (spec §6). -/
def bindTarget (source : PlanSource) (way : BindWay) (target : Target) (data : Value) :
    Action Kept :=
  match way with
  | .call =>
    match target with
    | .value v => throw (.type (.called v.fullTypeName))
    | .cls c => do
      let w ← get
      if w.classes.isSchemaClass c then
        World.lift (World.requireMethod w.classes c "__init__")
        return ⟨c, ← Binding.bindOnto source (w.binderOf c) c [] data⟩
      else throw (.type (.noArguments c.name))
  | .fromDict =>
    match target with
    | .value v => throw (.attribute (.ofInstance v.fullTypeName "from_dict"))
    | .cls c => do
      let w ← get
      World.lift (World.requireMethod w.classes c "from_dict")
      return ⟨c, ← Binding.bindAttrs source (w.binderOf c) c data⟩
  | .binder i => do
    let c ← World.lift (makerOf target)
    return ⟨c, ← Binding.bindAttrs source i c data⟩

/-- An attribute of a kept record, as it reads: its own value, else what the class has under the
name (spec §3.2). -/
def readAttr (classes : ClassTable) (k : Kept) (name : String) : Except Fault Outcome :=
  match Value.attr? name k.attrs with
  | some v => .ok (.value v)
  | none =>
    match classes.attribute? k.cls name with
    | some .null => .ok (.value .null)
    | some _ => .ok .noValue
    | none => .error (.attribute (.ofInstance k.cls.name name))

/-- The list that an attribute of a kept record is: its label and its items. -/
def listAttr (classes : ClassTable) (k : Kept) (name : String) :
    Except Fault (Option Nat × List Value) := do
  match ← readAttr classes k name with
  | .value (.list items label) => return (label, items)
  | .value other => throw (.attribute (.ofInstance other.fullTypeName "append"))
  | _ => throw (.attribute (.ofInstance "method" "append"))

/-- Appends a value to the list that an attribute of a kept record is. -/
def appendAttr (i : Nat) (name : String) (v : Value) : Step Unit := do
  let k ← record i
  let (label, items) ← lift (listAttr (← get).world.classes k name)
  match label with
  | some n =>
    act (modify fun w => { w with growth := w.growth.record n (items ++ [v]) })
  | none =>
    replace i { k with attrs := Value.setAttr k.attrs name (.list (items ++ [v]) none) }

/-- Runs an operation; `source` tells the plans (spec §6). -/
def run (source : PlanSource) : Operation → Step Outcome
  | .newRegistry strict => do
    act (modify fun w => { w with registries := w.registries ++ [.empty strict] })
    return .done
  | .newBinder registry maxDepth => do
    let depth ← lift (depthOf (maxDepth.getD (.int defaultMaxDepth)))
    act (modify fun w => { w with binders := w.binders ++ [⟨registry, depth.val, depth.property⟩] })
    return .done
  | .setStrict registry v => do
    act (setStrict registry v)
    return .done
  | .setMaxDepth binder v => do
    act (setMaxDepth binder v)
    return .done
  | .configure s => do
    act (configure s)
    return .settings s
  | .newClass name bases binder fields => do
    let c ← act (World.createClass name bases binder fields)
    return .cls c
  | .declare registry target field args declared => do
    let c ← lift (classOf target)
    let contract ← act (World.declareField registry c field args declared)
    return .contract contract
  | .declareOn target field args declared => do
    act (declareOn target field args declared)
    return .done
  | .register registry target => do
    let c ← lift (classOf target)
    act (World.registerClass registry c)
    return .done
  | .clear registry target => do
    act (clear registry target)
    return .done
  | .fields registry target => do
    let c ← lift (classOf target)
    let w := (← get).world
    return .contracts ((w.registry registry).fields w.classes c)
  | .fieldsOf target => do
    let cs ← act (fieldsOf target)
    return .contracts cs
  | .fieldNames registry target => do
    let c ← lift (classOf target)
    let w := (← get).world
    return .names (((w.registry registry).fields w.classes c).map FieldContract.name)
  | .plan registry target => do
    let ps ← act (plansOf source registry target)
    return .plans ps
  | .isSchema registry target => do
    let w := (← get).world
    match target with
    | .cls c => return .flag ((w.registry registry).isSchema w.classes c)
    | .value _ => return .flag false
  | .acceptsNested registry target => do
    let w := (← get).world
    match target with
    | .cls c => return .flag ((w.registry registry).acceptsNested w.classes c)
    | .value _ => return .flag false
  | .bind way target data kept => do
    let k ← act (bindTarget source way target data)
    if kept then keep k
    shown k.toValue
  | .newRecord target => do
    let c ← lift (makerOf target)
    keep ⟨c, []⟩
    return .done
  | .populate binder i data => do
    let k ← stored i
    let attrs ← act (Binding.bindOnto source binder k.cls k.attrs data)
    replace i { k with attrs := attrs }
    shown (← record i).toValue
  | .look i => do shown (← record i).toValue
  | .text i => do
    let v := (← record i).toValue
    if v.printable then return .text v.text else throw (.value .digits)
  | .getAttr i name => do
    let k ← record i
    match ← lift (readAttr (← get).world.classes k name) with
    | .value v => shown v
    | other => return other
  | .setAttr i name v => do
    let k ← record i
    let w := (← get).world
    if w.classes.hasAttributes k.cls then
      let v ← act (World.adopt v)
      replace i { k with attrs := Value.setAttr k.attrs name v }
      return .done
    else throw (.attribute (.unsettable k.cls.name name))
  | .appendAttr i name v => do
    let v ← act (World.adopt v)
    appendAttr i name v
    return .done
  | .equal a b => do
    if a = b then return .flag true
    else return .flag ((← record a).toValue.eq (← record b).toValue)
  | .build binder table => do
    let table ← act (World.adopt table)
    let cs ← act (Table.build binder table)
    return .classes cs
  | .parse binder source text => do
    let table ← act (World.adopt (← lift (Table.ofText source text.toList)))
    let cs ← act (Table.build binder table)
    return .classes cs
  | .load binder directory path => do
    let table ← act (World.adopt (← lift (Table.ofFile directory path)))
    let cs ← act (Table.build binder table)
    return .classes cs
  | .status => do
    let w := (← get).world
    return .status (w.registries.map Registry.strict) (w.binders.map Binder.maxDepth)

/-- One step with plans from a source: what the operation gives, and the session after it. -/
def stepWith (source : PlanSource) (s : Session) (op : Operation) :
    Except Fault Outcome × Session :=
  StateT.run (ExceptT.run (run source op)) { s with world := s.world.clearJournal }

/-- One step: what the operation gives, and the session after it. -/
def step (s : Session) (op : Operation) : Except Fault Outcome × Session :=
  stepWith World.planOf s op

end Session

end SchemaBinding
