import SchemaBinding.World

/-!
# Creating classes

A new schema class is registered with the registry of its binder, and its field declarations are
declared there in order. A class that fails on the way is never seen again, though what it declared
stays in the registry.

Specification: §4.1.
-/

namespace SchemaBinding

/-- A field declared in the body of a class (spec §4.1). -/
structure FieldDeclaration where
  /-- The declared type. -/
  declared : DeclaredType
  /-- The rules. -/
  fragments : List Fragment

namespace FieldDeclaration

/-- The name of the type of a declaration. -/
def typeName : String := "FieldDeclaration"

/-- The full name of the type of a declaration. -/
def fullTypeName : String := "jsonbind.model.FieldDeclaration"

/-- The declaration of a field with arguments, all of which must be fragments (spec §4.1). -/
def of (declared : DeclaredType) (args : List Argument) : Except Fault FieldDeclaration :=
  match Argument.firstOther? args with
  | some typeName => .error (.type (.notFragment typeName))
  | none => .ok ⟨declared, Argument.fragments args⟩

/-- Declarations with one of them put in: in the place of the one of its name, else at the end. -/
def put (fields : List (String × FieldDeclaration)) (name : String) (d : FieldDeclaration) :
    List (String × FieldDeclaration) :=
  match fields with
  | [] => [(name, d)]
  | (n, e) :: rest => if n == name then (n, d) :: rest else (n, e) :: put rest name d

/-- The declarations of a class body, in which a later one for a name replaces an earlier one in its
place (spec §4.1). -/
def body (fields : List (String × FieldDeclaration)) : List (String × FieldDeclaration) :=
  fields.foldl (fun acc f => put acc f.1 f.2) []

end FieldDeclaration

namespace World

/-- Declares a field of a class that has just been created, which then reads as absent
(spec §4.1). -/
def declareBodyField (registry : Nat) (c : ClassRef) (name : String) (d : FieldDeclaration) :
    Action Unit := do
  let _ ← declareField registry c (.str name) (d.fragments.map .fragment) (some d.declared)
  modify fun w => { w with classes := w.classes.setNull c name }

/-- Declares the fields of a class that has just been created, in order (spec §4.1). -/
def declareBody (registry : Nat) (c : ClassRef) : List (String × FieldDeclaration) → Action Unit
  | [] => return ()
  | (name, d) :: rest => do
    declareBodyField registry c name d
    declareBody registry c rest

/-- The registry of the binder of a class (spec §4.1). -/
def registryOf (w : World) (c : ClassRef) : Nat := (w.binder (w.binderOf c)).registry

/-- Asks that a class have a method under a name. -/
def requireMethod (classes : ClassTable) (c : ClassRef) (name : String) : Except Fault Unit :=
  match classes.attribute? c name with
  | some .method => .ok ()
  | some .null => .error (.type (.called (Value.typeName .null)))
  | some .declaration => .error (.type (.called FieldDeclaration.typeName))
  | none => .error (.attribute (.ofClass c.name name))

/-- Asks that a class have a binder, its own or the default one. -/
def requireBinder (classes : ClassTable) (c : ClassRef) : Except Fault Unit := do
  requireMethod classes c "_binder"
  if classes.hidesBinder c then
    throw (.attribute (.ofInstance FieldDeclaration.typeName "registry"))

/-- Asks that a class may have a name and declarations under these names: some names say how a class
is made, and a declaration says nothing of that. -/
def checkBody (name : String) (fields : List String) : Except Fault Unit := do
  if fields.contains "__slots__" then
    throw (.type (.notIterable FieldDeclaration.typeName))
  if name.toList.contains '\x00' then throw (.value .nullInName)
  if fields.contains "__qualname__" then
    throw (.type (.qualifiedName FieldDeclaration.typeName))
  if fields.contains "__classcell__" then
    throw (.type (.classCell FieldDeclaration.fullTypeName))

/-- The fields that a class declares in its body. A binder that it is given takes the place of a
declaration under its name (spec §4.1). -/
def bodyFields (binder : Option Nat) (fields : List (String × FieldDeclaration)) :
    List (String × FieldDeclaration) :=
  (FieldDeclaration.body fields).filter fun f =>
    binder.isNone || f.1 != ClassTable.binderName

/-- Enters a class into the table and, if it is a schema class, registers it with the registry of
its binder. The bases must be different and have a common order; only a schema class can be given a
binder. The result is the class, with the number of that registry (spec §4.1). -/
def openClass (name : String) (bases : List ClassRef) (binder : Option Nat)
    (fields : List (String × FieldDeclaration)) : Action (ClassRef × Option Nat) := do
  let w ← get
  let bases := if bases.isEmpty then [ClassRef.object] else bases
  lift (checkBody name (fields.map Prod.fst))
  match ClassTable.duplicate? bases with
  | some c => throw (.type (.duplicateBase c.name))
  | none =>
    match w.classes.mergeBases bases with
    | .error fronts => throw (.type (.inconsistentBases (fronts.map ClassRef.name)))
    | .ok inherited =>
      let schema := inherited.contains .schemaBase
      if binder.isSome && !schema then throw (.type (.noKeywords name))
      else
        let ref := w.classes.nextRef name schema
        let body := bodyFields binder fields
        let info : ClassInfo :=
          ⟨ref, ref :: inherited, binder, true, body.map fun f => (f.1, .declaration)⟩
        set { w with classes := w.classes ++ [info] }
        if schema then
          let w ← get
          lift (requireBinder w.classes ref)
          let registry := w.registryOf ref
          registerClass registry ref
          return (ref, some registry)
        else return (ref, none)

/-- Creates a class. A schema class then declares the fields of its body (spec §4.1). -/
def createClass (name : String) (bases : List ClassRef) (binder : Option Nat)
    (fields : List (String × FieldDeclaration)) : Action ClassRef := do
  let (ref, registry) ← openClass name bases binder fields
  if let some i := registry then declareBody i ref (bodyFields binder fields)
  return ref

end World

end SchemaBinding
