import SchemaBinding.Value.Basic

/-!
# Classes

Classes form a table that only grows. A class inherits from the classes in its linear order, itself
first: the order in which every class comes before its bases, the bases of a class keep their order,
and the choice left is made for the earliest base. Some class orders do not exist.

Specification: §3.2.
-/

namespace SchemaBinding

/-- What a class has under a name. -/
inductive ClassAttribute where
  /-- The absent value, as which an unset field reads. -/
  | null
  /-- A method. -/
  | method
  /-- A field declaration that no schema class took up. -/
  | declaration
deriving DecidableEq, Repr

/-- A class. -/
structure ClassInfo where
  /-- Its identity. -/
  ref : ClassRef
  /-- The classes that it inherits from, itself first. -/
  order : List ClassRef
  /-- The binder that it was given. -/
  binder : Option Nat
  /-- Whether its instances can be given attributes. -/
  hasAttributes : Bool
  /-- Its own attributes. -/
  attributes : List (String × ClassAttribute)
deriving Repr

namespace ClassRef

/-- The root of all classes. -/
def object : ClassRef := ⟨0, "object", false⟩

/-- The base of the schema classes (spec §3.2). -/
def schemaBase : ClassRef := ⟨1, "JSONObject", true⟩

/-- The class of sets. -/
def set : ClassRef := ⟨2, "set", true⟩

/-- The class of complex numbers. -/
def complex : ClassRef := ⟨3, "complex", true⟩

/-- The class of byte sequences. -/
def bytes : ClassRef := ⟨4, "bytes", false⟩

end ClassRef

/-- The table of all classes, the oldest first. -/
abbrev ClassTable := List ClassInfo

namespace ClassTable

/-- The methods of the base of the schema classes. -/
def methods : List String := [
  "__init_subclass__", "__init__", "_binder", "from_dict", "declare", "contracts", "__eq__",
  "__repr__"]

/-- The classes that exist from the start. -/
def initial : ClassTable := [
  ⟨.object, [.object], none, false, []⟩,
  ⟨.schemaBase, [.schemaBase, .object], none, true, methods.map fun name => (name, .method)⟩,
  ⟨.set, [.set, .object], none, false, []⟩,
  ⟨.complex, [.complex, .object], none, false, []⟩,
  ⟨.bytes, [.bytes, .object], none, false, []⟩]

/-- What the table says of a class. -/
def info? (t : ClassTable) (c : ClassRef) : Option ClassInfo := t.find? fun i => i.ref == c

/-- The classes that a class inherits from, itself first. A class that the table does not hold has
none. -/
def order (t : ClassTable) (c : ClassRef) : List ClassRef :=
  ((t.info? c).map ClassInfo.order).getD []

/-- Whether a class is a schema class (spec §3.2). -/
def isSchemaClass (t : ClassTable) (c : ClassRef) : Bool := (t.order c).contains .schemaBase

/-- Whether the instances of a class can be given attributes. -/
def hasAttributes (t : ClassTable) (c : ClassRef) : Bool :=
  (t.info? c).any ClassInfo.hasAttributes

/-- The name under which a class has the binder that it was given. -/
def binderName : String := "__jsonbind_binder__"

/-- Whether a class has a field declaration where its binder should be: neither it nor a class
before the one that holds the declaration was given a binder. -/
def hidesBinder (t : ClassTable) (c : ClassRef) : Bool :=
  let holders := (t.order c).filterMap t.info? |>.filter fun i =>
    i.binder.isSome || i.attributes.any fun a => a.1 == binderName
  holders.head?.any fun i => i.binder.isNone

/-- The nearest binder that a class or one of those it inherits from was given. -/
def binder? (t : ClassTable) (c : ClassRef) : Option Nat :=
  (t.order c).findSome? fun k => (t.info? k).bind ClassInfo.binder

/-- What a class has under a name, by itself or by inheritance. -/
def attribute? (t : ClassTable) (c : ClassRef) (name : String) : Option ClassAttribute :=
  (t.order c).findSome? fun k =>
    (t.info? k).bind fun i => (i.attributes.find? fun a => a.1 == name).map Prod.snd

/-- The names that every class has but no instance. -/
def classOnlyNames : List String := ["mro"]

/-- Whether a class answers to a name. -/
def answersTo (t : ClassTable) (c : ClassRef) (name : String) : Bool :=
  (t.attribute? c name).isSome || classOnlyNames.contains name

/-- The table with an attribute of a class set to the absent value (spec §3.2). -/
def setNull (t : ClassTable) (c : ClassRef) (name : String) : ClassTable :=
  t.map fun i =>
    if i.ref == c then
      { i with attributes := i.attributes.filter (fun a => a.1 != name) ++ [(name, .null)] }
    else i

/-- A class that the first of the lists allows to come next: one that no list holds behind its
front. -/
def nextClass? (lists : List (List ClassRef)) : Option ClassRef :=
  lists.findSome? fun l =>
    l.head?.filter fun c => lists.all fun m => !m.tail.contains c

/-- The lists without a class at their fronts, the emptied ones left out. -/
def dropFront (c : ClassRef) (lists : List (List ClassRef)) : List (List ClassRef) :=
  (lists.map fun l => if l.head? == some c then l.tail else l).filter fun l => !l.isEmpty

/-- One list that keeps the order of all the lists, or the classes at their fronts when none can
come next. `fuel` bounds the number of classes. -/
def merge : (fuel : Nat) → List (List ClassRef) → Except (List ClassRef) (List ClassRef)
  | 0, _ => .ok []
  | fuel + 1, lists =>
    match lists with
    | [] => .ok []
    | _ =>
      match nextClass? lists with
      | some c => (merge fuel (dropFront c lists)).map (c :: ·)
      | none => .error (lists.filterMap List.head?).eraseDups

/-- The first class that a list names twice. -/
def duplicate? : List ClassRef → Option ClassRef
  | [] => none
  | c :: rest => if rest.contains c then some c else duplicate? rest

/-- The classes that a new class with these bases inherits from, without itself. -/
def mergeBases (t : ClassTable) (bases : List ClassRef) : Except (List ClassRef) (List ClassRef) :=
  let lists := (bases.map t.order ++ [bases]).filter fun l => !l.isEmpty
  merge (lists.foldr (fun l n => l.length + n) 0) lists

/-- The identity of the next class of a name. -/
def nextRef (t : ClassTable) (name : String) (structural : Bool) : ClassRef :=
  ⟨t.length, name, structural⟩

end ClassTable

end SchemaBinding
