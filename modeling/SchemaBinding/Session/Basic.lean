import SchemaBinding.Binding.Record
import SchemaBinding.Settings.Basic
import SchemaBinding.Table.Build
import SchemaBinding.Table.Source

/-!
# Sessions

A session is a world with the records that have been kept in it, numbered in order. This module
names the operations of a session and what they give.

Specification: §6.
-/

namespace SchemaBinding

/-- What an operation is aimed at: a class, or a value that is none. -/
inductive Target where
  | cls (c : ClassRef)
  | value (v : Value)

/-- The ways to bind a payload (spec §6). -/
inductive BindWay where
  /-- The class is called with the payload. -/
  | call
  /-- The class builds a record from the payload. -/
  | fromDict
  /-- A binder builds a record of the class. -/
  | binder (i : Nat)

/-- An operation of a session (spec §6). -/
inductive Operation where
  /-- Creates a registry. -/
  | newRegistry (strict : Bool)
  /-- Creates a binder of a registry, with the default depth limit unless one is given. -/
  | newBinder (registry : Nat) (maxDepth : Option Value)
  /-- Sets the strictness of a registry. -/
  | setStrict (registry : Nat) (v : Value)
  /-- Sets the depth limit of a binder. -/
  | setMaxDepth (binder : Nat) (v : Value)
  /-- Applies settings to the default registry, the default binder and the log. -/
  | configure (s : Settings)
  /-- Creates a class with field declarations. -/
  | newClass (name : String) (bases : List ClassRef) (binder : Option Nat)
      (fields : List (String × FieldDeclaration))
  /-- Declares a field in a registry. -/
  | declare (registry : Nat) (target : Target) (field : Value) (args : List Argument)
      (declared : Option DeclaredType)
  /-- Declares a field through its class. -/
  | declareOn (target : Target) (field : Value) (args : List Argument)
      (declared : Option DeclaredType)
  /-- Marks a class as a schema. -/
  | register (registry : Nat) (target : Target)
  /-- Forgets the contracts of one class, or of all. -/
  | clear (registry : Nat) (target : Option Target)
  /-- The contracts of a class in a registry. -/
  | fields (registry : Nat) (target : Target)
  /-- The contracts of a class in the registry of its binder. -/
  | fieldsOf (target : Target)
  /-- The names of the fields of a class. -/
  | fieldNames (registry : Nat) (target : Target)
  /-- The plans of the fields of a class. -/
  | plan (registry : Nat) (target : Target)
  /-- Whether a class is a schema. -/
  | isSchema (registry : Nat) (target : Target)
  /-- Whether a class may be nested. -/
  | acceptsNested (registry : Nat) (target : Target)
  /-- Binds a payload to a new record, which may be kept. -/
  | bind (way : BindWay) (target : Target) (data : Value) (keep : Bool)
  /-- Keeps a new record with no attributes. -/
  | newRecord (target : Target)
  /-- Binds a payload onto a kept record. -/
  | populate (binder : Nat) (record : Nat) (data : Value)
  /-- Shows a kept record. -/
  | look (record : Nat)
  /-- The text of a kept record. -/
  | text (record : Nat)
  /-- Reads an attribute of a kept record. -/
  | getAttr (record : Nat) (name : String)
  /-- Sets an attribute of a kept record. -/
  | setAttr (record : Nat) (name : String) (v : Value)
  /-- Appends to a list that a kept record has as an attribute. -/
  | appendAttr (record : Nat) (name : String) (v : Value)
  /-- Whether two kept records are equal. -/
  | equal (a b : Nat)
  /-- Creates the schemas of a table. -/
  | build (binder : Option Nat) (table : Value)
  /-- Creates the schemas of the table in a text; issues name its source. -/
  | parse (binder : Option Nat) (source text : String)
  /-- Creates the schemas of the table in a file. -/
  | load (binder : Option Nat) (directory : Directory) (path : String)
  /-- The strictness of every registry and the depth limit of every binder. -/
  | status

/-- What an operation gives. -/
inductive Outcome where
  | done
  | flag (b : Bool)
  | text (s : String)
  | value (v : Value)
  /-- A method or a declaration, which is no value. -/
  | noValue
  | cls (c : ClassRef)
  | classes (cs : List ClassRef)
  | contract (c : FieldContract)
  | contracts (cs : List FieldContract)
  | names (ns : List String)
  | plans (ps : List FieldPlan)
  | settings (s : Settings)
  | status (strict : List Bool) (maxDepths : List Nat)

/-- A kept record: its class and its attributes. -/
structure Kept where
  /-- The class. -/
  cls : ClassRef
  /-- The attributes, in the order in which they were first set. -/
  attrs : List (String × Value)

/-- A kept record as a value. -/
def Kept.toValue (k : Kept) : Value := .record k.cls k.attrs

/-- A kept record as it is by now. -/
def Kept.current (g : Growth) (k : Kept) : Kept :=
  { k with attrs := k.attrs.map fun a => (a.1, g.current a.2) }

/-- A session. -/
structure Session where
  /-- The world. -/
  world : World
  /-- The kept records, by number. -/
  records : List Kept

/-- The session at the start. -/
def Session.initial : Session := ⟨.initial, []⟩

end SchemaBinding
