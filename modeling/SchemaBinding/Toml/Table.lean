import SchemaBinding.Document
import SchemaBinding.Value.Equality

/-!
# Tables of a TOML document

Tables are nested dictionaries under construction. A path leads through tables, and through an array
of tables to its last one; what is missing on the way is created. Beside the tables stands what may
no longer be changed: paths that have been opened once, and paths whose value is closed with all
that lies below it.

Specification: §11.
-/

namespace SchemaBinding.Toml

/-- The entries of a table, in insertion order. -/
abbrev Entries := List (Value × Value)

/-- Changes the table at a path. `throughArrays` tells whether an array of tables may be passed. -/
def changeAt (throughArrays : Bool) (change : Entries → Except DocumentFault Entries) :
    List String → Entries → Except DocumentFault Entries
  | [], entries => change entries
  | key :: path, entries => do
    let below := changeAt throughArrays change path
    let v ←
      match (Value.lookup? key entries).getD (.dict []) with
      | .dict sub => (below sub).map Value.dict
      | .list items label =>
        match throughArrays, items.getLast? with
        | true, some (.dict sub) =>
          (below sub).map fun sub => Value.list (items.dropLast ++ [.dict sub]) label
        | _, _ => throw .malformed
      | _ => throw .malformed
    return Value.setEntry entries (.str key) v

/-- A table with one more entry; a key that it has may not be set again. -/
def addNew (key : String) (v : Value) (entries : Entries) : Except DocumentFault Entries :=
  if (Value.lookup? key entries).isSome then .error .malformed
  else .ok (Value.setEntry entries (.str key) v)

/-- A table in which the array of tables under a key has one more. -/
def appendTable (key : String) (entries : Entries) : Except DocumentFault Entries :=
  match (Value.lookup? key entries).getD (.list [] none) with
  | .list items label =>
    .ok (Value.setEntry entries (.str key) (.list (items ++ [.dict []]) label))
  | _ => .error .malformed

/-- The paths that may no longer be opened or changed. -/
structure Closed where
  /-- Paths that have been opened by a header or by keys joined with dots. -/
  opened : List (List String)
  /-- Paths of inline tables and arrays, closed with all that lies below. -/
  frozen : List (List String)
  /-- Paths that count as opened from the next header on. -/
  pending : List (List String)

namespace Closed

/-- Nothing is closed. -/
def none : Closed := ⟨[], [], []⟩

/-- Whether a path has been opened. -/
def isOpened (c : Closed) (path : List String) : Bool := c.opened.contains path

/-- Whether a path lies in something closed. -/
def isFrozen (c : Closed) (path : List String) : Bool := c.frozen.any fun p => p.isPrefixOf path

/-- Marks a path as opened. -/
def openPath (c : Closed) (path : List String) : Closed := { c with opened := path :: c.opened }

/-- Closes a path with all that lies below it. -/
def freeze (c : Closed) (path : List String) : Closed := { c with frozen := path :: c.frozen }

/-- Forgets what was marked at a path and below it. -/
def forget (c : Closed) (path : List String) : Closed :=
  { c with
    opened := c.opened.filter fun p => !path.isPrefixOf p
    frozen := c.frozen.filter fun p => !path.isPrefixOf p }

/-- Counts the pending paths as opened. -/
def settle (c : Closed) : Closed := { c with opened := c.pending ++ c.opened, pending := [] }

end Closed

/-- Whether a value closes its path: an array or an inline table. -/
def closesPath : Value → Bool
  | .list .. => true
  | .dict _ => true
  | _ => false

end SchemaBinding.Toml
