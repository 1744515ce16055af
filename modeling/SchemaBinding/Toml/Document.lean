import SchemaBinding.Toml.Literal

/-!
# TOML documents

A document is a sequence of lines: key and value, the header of a table, the header of one more
table of an array, a comment, or nothing. `read` gives the dictionary that it describes.

Specification: §11.
-/

namespace SchemaBinding.Toml

/-- A document under construction. -/
structure Draft where
  /-- The entries so far. -/
  entries : Entries
  /-- What may no longer be changed. -/
  closed : Closed
  /-- The path of the header that is in force. -/
  header : List String

namespace Draft

/-- The document before its first line. -/
def empty : Draft := ⟨[], .none, []⟩

/-- The paths on the way to the last key of a path. -/
def pathsTo : List String → List (List String)
  | key :: next :: path => [key] :: (pathsTo (next :: path)).map (key :: ·)
  | _ => []

/-- Sets the value at a path below the header. Tables on the way may not have been opened before
this header, and nothing may be set in what is closed. -/
def setValue (d : Draft) (path : List String) (v : Value) : Except DocumentFault Draft := do
  let between := (pathsTo path).map (d.header ++ ·)
  let parent := d.header ++ path.dropLast
  if between.any d.closed.isOpened || d.closed.isFrozen parent then throw .malformed
  let key ← wellFormed path.getLast?
  let entries ← changeAt true (addNew key v) parent d.entries
  let closed := { d.closed with pending := between ++ d.closed.pending }
  let closed := if closesPath v then closed.freeze (d.header ++ path) else closed
  return { d with entries, closed }

/-- Opens the table at a path, which may be done once. -/
def openTable (d : Draft) (path : List String) : Except DocumentFault Draft := do
  let closed := d.closed.settle
  if closed.isOpened path || closed.isFrozen path then throw .malformed
  let entries ← changeAt true Except.ok path d.entries
  return ⟨entries, closed.openPath path, path⟩

/-- Opens one more table of the array at a path. -/
def openItem (d : Draft) (path : List String) : Except DocumentFault Draft := do
  let closed := d.closed.settle
  if closed.isFrozen path then throw .malformed
  let key ← wellFormed path.getLast?
  let entries ← changeAt true (appendTable key) path.dropLast d.entries
  return ⟨entries, (closed.forget path).openPath path, path⟩

end Draft

/-- The text of a comment, if one follows, is passed over up to the end of its line. -/
def skipComment : List Char → Except DocumentFault (List Char)
  | '#' :: rest =>
    if (rest.takeWhile fun c => c != '\n').any (isIllegal false) then .error .malformed
    else .ok (rest.dropWhile fun c => c != '\n')
  | cs => .ok cs

/-- What a line says, up to a comment or its end. -/
def readLine (d : Draft) (cs : List Char) : Except DocumentFault (Draft × List Char) := do
  match cs with
  | '[' :: '[' :: rest =>
    let (path, rest) ← readPath (skipBlanks rest)
    let d ← d.openItem path
    return (d, ← expectChar ']' (← expectChar ']' rest))
  | '[' :: rest =>
    let (path, rest) ← readPath (skipBlanks rest)
    let d ← d.openTable path
    return (d, ← expectChar ']' rest)
  | '#' :: _ => return (d, cs)
  | _ =>
    let (path, rest) ← readBinding cs
    let (v, rest) ← readValue (rest.length + 1) rest
    return (← d.setValue path v, rest)

/-- The lines of a document. -/
def readLines : (fuel : Nat) → Draft → List Char → Except DocumentFault Draft
  | 0, d, _ => .ok d
  | fuel + 1, d, cs =>
    match skipBlanks cs with
    | [] => .ok d
    | '\n' :: rest => readLines fuel d rest
    | rest => do
      let (d, rest) ← readLine d rest
      match ← skipComment (skipBlanks rest) with
      | [] => return d
      | rest => readLines fuel d (← expectChar '\n' rest)

/-- A line feed for every carriage return that a line feed follows. -/
def joinBreaks : List Char → List Char
  | '\r' :: '\n' :: rest => '\n' :: joinBreaks rest
  | c :: rest => c :: joinBreaks rest
  | [] => []

/-- The dictionary that a document describes. -/
def read (cs : List Char) : Except DocumentFault Value := do
  let cs := joinBreaks cs
  let d ← readLines (cs.length + 1) .empty cs
  return .dict d.entries

end SchemaBinding.Toml
