import SchemaBinding.Document
import SchemaBinding.Text.CodePoints
import SchemaBinding.Yaml.Cursor

/-!
# Block scalars

Text on lines of its own, which are indented more than the block around it. Either every line break
is kept, or the breaks between lines that start with no blank are folded. A header says how far the
lines are indented, which otherwise the first line shows, and what becomes of the breaks at the end:
all are kept, or all go, or one is kept.

Specification: §12.
-/

namespace SchemaBinding.Yaml

open Text

/-- What becomes of the line breaks at the end of a block scalar. -/
inductive Chomping where
  /-- The break of the last line is kept. -/
  | clip
  /-- All are kept. -/
  | keep
  /-- None is kept. -/
  | strip
deriving DecidableEq, Repr

namespace Block

/-- The mark for what becomes of the breaks at the end, if it stands here. -/
def takeChomping (c : Cursor) : Chomping × Cursor :=
  match c.peek with
  | some '+' => (.keep, c.advance)
  | some '-' => (.strip, c.advance)
  | _ => (.clip, c)

/-- The number of columns that lines are indented more than the block around, if it stands here. -/
def takeIncrement (c : Cursor) : Except DocumentFault (Option Nat × Cursor) :=
  match c.peek.bind asciiDigit? with
  | some 0 => .error .malformed
  | some n => .ok (some n, c.advance)
  | none => .ok (none, c)

/-- The header: both marks in either order, each at most once. -/
def readHeader (c : Cursor) : Except DocumentFault ((Chomping × Option Nat) × Cursor) := do
  let (chomping, c) := takeChomping c
  let (increment, c) ← takeIncrement c
  let (chomping, c) := if chomping = .clip then takeChomping c else (chomping, c)
  if endsMark c.peek then return ((chomping, increment), c) else throw .malformed

/-- The blank lines at the start, and the widest run of spaces in front of them and of the first
line. -/
def firstBreaks : (fuel : Nat) → (widest : Nat) → Cursor → List Char × Nat × Cursor
  | 0, widest, c => ([], widest, c)
  | fuel + 1, widest, c =>
    if c.peek == some ' ' then firstBreaks fuel (max widest c.advance.column) c.advance
    else
      match c.takeBreak with
      | some (b, c) =>
        let (more, widest, c) := firstBreaks fuel widest c
        (b :: more, widest, c)
      | none => ([], widest, c)

/-- The place after spaces up to a column. -/
def indentTo (column : Nat) (c : Cursor) : Cursor :=
  c.skip (((c.rest.takeWhile (· == ' ')).length).min (column - c.column))

/-- The breaks of blank lines, whose spaces up to a column go. -/
def breaks (column : Nat) : (fuel : Nat) → Cursor → List Char × Cursor
  | 0, c => ([], c)
  | fuel + 1, c =>
    let c := indentTo column c
    match c.takeBreak with
    | some (b, c) =>
      let (more, c) := breaks column fuel c
      (b :: more, c)
    | none => ([], c)

/-- The lines of a block scalar. -/
structure Body where
  /-- The lines, joined. -/
  chars : List Char
  /-- The break of the last line. -/
  last : List Char
  /-- The breaks after it. -/
  trailing : List Char
  /-- The place after them. -/
  cursor : Cursor

/-- The lines from here on, which are indented to a column; `before` are the breaks in front. -/
def lines (folds : Bool) (column : Nat) : (fuel : Nat) → (before : List Char) → Cursor → Body
  | 0, before, c => ⟨[], [], before, c⟩
  | fuel + 1, before, c =>
    if c.column == column && c.peek.isSome then
      let line := c.rest.takeWhile fun d => !isBreak d
      let after := c.skip line.length
      let (last, after) :=
        match after.takeBreak with
        | some (b, after) => ([b], after)
        | none => ([], after)
      let (more, after) := breaks column (after.rest.length + 1) after
      if after.column == column && after.peek.isSome then
        let joins := folds && last == ['\n'] && !c.peek.any isSpace && !after.peek.any isSpace
        let joint := if !joins then last else if more.isEmpty then [' '] else []
        let body := lines folds column fuel more after
        { body with chars := before ++ line ++ joint ++ body.chars }
      else ⟨before ++ line, last, more, after⟩
    else ⟨[], [], before, c⟩

end Block

/-- The text of a block scalar, after its mark; `depth` is one more than the column of the block
around. -/
def readBlock (folds : Bool) (depth : Nat) (c : Cursor) :
    Except DocumentFault (List Char × Cursor) := do
  let ((chomping, increment), c) ← Block.readHeader c.advance
  let c ← wellFormed c.endLine?
  let least := max depth 1
  let (before, column, c) :=
    match increment with
    | some n =>
      let column := least + n - 1
      let (before, c) := Block.breaks column (c.rest.length + 1) c
      (before, column, c)
    | none =>
      let (before, widest, c) := Block.firstBreaks (c.rest.length + 1) 0 c
      (before, max least widest, c)
  let body := Block.lines folds column (c.rest.length + 1) before c
  let last := if chomping = .strip then [] else body.last
  let trailing := if chomping = .keep then body.trailing else []
  return (body.chars ++ last ++ trailing, body.cursor)

end SchemaBinding.Yaml
