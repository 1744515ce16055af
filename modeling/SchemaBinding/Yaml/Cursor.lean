/-!
# Places in a YAML text

A cursor stands between two characters of a text and knows how many characters, and how many lines,
lie before it, and the column in its line. The byte order mark takes up no column.

Specification: §12.
-/

namespace SchemaBinding.Yaml

/-- A place in a text. -/
structure Cursor where
  /-- The characters ahead. -/
  rest : List Char
  /-- The number of characters before. -/
  index : Nat
  /-- The number of lines before. -/
  line : Nat
  /-- The number of columns before, in the line. -/
  column : Nat

/-- Whether a character ends a line. -/
def isBreak (c : Char) : Bool :=
  c == '\n' || c == '\r' || c == '\x85' || c == '\u2028' || c == '\u2029'

/-- Whether a character is a space or a tab. -/
def isSpace (c : Char) : Bool := c == ' ' || c == '\t'

/-- Whether a word ends where this character stands; it also ends with the text. -/
def endsWord : Option Char → Bool
  | none => true
  | some c => isSpace c || isBreak c

/-- Whether a mark ends where this character stands: at a space, at a line break, or with the text.
-/
def endsMark : Option Char → Bool
  | none => true
  | some c => c == ' ' || isBreak c

namespace Cursor

/-- The start of a text. -/
def start (cs : List Char) : Cursor := ⟨cs, 0, 0, 0⟩

/-- The next character. -/
def peek (c : Cursor) : Option Char := c.rest.head?

/-- The place after the next character. A carriage return and a line feed end one line together. -/
def advance (c : Cursor) : Cursor :=
  match c.rest with
  | [] => c
  | d :: rest =>
    if isBreak d && !(d == '\r' && rest.head? == some '\n') then ⟨rest, c.index + 1, c.line + 1, 0⟩
    else ⟨rest, c.index + 1, c.line, if d == '\ufeff' then c.column else c.column + 1⟩

/-- The place after some characters. -/
def skip (c : Cursor) : Nat → Cursor
  | 0 => c
  | n + 1 => c.advance.skip n

/-- The place after the characters of a kind. -/
def skipWhile (c : Cursor) (p : Char → Bool) : Cursor := c.skip (c.rest.takeWhile p).length

/-- The line break that stands here, in the form in which it is kept, and the place after it. -/
def takeBreak (c : Cursor) : Option (Char × Cursor) :=
  match c.rest with
  | [] => none
  | d :: rest =>
    if d == '\r' && rest.head? == some '\n' then some ('\n', c.skip 2)
    else if d == '\u2028' || d == '\u2029' then some (d, c.advance)
    else if isBreak d then some ('\n', c.advance)
    else none

/-- The place after the rest of a line, on which nothing may follow but a comment. -/
def endLine? (c : Cursor) : Option Cursor :=
  let c := c.skipWhile fun d => d == ' '
  let c := if c.peek == some '#' then c.skipWhile fun d => !isBreak d else c
  match c.takeBreak with
  | some (_, c) => some c
  | none => if c.peek.isNone then some c else none

/-- Whether a line starts here that is three marks and then ends or goes on after a blank. -/
def atMarker (c : Cursor) (mark : Char) : Bool :=
  c.column == 0 && [mark, mark, mark].isPrefixOf c.rest && endsWord c.rest[3]?

/-- Whether a document starts or ends here. -/
def atBoundary (c : Cursor) : Bool := c.atMarker '-' || c.atMarker '.'

end Cursor

/-- What is kept of line breaks inside a scalar: a single line feed reads as a space, and the first
of several is dropped. -/
def folded (first : Char) (more : List Char) : List Char :=
  if first != '\n' then first :: more
  else if more.isEmpty then [' ']
  else more

end SchemaBinding.Yaml
