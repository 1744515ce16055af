import SchemaBinding.Yaml.Cursor

/-!
# Plain scalars

Text without quotes. It may run over several lines as long as these are indented more than the block
around it. A comment, a colon before a blank, and in a flow collection its punctuation end it.

Specification: §12.
-/

namespace SchemaBinding.Yaml

/-- Whether a character is punctuation of a flow collection that also ends a word after a colon. -/
def isFlowMark (c : Char) : Bool := c == ',' || c == '[' || c == ']' || c == '\x7b' || c == '\x7d'

/-- The word of a plain scalar that starts here. -/
def plainWord (flow : Bool) : List Char → List Char
  | [] => []
  | c :: rest =>
    if endsWord (some c) || (flow && (isFlowMark c || c == '?')) then []
    else if c == ':' && (endsWord rest.head? || (flow && rest.head?.any isFlowMark)) then []
    else c :: plainWord flow rest

/-- What lies between two words: the characters kept of it, `none` if no more words can follow, the
place after it, and whether it ends a line. -/
structure Gap where
  /-- The characters kept. -/
  chars : Option (List Char)
  /-- The place after the gap. -/
  cursor : Cursor
  /-- Whether a line ends in it. -/
  endsLine : Bool

/-- Further line breaks after a first, spaces aside. -/
def plainBreaks : (fuel : Nat) → Cursor → Option (List Char) × Cursor
  | 0, c => (some [], c)
  | fuel + 1, c =>
    if c.peek == some ' ' then plainBreaks fuel c.advance
    else
      match c.takeBreak with
      | none => (some [], c)
      | some (b, c) =>
        if c.atBoundary then (none, c)
        else
          let (more, c) := plainBreaks fuel c
          (more.map (b :: ·), c)

/-- The gap that starts here. -/
def plainGap (c : Cursor) : Gap :=
  let spaces := c.rest.takeWhile fun d => d == ' '
  let after := c.skip spaces.length
  match after.takeBreak with
  | none => ⟨if spaces.isEmpty then none else some spaces, after, false⟩
  | some (b, c) =>
    if c.atBoundary then ⟨none, c, true⟩
    else
      let (more, c) := plainBreaks c.rest.length c
      ⟨more.map (folded b), c, true⟩

/-- The words of a plain scalar from here on and the gap at its end. `indent` is the least column in
which a further line may start. -/
def plainWords (flow : Bool) (indent : Nat) : (fuel : Nat) → Cursor → List Char × Gap
  | 0, c => ([], ⟨none, c, false⟩)
  | fuel + 1, c =>
    let word := plainWord flow c.rest
    let gap := plainGap (c.skip word.length)
    match gap.chars with
    | none => (word, gap)
    | some chars =>
      if gap.cursor.peek == some '#' || (!flow && gap.cursor.column < indent) ||
          (plainWord flow gap.cursor.rest).isEmpty then (word, gap)
      else
        let (words, last) := plainWords flow indent fuel gap.cursor
        (word ++ chars ++ words, last)

/-- Whether a plain scalar can start here. Some marks start one only before more of the word. -/
def startsPlain (flow : Bool) (cs : List Char) : Bool :=
  match cs with
  | [] => false
  | c :: rest =>
    let marks := ['-', '?', ':', ',', '[', ']', '\x7b', '\x7d', '#', '&', '*', '!', '|', '>', '\'',
      '"', '%', '@', '\x60']
    (!endsWord (some c) && !marks.contains c) ||
      (!endsWord rest.head? && (c == '-' || (!flow && (c == '?' || c == ':'))))

end SchemaBinding.Yaml
