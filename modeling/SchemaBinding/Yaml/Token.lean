import SchemaBinding.Yaml.Block
import SchemaBinding.Yaml.Directive
import SchemaBinding.Yaml.Plain
import SchemaBinding.Yaml.Quotation

/-!
# Tokens of a YAML text

A text as scalars and the marks of its structure. Indentation becomes tokens of its own: a block
starts where a deeper column holds its first entry and ends before the first line that is less deep.
A mapping key is not marked in the text, so each token that may turn out to be one is remembered
until its colon comes; it must come on the same line and within 1024 characters.

A text that cannot be read to its end is read as far as it can: the fault stands in the place of the
first token that is not certain without what comes after.

Specification: §12.
-/

namespace SchemaBinding.Yaml

/-- A token. -/
inductive Token where
  | directive (d : Directive)
  | documentStart
  | documentEnd
  | blockSequence
  | blockMapping
  | blockEnd
  | flowSequence
  | flowSequenceEnd
  | flowMapping
  | flowMappingEnd
  | blockEntry
  | flowEntry
  | key
  | value
  | anchor (name : String)
  | alias (name : String)
  /-- A tag: its handle, if it has one, and its suffix. -/
  | tag (handle : Option String) (suffix : String)
  /-- A scalar, and whether it is plain. -/
  | scalar (plain : Bool) (text : String)
  /-- The text cannot be read from here on. -/
  | broken (fault : DocumentFault)
deriving DecidableEq, Repr

/-- A token that may turn out to be a key. -/
structure KeyCandidate where
  /-- The number of tokens before it. -/
  position : Nat
  /-- The number of flow collections around it. -/
  flow : Nat
  /-- Whether nothing but a key may stand there. -/
  required : Bool
  /-- The place where it starts. -/
  cursor : Cursor

/-- A text read up to a place. -/
structure Scan where
  /-- The place. -/
  cursor : Cursor
  /-- The tokens before it. -/
  tokens : Array Token
  /-- The number of flow collections around the place. -/
  flow : Nat
  /-- One more than the column of the block around the place; zero outside of all blocks. -/
  depth : Nat
  /-- The depths of the blocks around that block, from the inside out. -/
  outer : List Nat
  /-- Whether a key may start here. -/
  keyAllowed : Bool
  /-- The tokens that may turn out to be keys. -/
  candidates : List KeyCandidate

namespace Scan

/-- The start of a text. A byte order mark is passed over. -/
def start (cs : List Char) : Scan :=
  let c := Cursor.start cs
  ⟨if c.peek == some '\ufeff' then c.advance else c, #[], 0, 0, [], true, []⟩

/-- Adds a token. -/
def push (s : Scan) (t : Token) : Scan := { s with tokens := s.tokens.push t }

/-- Adds a token and passes over some characters. -/
def emit (s : Scan) (t : Token) (width : Nat) : Scan :=
  { s with tokens := s.tokens.push t, cursor := s.cursor.skip width }

/-- Sets whether a key may start. -/
def allowKey (s : Scan) (allowed : Bool) : Scan := { s with keyAllowed := allowed }

/-- Gives up candidates for a key; none of them may be required. -/
def dropCandidates (s : Scan) (p : KeyCandidate → Bool) : Except DocumentFault Scan :=
  if s.candidates.any fun k => p k && k.required then .error .malformed
  else .ok { s with candidates := s.candidates.filter fun k => !p k }

/-- Gives up the candidate of the flow collection around the place. -/
def dropCandidate (s : Scan) : Except DocumentFault Scan :=
  s.dropCandidates fun k => k.flow == s.flow

/-- Gives up the candidates whose colon can no longer come. -/
def dropStale (s : Scan) : Except DocumentFault Scan :=
  s.dropCandidates fun k =>
    k.cursor.line != s.cursor.line || 1024 < s.cursor.index - k.cursor.index

/-- Remembers the token that starts here as a candidate for a key. -/
def saveCandidate (s : Scan) : Except DocumentFault Scan :=
  if s.keyAllowed then do
    let s ← s.dropCandidate
    let required := s.flow == 0 && s.depth == s.cursor.column + 1
    return { s with candidates := ⟨s.tokens.size, s.flow, required, s.cursor⟩ :: s.candidates }
  else .ok s

/-- The depth once all blocks deeper than `depth` have ended, the depths around, and how many ended.
-/
def endBlocks (limit : Nat) : (depth : Nat) → (outer : List Nat) → Nat × List Nat × Nat
  | depth, [] => (depth, [], 0)
  | depth, next :: outer =>
    if limit < depth then
      let (d, o, n) := endBlocks limit next outer
      (d, o, n + 1)
    else (depth, next :: outer, 0)

/-- Ends the blocks deeper than `limit`. In a flow collection no block ends. -/
def closeBlocks (s : Scan) (limit : Nat) : Scan :=
  if 0 < s.flow then s
  else
    let (depth, outer, ended) := endBlocks limit s.depth s.outer
    { s with depth, outer, tokens := s.tokens ++ Array.replicate ended Token.blockEnd }

/-- Starts a block in a column before the token with a number, unless one is as deep already. -/
def openBlock (s : Scan) (t : Token) (column position : Nat) : Scan :=
  if s.depth < column + 1 then
    { s with
      depth := column + 1
      outer := s.depth :: s.outer
      tokens := s.tokens.insertIdxIfInBounds position t }
  else s

/-- The place where the next token starts: spaces, comments and line breaks are passed over. After a
line break outside of flow collections a key may start. -/
def skipTrivia : (fuel : Nat) → Scan → Scan
  | 0, s => s
  | fuel + 1, s =>
    let c := s.cursor.skipWhile fun d => d == ' '
    let c := if c.peek == some '#' then c.skipWhile fun d => !isBreak d else c
    match c.takeBreak with
    | some (_, c) =>
      skipTrivia fuel { s with cursor := c, keyAllowed := s.keyAllowed || s.flow == 0 }
    | none => { s with cursor := c }

/-- The start or the end of a document. -/
def readBoundary (s : Scan) (t : Token) : Except DocumentFault Scan := do
  let s ← (s.closeBlocks 0).dropCandidate
  return (s.allowKey false).emit t 3

/-- A directive. -/
def readDirectiveLine (s : Scan) : Except DocumentFault Scan := do
  let s ← (s.closeBlocks 0).dropCandidate
  let (d, c) ← readDirective s.cursor
  return { (s.allowKey false).push (.directive d) with cursor := c }

/-- A token that stands before a node or for one, and that may turn out to be a key. -/
def readProperty (s : Scan) (read : Cursor → Except DocumentFault (Token × Cursor)) :
    Except DocumentFault Scan := do
  let s ← s.saveCandidate
  let (t, c) ← read s.cursor
  return { (s.allowKey false).push t with cursor := c }

/-- The start of a flow collection. -/
def openFlow (s : Scan) (t : Token) : Except DocumentFault Scan := do
  let s ← s.saveCandidate
  return { (s.allowKey true).emit t 1 with flow := s.flow + 1 }

/-- The end of a flow collection. -/
def closeFlow (s : Scan) (t : Token) : Except DocumentFault Scan := do
  let s ← s.dropCandidate
  if s.flow = 0 then throw .malformed
  return { (s.allowKey false).emit t 1 with flow := s.flow - 1 }

/-- The comma of a flow collection. -/
def readFlowEntry (s : Scan) : Except DocumentFault Scan := do
  let s ← (s.allowKey true).dropCandidate
  return s.emit .flowEntry 1

/-- A mark that may start a block where a key may start: the dash of a sequence, the question mark
of a key, or the colon of a value without a key before it. -/
def readBlockMark (s : Scan) (mark block : Token) (keyAfter : Bool) :
    Except DocumentFault Scan := do
  if s.flow = 0 && !s.keyAllowed then throw .malformed
  let s := if s.flow = 0 then s.openBlock block s.cursor.column s.tokens.size else s
  let s ← (s.allowKey keyAfter).dropCandidate
  return s.emit mark 1

/-- A colon. If a candidate is remembered then it is a key, and it may start a block. -/
def readValueMark (s : Scan) : Except DocumentFault Scan :=
  match s.candidates.find? fun k => k.flow == s.flow with
  | some k =>
    let s := { s with
      candidates := s.candidates.filter fun k => k.flow != s.flow
      tokens := s.tokens.insertIdxIfInBounds k.position Token.key }
    let s := if s.flow = 0 then s.openBlock .blockMapping k.cursor.column k.position else s
    .ok ((s.allowKey false).emit .value 1)
  | none => s.readBlockMark .value .blockMapping (s.flow == 0)

/-- A quoted scalar. -/
def readQuotedScalar (s : Scan) (double : Bool) : Except DocumentFault Scan :=
  s.readProperty fun c => do
    let c := c.advance
    let (ns, c) ← readQuoted double (c.rest.length + 1) c
    return (.scalar false (String.ofList (Text.ofCodePoints ns)), c)

/-- A block scalar. A key may start after it. -/
def readBlockScalar (s : Scan) (folds : Bool) : Except DocumentFault Scan := do
  let s ← (s.allowKey true).dropCandidate
  let (cs, c) ← readBlock folds s.depth s.cursor
  return { s.push (.scalar false (String.ofList cs)) with cursor := c }

/-- A plain scalar. A key may start after it if it ends with its line. -/
def readPlainScalar (s : Scan) : Except DocumentFault Scan := do
  let s ← s.saveCandidate
  let (cs, gap) := plainWords (0 < s.flow) s.depth s.cursor.rest.length s.cursor
  return { (s.allowKey gap.endsLine).push (.scalar true (String.ofList cs)) with
    cursor := gap.cursor }

/-- The token that starts with the next character. -/
def readToken (s : Scan) (c : Char) : Except DocumentFault Scan :=
  let next := s.cursor.rest[1]?
  let inFlow := 0 < s.flow
  if c == '%' && s.cursor.column == 0 then s.readDirectiveLine
  else if s.cursor.atMarker '-' then s.readBoundary .documentStart
  else if s.cursor.atMarker '.' then s.readBoundary .documentEnd
  else if c == '[' then s.openFlow .flowSequence
  else if c == '\x7b' then s.openFlow .flowMapping
  else if c == ']' then s.closeFlow .flowSequenceEnd
  else if c == '\x7d' then s.closeFlow .flowMappingEnd
  else if c == ',' then s.readFlowEntry
  else if c == '-' && endsWord next then s.readBlockMark .blockEntry .blockSequence true
  else if c == '?' && (inFlow || endsWord next) then
    s.readBlockMark .key .blockMapping (s.flow == 0)
  else if c == ':' && (inFlow || endsWord next) then s.readValueMark
  else if c == '*' then s.readProperty fun d => (readAnchor d).map fun r => (.alias r.1, r.2)
  else if c == '&' then s.readProperty fun d => (readAnchor d).map fun r => (.anchor r.1, r.2)
  else if c == '!' then s.readProperty fun d => (readTag d).map fun r => (.tag r.1.1 r.1.2, r.2)
  else if c == '|' && !inFlow then s.readBlockScalar false
  else if c == '>' && !inFlow then s.readBlockScalar true
  else if c == '\'' then s.readQuotedScalar false
  else if c == '"' then s.readQuotedScalar true
  else if startsPlain inFlow s.cursor.rest then s.readPlainScalar
  else .error .malformed

/-- What comes next: the tokens up to the place after the next one, or all of them at the end of the
text. -/
def advance (s : Scan) : Except DocumentFault (Scan ⊕ Array Token) := do
  let s ← (skipTrivia (s.cursor.rest.length + 1) s).dropStale
  let s := s.closeBlocks (s.cursor.column + 1)
  match s.cursor.peek with
  | some c => return .inl (← s.readToken c)
  | none => return .inr (← (s.closeBlocks 0).dropCandidate).tokens

/-- The number of tokens that are certain: those before the first that may turn out to be a key. -/
def certain (s : Scan) : Nat := (s.candidates.map KeyCandidate.position).foldl min s.tokens.size

/-- The tokens of a text of which no more can be read. -/
def brokenOff (s : Scan) (f : DocumentFault) : List Token :=
  s.tokens.toList.take s.certain ++ [.broken f]

/-- The tokens of a text that has been read up to a place. -/
def readTokens : (fuel : Nat) → Scan → List Token
  | 0, s => s.brokenOff .malformed
  | fuel + 1, s =>
    match s.dropStale with
    | .error f => s.brokenOff f
    | .ok s =>
      match s.advance with
      | .ok (.inl s) => readTokens fuel s
      | .ok (.inr tokens) => tokens.toList
      | .error f => s.brokenOff f

end Scan

/-- The tokens of a text. -/
def Token.ofText (cs : List Char) : List Token := (Scan.start cs).readTokens (cs.length + 1)

end SchemaBinding.Yaml
