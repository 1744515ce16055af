import SchemaBinding.Document
import SchemaBinding.Text.Radix

/-!
# Strings and keys of a TOML document

A string is basic, with escapes, between double quotes, or literal between single ones; three quotes
let it run over several lines. A key is a bare word or a one-line string, and keys joined by dots
form a path. No control character but the tab may stand in a string, and a line feed only between
three quotes.

Specification: §11.
-/

namespace SchemaBinding.Toml

open Text

/-- Whether a character may not stand in a string, or in a comment when `multiline` is false. -/
def isIllegal (multiline : Bool) (c : Char) : Bool :=
  (c.toNat < 32 || c.toNat == 127) && c != '\t' && !(multiline && c == '\n')

/-- The characters that a backslash and a letter stand for. -/
def escapes : List (Char × Char) :=
  [('b', '\x08'), ('t', '\t'), ('n', '\n'), ('f', '\x0c'), ('r', '\r'), ('"', '"'), ('\\', '\\')]

/-- The text after the spaces, tabs and line feeds in front of it. -/
def skipBreaks (cs : List Char) : List Char :=
  cs.dropWhile fun c => c == ' ' || c == '\t' || c == '\n'

/-- What follows a backslash: a letter, the number of a code point, or between three quotes the end
of a line, which is passed over with the blanks of the next. -/
def readEscape (multiline : Bool) : Reader (List Char)
  | [] => .error .malformed
  | c :: rest =>
    if multiline && (c == ' ' || c == '\t' || c == '\n') then
      match skipBlanks (c :: rest) with
      | '\n' :: after => .ok ([], skipBreaks after)
      | _ => .error .malformed
    else if c == 'u' then wellFormed ((readCodePoint 4 rest).map fun r => ([r.1], r.2))
    else if c == 'U' then wellFormed ((readCodePoint 8 rest).map fun r => ([r.1], r.2))
    else wellFormed ((escapes.find? fun e => e.1 == c).map fun e => ([e.2], rest))

/-- The characters of a basic string up to its closing quotes. -/
def readBasic (multiline : Bool) : (fuel : Nat) → Reader (List Char)
  | 0, _ => .error .malformed
  | _, [] => .error .malformed
  | fuel + 1, c :: rest =>
    let closed := if multiline then ['"', '"'].isPrefixOf rest else true
    if c == '"' && closed then .ok ([], if multiline then rest.drop 2 else rest)
    else if c == '\\' then do
      let (e, rest) ← readEscape multiline rest
      let (s, rest) ← readBasic multiline fuel rest
      return (e ++ s, rest)
    else if isIllegal multiline c then .error .malformed
    else do
      let (s, rest) ← readBasic multiline fuel rest
      return (c :: s, rest)

/-- The characters before the first three single quotes, and the text after these. -/
def untilTriple : List Char → Option (List Char × List Char)
  | '\'' :: '\'' :: '\'' :: rest => some ([], rest)
  | c :: rest => (untilTriple rest).map fun r => (c :: r.1, r.2)
  | [] => none

/-- A literal string, from after its opening quotes. -/
def readLiteral (multiline : Bool) (cs : List Char) :
    Except DocumentFault (List Char × List Char) := do
  let (s, rest) ←
    if multiline then wellFormed (untilTriple cs)
    else do
      let rest ← expectChar '\'' (cs.dropWhile fun c => c != '\'')
      return (cs.takeWhile fun c => c != '\'', rest)
  if s.any (isIllegal multiline) then throw .malformed
  return (s, rest)

/-- Up to two more quotes after three closing ones belong to the string. -/
def takeQuotes (quote : Char) (s rest : List Char) : List Char × List Char :=
  let more := (rest.take 2).takeWhile fun c => c == quote
  (s ++ more, rest.drop more.length)

/-- The text after a line feed in front of it. -/
def dropNewline : List Char → List Char
  | '\n' :: rest => rest
  | cs => cs

/-- A string of one line between double or single quotes. -/
def readLineString : Reader (List Char)
  | '"' :: rest => readBasic false (rest.length + 1) rest
  | '\'' :: rest => readLiteral false rest
  | _ => .error .malformed

/-- A string of any form. -/
def readString : Reader (List Char)
  | '"' :: '"' :: '"' :: rest => do
    let (s, rest) ← readBasic true (rest.length + 1) (dropNewline rest)
    return takeQuotes '"' s rest
  | '\'' :: '\'' :: '\'' :: rest => do
    let (s, rest) ← readLiteral true (dropNewline rest)
    return takeQuotes '\'' s rest
  | cs => readLineString cs

/-- Whether a character may stand in a bare key. -/
def isBare (c : Char) : Bool := isAsciiLetter c || isAsciiDigit c || c == '-' || c == '_'

/-- One key of a path. -/
def readKeyPart (cs : List Char) : Except DocumentFault (String × List Char) :=
  let bare := cs.takeWhile isBare
  if bare.isEmpty then do
    let (s, rest) ← readLineString cs
    return (String.ofList s, rest)
  else .ok (String.ofList bare, cs.dropWhile isBare)

/-- Keys joined by dots. -/
def readKeys : (fuel : Nat) → Reader (List String)
  | 0, _ => .error .malformed
  | fuel + 1, cs => do
    let (key, rest) ← readKeyPart cs
    match skipBlanks rest with
    | '.' :: more =>
      let (keys, rest) ← readKeys fuel (skipBlanks more)
      return (key :: keys, rest)
    | rest => return ([key], rest)

/-- A path of keys, which is not empty, and the text after the blanks that follow it. -/
def readPath (cs : List Char) : Except DocumentFault (List String × List Char) :=
  readKeys (cs.length + 1) cs

end SchemaBinding.Toml
