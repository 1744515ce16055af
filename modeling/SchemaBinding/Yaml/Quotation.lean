import SchemaBinding.Document
import SchemaBinding.Text.Radix
import SchemaBinding.Yaml.Cursor

/-!
# Quoted scalars

Text between single quotes, where a quote is written twice, or between double quotes, where a
backslash starts an escape. Either may run over several lines, whose breaks are folded; a document
may not end inside.

Specification: §12.
-/

namespace SchemaBinding.Yaml

open Text

/-- The characters that a backslash and one more stand for. -/
def escapes : List (Char × Char) := [
  ('0', '\x00'), ('a', '\x07'), ('b', '\x08'), ('t', '\t'), ('\t', '\t'), ('n', '\n'),
  ('v', '\x0b'), ('f', '\x0c'), ('r', '\r'), ('e', '\x1b'), (' ', ' '), ('"', '"'), ('\\', '\\'),
  ('/', '/'), ('N', '\x85'), ('_', '\xa0'), ('L', '\u2028'), ('P', '\u2029')]

/-- The letters before a code point in hexadecimal, and the number of its digits. -/
def codeWidths : List (Char × Nat) := [('x', 2), ('u', 4), ('U', 8)]

/-- Further line breaks after a first, blanks aside. -/
def quotedBreaks : (fuel : Nat) → Cursor → Except DocumentFault (List Char × Cursor)
  | 0, _ => .error .malformed
  | fuel + 1, c =>
    if c.atBoundary then .error .malformed
    else
      let c := c.skipWhile isSpace
      match c.takeBreak with
      | none => .ok ([], c)
      | some (b, c) => do
        let (more, c) ← quotedBreaks fuel c
        return (b :: more, c)

/-- What is kept of the blanks and line breaks that start here. -/
def quotedGap (c : Cursor) : Except DocumentFault (List Char × Cursor) :=
  let blanks := c.rest.takeWhile isSpace
  let after := c.skip blanks.length
  match after.takeBreak with
  | none => .ok (blanks, after)
  | some (b, c) => do
    let (more, c) ← quotedBreaks (c.rest.length + 1) c
    return (folded b more, c)

/-- A code point as it may be written, which must not be beyond the last. -/
def checkCodePoint (n : Nat) : Except DocumentFault Nat :=
  if 0x7FFFFFFF < n then .error (.overflow .codePoint)
  else if 0x10FFFF < n then .error (.value .codePoint)
  else .ok n

/-- Characters as code points. -/
def codePoints (r : List Char × Cursor) : List Nat × Cursor := (r.1.map Char.toNat, r.2)

/-- What follows a backslash, in code points: a character, a code point, or a line break, which is
dropped with the blanks of the next line. -/
def readEscape (c : Cursor) : Except DocumentFault (List Nat × Cursor) :=
  match c.rest with
  | [] => .error .malformed
  | d :: rest =>
    match escapes.find? fun e => e.1 == d with
    | some e => .ok ([e.2.toNat], c.advance)
    | none =>
      match codeWidths.find? fun w => w.1 == d with
      | some w => do
        let (n, _) ← wellFormed (readHex w.2 rest)
        return ([← checkCodePoint n], c.skip (w.2 + 1))
      | none =>
        match c.takeBreak with
        | some (_, c) => (quotedBreaks (c.rest.length + 1) c).map codePoints
        | none => .error .malformed

/-- The code points of a quoted scalar up to its closing quote. -/
def readQuoted (double : Bool) : (fuel : Nat) → Cursor → Except DocumentFault (List Nat × Cursor)
  | 0, _ => .error .malformed
  | fuel + 1, c =>
    let andThen : List Nat × Cursor → Except DocumentFault (List Nat × Cursor) := fun r => do
      let (cs, c) ← readQuoted double fuel r.2
      return (r.1 ++ cs, c)
    match c.rest with
    | [] => .error .malformed
    | d :: rest =>
      if double && d == '"' then .ok ([], c.advance)
      else if !double && d == '\'' then
        if rest.head? == some '\'' then andThen ([d.toNat], c.skip 2) else .ok ([], c.advance)
      else if double && d == '\\' then readEscape c.advance >>= andThen
      else if isSpace d || isBreak d then quotedGap c >>= fun r => andThen (codePoints r)
      else andThen ([d.toNat], c.advance)

end SchemaBinding.Yaml
