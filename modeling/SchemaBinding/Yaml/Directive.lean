import SchemaBinding.Yaml.Property
import SchemaBinding.Yaml.Scalar

/-!
# Directives

Lines before a document that say how it is to be read: the version of the language that it is
written in, and what the handles of its tags stand for. Any other directive says nothing.

Specification: §12.
-/

namespace SchemaBinding.Yaml

open Text

/-- A directive. -/
inductive Directive where
  /-- The document is written in a version of the language. -/
  | version (major minor : Nat)
  /-- A handle stands for the start of an address. -/
  | handle (name address : String)
  /-- A directive that says nothing. -/
  | other
deriving DecidableEq, Repr

namespace Directive

/-- A number of a version. -/
def readNumber (c : Cursor) : Except DocumentFault (Nat × Cursor) := do
  let ds := c.rest.takeWhile isAsciiDigit
  if ds.isEmpty then throw .malformed
  return (← decimal ds, c.skip ds.length)

/-- A version: two numbers with a point between them. -/
def readVersion (c : Cursor) : Except DocumentFault (Directive × Cursor) := do
  let (major, c) ← readNumber (c.skipWhile (· == ' '))
  if c.peek != some '.' then throw .malformed
  let (minor, c) ← readNumber c.advance
  return (.version major minor, c)

/-- A handle and the start of an address, with spaces between them. -/
def readHandling (c : Cursor) : Except DocumentFault (Directive × Cursor) := do
  let c := c.skipWhile (· == ' ')
  if c.peek != some '!' then throw .malformed
  let (name, c) ← readHandle c
  if c.peek != some ' ' then throw .malformed
  let (address, c) ← readAddress (c.skipWhile (· == ' '))
  return (.handle name address, c)

/-- What a directive of a name says. -/
def readValue (name : String) (c : Cursor) : Except DocumentFault (Directive × Cursor) := do
  if name == "YAML" || name == "TAG" then
    let (d, c) ← if name == "YAML" then readVersion c else readHandling c
    if endsMark c.peek then return (d, c) else throw .malformed
  else return (.other, c.skipWhile fun d => !isBreak d)

end Directive

/-- A directive, after its mark. -/
def readDirective (c : Cursor) : Except DocumentFault (Directive × Cursor) := do
  let (name, c) ← readName c.advance
  if !endsMark c.peek then throw .malformed
  let (d, c) ← Directive.readValue name c
  return (d, ← wellFormed c.endLine?)

end SchemaBinding.Yaml
