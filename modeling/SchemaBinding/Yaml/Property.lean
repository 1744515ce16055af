import SchemaBinding.Document
import SchemaBinding.Text.Radix
import SchemaBinding.Text.Utf8
import SchemaBinding.Yaml.Cursor

/-!
# Anchors and tags as they are written

A node may bear an anchor, a name by which an alias can stand for the node further down, and a tag,
which says what the node is. A tag is a handle and a suffix, or a suffix alone. The suffix is an
address, in which bytes may be written in hexadecimal after a percent sign.

Specification: §12.
-/

namespace SchemaBinding.Yaml

open Text

/-- Whether a character may stand in the name of an anchor, a handle or a directive. -/
def isNameChar (c : Char) : Bool := isAsciiLetter c || isAsciiDigit c || c == '-' || c == '_'

/-- What may follow the name of an anchor besides a blank. -/
def nameStops : List Char := ['?', ':', ',', ']', '\x7d', '%', '@', '\x60']

/-- A name, which must not be empty. -/
def readName (c : Cursor) : Except DocumentFault (String × Cursor) :=
  let name := c.rest.takeWhile isNameChar
  if name.isEmpty then .error .malformed else .ok (String.ofList name, c.skip name.length)

/-- The name of an anchor or of an alias, after its mark. -/
def readAnchor (c : Cursor) : Except DocumentFault (String × Cursor) := do
  let (name, c) ← readName c.advance
  if endsWord c.peek || c.peek.any nameStops.contains then return (name, c)
  else throw .malformed

/-- Whether a character may stand in an address. -/
def isAddressChar (c : Char) : Bool :=
  isAsciiLetter c || isAsciiDigit c ||
    ['-', ';', '/', '?', ':', '@', '&', '=', '+', '$', ',', '_', '.', '!', '~', '*', '\'', '(', ')',
      '[', ']', '%'].contains c

/-- The bytes of an address. -/
def addressBytes : List Char → Except DocumentFault (List UInt8)
  | [] => .ok []
  | '%' :: a :: b :: rest =>
    if isDigitIn 16 a && isDigitIn 16 b then
      (addressBytes rest).map (UInt8.ofNat (valueIn 16 [a, b]) :: ·)
    else .error .malformed
  | '%' :: _ => .error .malformed
  | c :: rest => (addressBytes rest).map (UInt8.ofNat c.toNat :: ·)

/-- An address, which must not be empty. -/
def readAddress (c : Cursor) : Except DocumentFault (String × Cursor) := do
  let written := c.rest.takeWhile isAddressChar
  if written.isEmpty then throw .malformed
  match Utf8.decode (← addressBytes written) with
  | .ok cs => return (String.ofList cs, c.skip written.length)
  | .error _ => throw .malformed

/-- The handle of a tag: one exclamation mark before a space, and else a name between two. -/
def readHandle (c : Cursor) : Except DocumentFault (String × Cursor) :=
  let c' := c.advance
  if c'.peek == some ' ' then .ok ("!", c')
  else
    let name := c'.rest.takeWhile isNameChar
    let after := c'.skip name.length
    if after.peek == some '!' then .ok ("!" ++ String.ofList name ++ "!", after.advance)
    else .error .malformed

/-- A tag: its handle, if it has one, and its suffix. A lone exclamation mark is a suffix. -/
def readTag (c : Cursor) : Except DocumentFault ((Option String × String) × Cursor) := do
  let next := c.rest[1]?
  let (tag, c) ←
    if next == some '<' then do
      let (suffix, c) ← readAddress (c.skip 2)
      if c.peek == some '>' then pure ((none, suffix), c.advance) else throw .malformed
    else if endsWord next then pure ((none, "!"), c.advance)
    else do
      let word := c.advance.rest.takeWhile fun d => !endsMark (some d)
      let (handle, c) ← if word.contains '!' then readHandle c else pure ("!", c.advance)
      let (suffix, c) ← readAddress c
      pure ((some handle, suffix), c)
  if endsMark c.peek then return (tag, c) else throw .malformed

end SchemaBinding.Yaml
