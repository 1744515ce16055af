import SchemaBinding.Text.Printable

/-!
# Quoted texts

How a text or a byte sequence is shown inside a message: between single quotes, or between double
quotes when it holds a single quote and no double one. The quote in use and the backslash are
written after a backslash, line feed, carriage return and tab as letters after a backslash, and
every other character that is not printable by its code point in hexadecimal.
-/

namespace SchemaBinding.Text

/-- The last `width` hexadecimal digits of a number, in lower case. -/
def hexDigits : (width : Nat) → Nat → List Char
  | 0, _ => []
  | width + 1, n => hexDigits width (n / 16) ++ [Nat.digitChar (n % 16)]

/-- The quote that surrounds a text: double only if the text holds a single quote and no double. -/
def quoteFor (cs : List Char) : Char :=
  if cs.contains '\'' && !cs.contains '"' then '"' else '\''

/-- A code point in the shortest of the three hexadecimal forms that holds it. -/
def escapeCode (n : Nat) : List Char :=
  if n < 0x100 then ['\\', 'x'] ++ hexDigits 2 n
  else if n < 0x10000 then ['\\', 'u'] ++ hexDigits 4 n
  else ['\\', 'U'] ++ hexDigits 8 n

/-- One character inside quotes of the given kind. -/
def escapeChar (quote c : Char) : List Char :=
  if c == quote || c == '\\' then ['\\', c]
  else if c == '\n' then ['\\', 'n']
  else if c == '\r' then ['\\', 'r']
  else if c == '\t' then ['\\', 't']
  else if isPrintable c then [c]
  else escapeCode c.toNat

/-- A text in quotes. -/
def quoted (s : String) : String :=
  let cs := s.toList
  let quote := quoteFor cs
  String.ofList (quote :: cs.flatMap (escapeChar quote) ++ [quote])

/-- One byte inside quotes of the given kind; bytes beyond ASCII are always escaped. -/
def escapeByte (quote : Char) (b : UInt8) : List Char :=
  if b.toNat < 128 then escapeChar quote (Char.ofNat b.toNat) else escapeCode b.toNat

/-- A byte sequence in quotes, marked by a leading `b`. -/
def quotedBytes (bytes : List UInt8) : String :=
  let quote := quoteFor (bytes.map fun b => Char.ofNat b.toNat)
  String.ofList ('b' :: quote :: bytes.flatMap (escapeByte quote) ++ [quote])

end SchemaBinding.Text
