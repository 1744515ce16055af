/-!
# Ranges of code points

A character class of the Unicode standard is a list of inclusive ranges of code points. Classes are
taken from version 14.0 of the standard.
-/

namespace SchemaBinding.Text

/-- Whether `c` lies in one of the inclusive ranges. -/
def inRanges (c : Char) (ranges : List (Nat × Nat)) : Bool :=
  ranges.any fun r => r.1 ≤ c.toNat && c.toNat ≤ r.2

/-- A code point below 128. -/
def isAscii (c : Char) : Bool := c.toNat < 128

/-- An ASCII letter of either case. -/
def isAsciiLetter (c : Char) : Bool :=
  ('a' ≤ c && c ≤ 'z') || ('A' ≤ c && c ≤ 'Z')

/-- An ASCII decimal digit. -/
def isAsciiDigit (c : Char) : Bool := '0' ≤ c && c ≤ '9'

/-- The value of an ASCII decimal digit. -/
def asciiDigit? (c : Char) : Option Nat :=
  if isAsciiDigit c then some (c.toNat - 48) else none

end SchemaBinding.Text
