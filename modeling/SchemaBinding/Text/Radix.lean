import SchemaBinding.Text.CodePoints

/-!
# Digits of a base

Digits in bases up to sixteen, the numbers that runs of them write, and characters named by the
number of their code point.
-/

namespace SchemaBinding.Text

/-- The value of an ASCII digit; letters of either case follow the ten decimal digits. -/
def digitValue? (c : Char) : Option Nat :=
  if '0' ≤ c && c ≤ '9' then some (c.toNat - 48)
  else if 'a' ≤ c && c ≤ 'f' then some (c.toNat - 87)
  else if 'A' ≤ c && c ≤ 'F' then some (c.toNat - 55)
  else none

/-- Whether a character is a digit of a base. -/
def isDigitIn (base : Nat) (c : Char) : Bool := (digitValue? c).any (· < base)

/-- The number that digits of a base write. -/
def valueIn (base : Nat) (ds : List Char) : Nat :=
  ds.foldl (fun n d => base * n + (digitValue? d).getD 0) 0

/-- The digits of a base at the front of a text, with single underscores between them left out, and
the rest. `afterDigit` tells whether a digit came just before. -/
def takeDigitGroups (base : Nat) (afterDigit : Bool) : List Char → List Char × List Char
  | [] => ([], [])
  | c :: rest =>
    if isDigitIn base c then
      let (ds, after) := takeDigitGroups base true rest
      (c :: ds, after)
    else if afterDigit && c == '_' && rest.head?.any (isDigitIn base) then
      takeDigitGroups base false rest
    else ([], c :: rest)

/-- The character with a code point, if it is one. -/
def charOf? (n : Nat) : Option Char := if n.isValidChar then some (Char.ofNat n) else none

/-- The number that `width` hexadecimal digits at the front of a text write, and the rest. -/
def readHex (width : Nat) (cs : List Char) : Option (Nat × List Char) :=
  let ds := cs.take width
  if ds.length = width && ds.all (isDigitIn 16) then some (valueIn 16 ds, cs.drop width) else none

/-- The character whose code point `width` hexadecimal digits at the front of a text write, and the
rest. -/
def readCodePoint (width : Nat) (cs : List Char) : Option (Char × List Char) :=
  (readHex width cs).bind fun (n, rest) => (charOf? n).map fun c => (c, rest)

/-- Whether a number is the first surrogate of a pair. -/
def isHighSurrogate (n : Nat) : Bool := 0xD800 ≤ n && n < 0xDC00

/-- Whether a number is the second surrogate of a pair. -/
def isLowSurrogate (n : Nat) : Bool := 0xDC00 ≤ n && n < 0xE000

/-- The characters that code points stand for. The two surrogates of a pair are one character, and a
surrogate without the other reads as the replacement character. -/
def ofCodePoints : List Nat → List Char
  | [] => []
  | [n] => [(charOf? n).getD '\ufffd']
  | n :: k :: rest =>
    if isHighSurrogate n && isLowSurrogate k then
      Char.ofNat (0x10000 + (n - 0xD800) * 0x400 + (k - 0xDC00)) :: ofCodePoints rest
    else (charOf? n).getD '\ufffd' :: ofCodePoints (k :: rest)

end SchemaBinding.Text
