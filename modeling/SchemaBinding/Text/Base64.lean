import SchemaBinding.Text.CodePoints

/-!
# Bytes as characters

Bytes are written six bits a character, filled up to a multiple of four characters with equals
signs. Characters that write no bits are passed over, and so are equals signs that come too early;
nothing is read after the last one that is needed.
-/

namespace SchemaBinding.Text.Base64

/-- The six bits that a character writes. -/
def bits? (c : Char) : Option Nat :=
  if 'A' ≤ c && c ≤ 'Z' then some (c.toNat - 65)
  else if 'a' ≤ c && c ≤ 'z' then some (c.toNat - 71)
  else if isAsciiDigit c then some (c.toNat + 4)
  else if c == '+' then some 62
  else if c == '/' then some 63
  else none

/-- The bytes from here on. `place` is the number of characters since the last whole group of four,
`carry` holds the bits of the last one that are not yet in a byte, and `signs` counts the equals
signs since. -/
def read (place carry signs : Nat) : List Char → Option (List UInt8)
  | [] => if place = 0 then some [] else none
  | c :: rest =>
    if c == '=' then
      if place < 2 then read place carry signs rest
      else if 4 ≤ place + signs + 1 then some []
      else read place carry (signs + 1) rest
    else
      match bits? c with
      | none => read place carry signs rest
      | some n =>
        let byte (high low : Nat) : UInt8 := UInt8.ofNat (high + low)
        match place with
        | 0 => read 1 n 0 rest
        | 1 => (read 2 (n % 16) 0 rest).map (byte (4 * carry) (n / 16) :: ·)
        | 2 => (read 3 (n % 4) 0 rest).map (byte (16 * carry) (n / 4) :: ·)
        | _ => (read 0 0 0 rest).map (byte (64 * carry) n :: ·)

/-- The bytes that a text writes, unless they are cut short. -/
def decode? (cs : List Char) : Option (List UInt8) := read 0 0 0 cs

end SchemaBinding.Text.Base64
