/-!
# Text and bytes

Reading UTF-8, and cutting a text to a number of bytes. Overlong forms, surrogates and code points
beyond the last are refused. What is reported of bytes that are no text is the first place where
reading must stop: a byte that starts no character, or a start that is not followed by the bytes it
needs. Of a broken character those bytes are reported that could still have begun one.
-/

namespace SchemaBinding.Text.Utf8

/-- Why bytes are no text. -/
inductive DecodeCause where
  /-- No character starts with that byte. -/
  | start
  /-- A character is not continued. -/
  | continuation
  /-- The bytes end inside a character. -/
  | truncated
deriving DecidableEq, Repr

/-- A place where bytes are no text. -/
structure DecodeFault where
  /-- The first offending byte. -/
  byte : UInt8
  /-- Its position. -/
  first : Nat
  /-- The position of the last offending byte. -/
  last : Nat
  /-- What is wrong there. -/
  cause : DecodeCause
deriving DecidableEq, Repr

/-- Whether a byte continues a character. -/
def continues (b : UInt8) : Bool := 0x80 ≤ b && b < 0xC0

/-- Whether a byte may come second in a character, after its first byte. -/
def second (lead b : UInt8) : Bool :=
  continues b &&
    (if lead == 0xE0 then 0xA0 ≤ b
     else if lead == 0xED then b < 0xA0
     else if lead == 0xF0 then 0x90 ≤ b
     else if lead == 0xF4 then b < 0x90
     else true)

/-- The number of bytes of the character that a byte starts, if it starts one. -/
def width? (lead : UInt8) : Option Nat :=
  if lead < 0x80 then some 1
  else if lead < 0xC2 then none
  else if lead < 0xE0 then some 2
  else if lead < 0xF0 then some 3
  else if lead < 0xF5 then some 4
  else none

/-- How many of the bytes after a first byte can belong to its character, at most `left`. -/
def goodLength (lead : UInt8) (left : Nat) (rest : List UInt8) : Nat :=
  match rest with
  | [] => 0
  | b :: rest =>
    if 0 < left && second lead b then 1 + ((rest.take (left - 1)).takeWhile continues).length else 0

/-- The code point of a character of several bytes. -/
def codePoint (lead : UInt8) (rest : List UInt8) : Nat :=
  let top :=
    if lead < 0xE0 then lead.toNat - 0xC0
    else if lead < 0xF0 then lead.toNat - 0xE0
    else lead.toNat - 0xF0
  rest.foldl (fun n b => 64 * n + (b.toNat - 0x80)) top

/-- Reads bytes as text. `skip` bytes of the character read last are still to be passed over, and
`position` counts the bytes before. -/
def read (skip position : Nat) : List UInt8 → Except DecodeFault (List Char)
  | [] => .ok []
  | b :: rest =>
    match skip with
    | skip + 1 => read skip (position + 1) rest
    | 0 =>
      match width? b with
      | none => .error ⟨b, position, position, .start⟩
      | some 1 => (read 0 (position + 1) rest).map (Char.ofNat b.toNat :: ·)
      | some width =>
        let good := goodLength b (width - 1) rest
        if good + 1 = width then
          (read good (position + 1) rest).map (Char.ofNat (codePoint b (rest.take good)) :: ·)
        else if good = rest.length then .error ⟨b, position, position + good, .truncated⟩
        else .error ⟨b, position, position + good, .continuation⟩

/-- The text that bytes hold. -/
def decode (bytes : List UInt8) : Except DecodeFault (List Char) := read 0 0 bytes

/-- The characters whose bytes lie within the first `room` bytes; one that is cut through is
replaced by the replacement character. -/
def cutChars (room : Nat) : List Char → List Char
  | [] => []
  | c :: rest =>
    if room = 0 then []
    else if c.utf8Size ≤ room then c :: cutChars (room - c.utf8Size) rest
    else ['\ufffd']

/-- A text cut to a number of bytes. -/
def cut (room : Nat) (s : String) : String := String.ofList (cutChars room s.toList)

end SchemaBinding.Text.Utf8
