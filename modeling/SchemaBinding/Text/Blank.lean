/-!
# Blank characters

Blanks are the white space characters of Unicode together with the four information separators.
-/

namespace SchemaBinding.Text

/-- Whether a character counts as white space. -/
def isBlank (c : Char) : Bool :=
  let n := c.toNat
  (0x9 ≤ n && n ≤ 0xD) ||
    (0x1C ≤ n && n ≤ 0x20) ||
    n == 0x85 ||
    n == 0xA0 ||
    n == 0x1680 ||
    (0x2000 ≤ n && n ≤ 0x200A) ||
    (0x2028 ≤ n && n ≤ 0x2029) ||
    n == 0x202F ||
    n == 0x205F ||
    n == 0x3000

/-- A list of characters without the blanks at either end. -/
def stripList (cs : List Char) : List Char :=
  ((cs.dropWhile isBlank).reverse.dropWhile isBlank).reverse

/-- A text without the blanks at either end. -/
def strip (s : String) : String := String.ofList (stripList s.toList)

end SchemaBinding.Text
