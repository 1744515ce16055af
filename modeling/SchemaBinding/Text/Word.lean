import SchemaBinding.Text.Letter
import SchemaBinding.Text.Numeric

/-!
# Word characters

A word is a run of letters, numeric characters and underscores; a word boundary lies between a word
character and anything else, the ends of the text included.
-/

namespace SchemaBinding.Text

/-- Whether a character can stand inside a word. -/
def isWord (c : Char) : Bool := c == '_' || isLetter c || isNumeric c

/-- Whether a word boundary lies between two neighbours, `none` being an end of the text. -/
def isBoundary (before after : Option Char) : Bool :=
  before.any isWord != after.any isWord

end SchemaBinding.Text
