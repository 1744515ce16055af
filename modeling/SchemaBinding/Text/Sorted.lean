/-!
# Sorted texts

Texts in the order of their code points.
-/

namespace SchemaBinding.Text

/-- Sorted texts with one more. -/
def insertSorted (s : String) : List String → List String
  | [] => [s]
  | t :: ts => if t < s then t :: insertSorted s ts else s :: t :: ts

/-- Texts in order. -/
def sorted : List String → List String
  | [] => []
  | s :: ss => insertSorted s (sorted ss)

end SchemaBinding.Text
