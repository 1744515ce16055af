import SchemaBinding.Fault

/-!
# Reading documents

What the readers of documents share: a reader takes something from the front of a text and gives
what is left. A text that is no document is malformed, whatever is wrong with it; a document may
still hold a scalar that stands for no value.

Specification: §11 and §12.
-/

namespace SchemaBinding

/-- Why a document cannot be read. -/
inductive DocumentFault where
  /-- The text is not well formed. -/
  | malformed
  /-- A scalar stands for no value. -/
  | value (cause : ValueFault)
  /-- A scalar stands for a number that is too large. -/
  | overflow (cause : OverflowFault)
  /-- A scalar is said to be a truth value but is no word for one. -/
  | word (word : String)
  /-- A scalar is said to be a number but is empty. -/
  | emptyNumber
  /-- A scalar is said to be a date but has not the form of one. -/
  | formless
deriving DecidableEq, Repr

/-- The fault of a document that cannot be read, given that of a text that is no document. -/
def DocumentFault.toFault (malformed : Fault) : DocumentFault → Fault
  | .malformed => malformed
  | .value cause => .value cause
  | .overflow cause => .overflow cause
  | .word w => .unknownWord w
  | .emptyNumber => .emptyText
  | .formless => .attribute (.ofInstance "NoneType" "groupdict")

/-- Takes something from the front of a text. -/
abbrev Reader (α : Type) := List Char → Except DocumentFault (α × List Char)

/-- What a reader may find, or else the text is malformed. -/
def wellFormed {α : Type} : Option α → Except DocumentFault α
  | some a => .ok a
  | none => .error .malformed

/-- The text after an expected character. -/
def expectChar (c : Char) : List Char → Except DocumentFault (List Char)
  | d :: rest => if d == c then .ok rest else .error .malformed
  | [] => .error .malformed

/-- The text after the blanks in front of it, which are spaces and tabs. -/
def skipBlanks (cs : List Char) : List Char := cs.dropWhile fun c => c == ' ' || c == '\t'

end SchemaBinding
