/-!
# Tags

What a node is said to be. A tag is an address; those of the types that the language itself knows
share their start. A node without a tag, and one whose tag is a lone exclamation mark, is what it
has the form of.

Specification: §12.
-/

namespace SchemaBinding.Yaml

/-- What a node is said to be. -/
inductive Tag where
  /-- Nothing is said. -/
  | implied
  | null
  | bool
  | int
  | float
  | str
  /-- Bytes. -/
  | binary
  /-- A date or a date-time. -/
  | timestamp
  /-- A list. -/
  | seq
  /-- A dictionary. -/
  | map
  /-- A list of pairs of a key and a value. -/
  | pairs
  /-- A set. -/
  | set
  /-- A key whose entries are merged. -/
  | merge
  /-- A mark that stands for no value of its own. -/
  | value
  /-- Anything else. -/
  | foreign
deriving DecidableEq, Inhabited, Repr

namespace Tag

/-- The start of the addresses of the types that the language knows. -/
def standard : String := "tag:yaml.org,2002:"

/-- The types that the language knows, by the rest of their addresses. -/
def known : List (String × Tag) := [
  ("null", .null), ("bool", .bool), ("int", .int), ("float", .float), ("str", .str),
  ("binary", .binary), ("timestamp", .timestamp), ("seq", .seq), ("map", .map), ("omap", .pairs),
  ("pairs", .pairs), ("set", .set), ("merge", .merge), ("value", .value)]

/-- What an address says. -/
def ofAddress (address : String) : Tag :=
  if address == "!" then .implied
  else ((known.find? fun t => standard ++ t.1 == address).map Prod.snd).getD .foreign

/-- The handles that every document knows, and what they stand for. -/
def handles : List (String × String) := [("!", "!"), ("!!", standard)]

end Tag

end SchemaBinding.Yaml
