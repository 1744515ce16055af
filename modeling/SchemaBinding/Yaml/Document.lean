import SchemaBinding.Class.Table
import SchemaBinding.Value.Equality
import SchemaBinding.Yaml.Explicit
import SchemaBinding.Yaml.Node

/-!
# YAML documents

`read` gives the value that the one document of a text describes; a text without a document
describes the absent value. Of entries with equal keys the last counts, in the place of the first. A
key may not be a list or a dictionary. A list may be said to be one of pairs, each written as a
mapping of one entry. What is said to be a set is known only as one. The entries of a mapping, or of
each in a list of mappings, can be merged into another one, whose own entries and those of earlier
mappings in the list count for more. A text may not hold characters that cannot be printed.

Of several faults in a document the one that is nested least deep counts, and of those the first.

Specification: §12.
-/

namespace SchemaBinding.Yaml

/-- Whether a character may stand in a text. -/
def isAdmissible (c : Char) : Bool :=
  let n := c.toNat
  n == 0x9 || n == 0xA || n == 0xD || (0x20 ≤ n && n ≤ 0x7E) || n == 0x85 ||
    (0xA0 ≤ n && n ≤ 0xD7FF) || (0xE000 ≤ n && n ≤ 0xFFFD) || 0x10000 ≤ n

namespace Node

/-- What a node is said to be. -/
def tag : Node → Tag
  | .scalar tag _ => tag
  | .sequence tag _ => tag
  | .mapping tag _ => tag

/-- Whether a node is a key under which entries are merged. -/
def isMerge : Node → Bool
  | .scalar .implied "<<" => true
  | n => n.tag == .merge

/-- Whether a node is a mapping. -/
def isMapping : Node → Bool
  | .mapping .. => true
  | _ => false

mutual

/-- The entries that are merged into a mapping and its own. -/
def split (es : List (Node × Node)) :
    Except DocumentFault (List (Node × Node) × List (Node × Node)) :=
  match es with
  | [] => .ok ([], [])
  | e :: es => do
    let (merged, own) ← splitEntry e
    let (moreMerged, moreOwn) ← split es
    return (merged ++ moreMerged, own ++ moreOwn)
termination_by structural es

/-- What one entry contributes to the entries that are merged and to the own ones. -/
def splitEntry (e : Node × Node) :
    Except DocumentFault (List (Node × Node) × List (Node × Node)) :=
  match e with
  | (key, value) =>
    if key.isMerge then (merging value).map fun merged => (merged, [])
    else .ok ([], [(key, value)])
termination_by structural e

/-- The entries that a node contributes when it is merged. -/
def merging (n : Node) : Except DocumentFault (List (Node × Node)) :=
  match n with
  | .mapping _ es => (split es).map fun (merged, own) => merged ++ own
  | .sequence _ items => mergingAll items
  | .scalar .. => .error .malformed
termination_by structural n

/-- The entries that the mappings of a list contribute, those of the last mapping first. -/
def mergingAll (ns : List Node) : Except DocumentFault (List (Node × Node)) :=
  match ns with
  | [] => .ok []
  | n :: ns =>
    if n.isMapping then do
      let first ← merging n
      let rest ← mergingAll ns
      return rest ++ first
    else .error .malformed
termination_by structural ns

end

/-- The entries of a mapping, those first that are merged into it. -/
def entries (es : List (Node × Node)) : Except DocumentFault (List (Node × Node)) :=
  (split es).map fun (merged, own) => merged ++ own

/-- The value of a key. A mark that stands for no value of its own may be one. -/
def keyValue : Node → Except DocumentFault Value
  | .scalar .implied "=" => .ok (.str "=")
  | .scalar .value s => .ok (.str s)
  | .scalar tag s => scalarValue tag s
  | _ => .error .malformed

/-- The collections among the types that a node can be said to be. -/
def collectionTags : List Tag := [.seq, .map, .pairs, .set]

/-- A node inside of another: a scalar must have a value, and a collection is left for later, as is
anything that is said to be one. -/
def visit (n : Node) : Except DocumentFault (List Node) :=
  if collectionTags.contains n.tag then .ok [n]
  else
    match n with
    | .scalar tag s => (scalarValue tag s).map fun _ => []
    | n => if n.tag = .implied then .ok [n] else .error .malformed

/-- An entry of a mapping: the key must have a value, and then what stands under it is visited. -/
def visitEntry (e : Node × Node) : Except DocumentFault (List Node) := do
  let _ ← keyValue e.1
  visit e.2

/-- A pair: a mapping of one entry. -/
def pair : Node → Except DocumentFault (Node × Node)
  | .mapping _ [e] => .ok e
  | _ => .error .malformed

/-- A pair, whose key and value are visited. -/
def visitPair (n : Node) : Except DocumentFault (List Node) := do
  let (key, value) ← pair n
  return (← visit key) ++ (← visit value)

/-- The collections directly inside of one, all of whose keys and scalars must have values. -/
def inner : Node → Except DocumentFault (List Node)
  | .sequence .pairs items => (items.mapM visitPair).map List.flatten
  | .sequence tag items =>
    if tag = .map || tag = .set then .error .malformed
    else (items.mapM visit).map List.flatten
  | .mapping tag es =>
    if tag = .seq || tag = .pairs then .error .malformed
    else do
      let es ← entries es
      (es.mapM visitEntry).map List.flatten
  | .scalar .. => .error .malformed

/-- Looks at collections, and then at those directly inside of them, down to a depth. -/
def inspect : (depth : Nat) → List Node → Except DocumentFault Unit
  | 0, _ => .ok ()
  | _, [] => .ok ()
  | depth + 1, ns => do
    let nested ← ns.mapM inner
    inspect depth nested.flatten

/-- A set, of which no more is known than that it is one. -/
def aSet : Value := .record (.new .set) []

/-- The value of a node of some depth. -/
def value : (depth : Nat) → Node → Except DocumentFault Value
  | 0, _ => .error .malformed
  | _ + 1, .scalar tag s => scalarValue tag s
  | depth + 1, .sequence .pairs items => do
    let items ← items.mapM fun n => do
      let (k, v) ← pair n
      return .tuple [← value depth k, ← value depth v]
    return .list items none
  | depth + 1, .sequence _ items => do
    let items ← items.mapM (value depth)
    return .list items none
  | depth + 1, .mapping tag es => do
    let es ← entries es
    let pairs ← es.mapM fun e => do return (← keyValue e.1, ← value depth e.2)
    if tag = .set then return aSet
    else return .dict (pairs.foldl (fun before e => Value.setEntry before e.1 e.2) [])

end Node

/-- The value that a text describes. A node has no more depth than the text has tokens. -/
def read (cs : List Char) : Except DocumentFault Value :=
  if !cs.all isAdmissible then .error .malformed
  else do
    let tokens := Token.ofText cs
    match ← Node.ofTokens? tokens with
    | some node =>
      Node.inspect tokens.length (← node.visit)
      node.value (tokens.length + 1)
    | none => return .null

end SchemaBinding.Yaml
