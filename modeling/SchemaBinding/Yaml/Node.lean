import SchemaBinding.Yaml.Tag
import SchemaBinding.Yaml.Token

/-!
# Nodes of a YAML document

The tree that the tokens of one document spell. An entry without a value, or a value without a key,
has an empty plain scalar in its place. In a block mapping a sequence may stand at the indentation
of its key; it is then not marked as a block. In a flow sequence a key and a value make up a mapping
of one entry.

An alias is the node that bears its anchor, which must be complete by then: a node may not be inside
of itself. An anchor may be borne only once.

Specification: §12.
-/

namespace SchemaBinding.Yaml

/-- A node. -/
inductive Node where
  | scalar (tag : Tag) (text : String)
  | sequence (tag : Tag) (items : List Node)
  | mapping (tag : Tag) (entries : List (Node × Node))
deriving Inhabited

namespace Node

/-- The node that stands where nothing is written. -/
def empty : Node := .scalar .implied ""

/-- What is left of a document, and what is known of it. -/
structure Feed where
  /-- The tokens that are left. -/
  tokens : List Token
  /-- What the handles of tags stand for. -/
  handles : List (String × String)
  /-- The anchors so far, each with its node once that is complete. -/
  anchors : List (String × Option Node)

namespace Feed

/-- The feed with other tokens. -/
def on (f : Feed) (tokens : List Token) : Feed := { f with tokens := tokens }

/-- Whether a token of a kind comes next. -/
def at? (f : Feed) (kinds : List Token) : Bool := f.tokens.head?.any kinds.contains

/-- What is wrong with tokens that do not start with the one that has to come. -/
def fault (f : Feed) : DocumentFault :=
  match f.tokens with
  | .broken fault :: _ => fault
  | _ => .malformed

/-- The node that an alias stands for. -/
def resolve (f : Feed) (name : String) : Except DocumentFault Node :=
  wellFormed ((f.anchors.find? fun a => a.1 == name).bind Prod.snd)

/-- Notes an anchor whose node is not complete. -/
def announce (f : Feed) : Option String → Except DocumentFault Feed
  | none => .ok f
  | some name =>
    if f.anchors.any fun a => a.1 == name then .error f.fault
    else .ok { f with anchors := (name, none) :: f.anchors }

/-- Notes that the node of an anchor is complete. -/
def settle (f : Feed) (anchor : Option String) (node : Node) : Feed :=
  match anchor with
  | none => f
  | some name => { f with anchors := (name, some node) :: f.anchors.filter fun a => a.1 != name }

/-- What a tag says, whose handle must be known. -/
def tagOf (f : Feed) (handle : Option String) (suffix : String) : Except DocumentFault Tag :=
  match handle with
  | none => .ok (.ofAddress suffix)
  | some h =>
    match f.handles.find? fun e => e.1 == h with
    | some e => .ok (.ofAddress (e.2 ++ suffix))
    | none => .error f.fault

end Feed

/-- Takes something from a feed. -/
abbrev Taker (α : Type) := Feed → Except DocumentFault (α × Feed)

/-- What is written in front of a node. -/
structure Properties where
  /-- Its anchor. -/
  anchor : Option String
  /-- What its tag says. -/
  tag : Option Tag

namespace Properties

/-- Whether nothing is written. -/
def isEmpty (p : Properties) : Bool := p.anchor.isNone && p.tag.isNone

/-- What a scalar is said to be. One that is not plain and has no tag is a text. -/
def scalarTag (p : Properties) (plain : Bool) : Tag :=
  p.tag.getD (if plain then .implied else .str)

/-- What a collection is said to be. -/
def collectionTag (p : Properties) : Tag := p.tag.getD .implied

/-- What is written in front of a node: an anchor and a tag in either order, each at most once. -/
def take : Taker Properties := fun f =>
  match f.tokens with
  | .anchor name :: .tag handle suffix :: rest
  | .tag handle suffix :: .anchor name :: rest => do
    let f := f.on rest
    return (⟨some name, some (← f.tagOf handle suffix)⟩, f)
  | .anchor name :: rest => .ok (⟨some name, none⟩, f.on rest)
  | .tag handle suffix :: rest => do
    let f := f.on rest
    return (⟨none, some (← f.tagOf handle suffix)⟩, f)
  | _ => .ok (⟨none, none⟩, f)

end Properties

/-- Where a node stands, which decides what it may be. -/
inductive Site where
  /-- In a flow collection. -/
  | flow
  /-- In a block. -/
  | block
  /-- In a block mapping, where a sequence need not be marked as a block. -/
  | entry
deriving DecidableEq

/-- The feed after the comma that has to come first, except before the first member. -/
def afterComma (first : Bool) (f : Feed) : Except DocumentFault Feed :=
  match first, f.tokens with
  | true, _ => .ok f
  | false, .flowEntry :: rest => .ok (f.on rest)
  | false, _ => .error f.fault

mutual

/-- A node. -/
def take (fuel : Nat) (site : Site) : Taker Node :=
  match fuel with
  | 0 => fun _ => .error .malformed
  | fuel + 1 => fun f =>
    match f.tokens with
    | .alias name :: rest => (f.resolve name).map fun node => (node, f.on rest)
    | _ => do
      let (properties, f) ← Properties.take f
      let (node, f) ← takeContent fuel site properties (← f.announce properties.anchor)
      return (node, f.settle properties.anchor node)

/-- A node after what is written in front of it. It may be left out if anything is. -/
def takeContent (fuel : Nat) (site : Site) (properties : Properties) : Taker Node :=
  match fuel with
  | 0 => fun _ => .error .malformed
  | fuel + 1 => fun f =>
    match f.tokens with
    | .scalar plain text :: rest => .ok (.scalar (properties.scalarTag plain) text, f.on rest)
    | .flowSequence :: rest => do
      let (items, f) ← takeFlowItems fuel true (f.on rest)
      return (.sequence properties.collectionTag items, f)
    | .flowMapping :: rest => do
      let (entries, f) ← takeFlowEntries fuel true (f.on rest)
      return (.mapping properties.collectionTag entries, f)
    | .blockSequence :: rest =>
      if site = .flow then .error .malformed
      else do
        let (items, f) ← takeItems fuel [.blockEntry, .blockEnd] (f.on rest)
        match f.tokens with
        | .blockEnd :: rest => return (.sequence properties.collectionTag items, f.on rest)
        | _ => throw f.fault
    | .blockMapping :: rest =>
      if site = .flow then .error .malformed
      else do
        let (entries, f) ← takeEntries fuel (f.on rest)
        return (.mapping properties.collectionTag entries, f)
    | .blockEntry :: _ =>
      if site = .entry then do
        let (items, f) ← takeItems fuel [.blockEntry, .key, .value, .blockEnd] f
        return (.sequence properties.collectionTag items, f)
      else if properties.isEmpty then .error .malformed
      else .ok (.scalar (properties.scalarTag true) "", f)
    | .broken fault :: _ => .error fault
    | _ =>
      if properties.isEmpty then .error .malformed
      else .ok (.scalar (properties.scalarTag true) "", f)

/-- A node, or the empty one if a token follows that cannot start any. -/
def takeUnless (fuel : Nat) (site : Site) (stops : List Token) : Taker Node :=
  match fuel with
  | 0 => fun _ => .error .malformed
  | fuel + 1 => fun f => if f.at? stops then .ok (.empty, f) else take fuel site f

/-- The items of a sequence in a block, each after a dash. -/
def takeItems (fuel : Nat) (stops : List Token) : Taker (List Node) :=
  match fuel with
  | 0 => fun _ => .error .malformed
  | fuel + 1 => fun f =>
    match f.tokens with
    | .blockEntry :: rest => do
      let (item, f) ← takeUnless fuel .block stops (f.on rest)
      let (items, f) ← takeItems fuel stops f
      return (item :: items, f)
    | _ => .ok ([], f)

/-- The value of an entry, if a colon comes first. -/
def takeValue (fuel : Nat) (site : Site) (stops : List Token) : Taker Node :=
  match fuel with
  | 0 => fun _ => .error .malformed
  | fuel + 1 => fun f =>
    match f.tokens with
    | .value :: rest => takeUnless fuel site stops (f.on rest)
    | _ => .ok (.empty, f)

/-- The entries of a mapping in a block, up to its end. -/
def takeEntries (fuel : Nat) : Taker (List (Node × Node)) :=
  match fuel with
  | 0 => fun _ => .error .malformed
  | fuel + 1 => fun f =>
    match f.tokens with
    | .key :: rest => do
      let stops := [.key, .value, .blockEnd]
      let (key, f) ← takeUnless fuel .entry stops (f.on rest)
      let (value, f) ← takeValue fuel .entry stops f
      let (entries, f) ← takeEntries fuel f
      return ((key, value) :: entries, f)
    | .blockEnd :: rest => .ok ([], f.on rest)
    | _ => .error f.fault

/-- The items of a flow sequence, up to its end. A comma comes before each but the first. -/
def takeFlowItems (fuel : Nat) (first : Bool) : Taker (List Node) :=
  match fuel with
  | 0 => fun _ => .error .malformed
  | fuel + 1 => fun f => do
    match f.tokens with
    | .flowSequenceEnd :: rest => return ([], f.on rest)
    | _ =>
      let f ← afterComma first f
      match f.tokens with
      | .flowSequenceEnd :: rest => return ([], f.on rest)
      | .key :: rest =>
        let stops := [.flowEntry, .flowSequenceEnd]
        let (key, f) ← takeUnless fuel .flow (.value :: stops) (f.on rest)
        let (value, f) ← takeValue fuel .flow stops f
        let (items, f) ← takeFlowItems fuel false f
        return (.mapping .implied [(key, value)] :: items, f)
      | _ =>
        let (item, f) ← take fuel .flow f
        let (items, f) ← takeFlowItems fuel false f
        return (item :: items, f)

/-- The entries of a flow mapping, up to its end. A comma comes before each but the first; a node
that is not marked as a key has no value. -/
def takeFlowEntries (fuel : Nat) (first : Bool) : Taker (List (Node × Node)) :=
  match fuel with
  | 0 => fun _ => .error .malformed
  | fuel + 1 => fun f => do
    match f.tokens with
    | .flowMappingEnd :: rest => return ([], f.on rest)
    | _ =>
      let f ← afterComma first f
      match f.tokens with
      | .flowMappingEnd :: rest => return ([], f.on rest)
      | .key :: rest =>
        let stops := [.flowEntry, .flowMappingEnd]
        let (key, f) ← takeUnless fuel .flow (.value :: stops) (f.on rest)
        let (value, f) ← takeValue fuel .flow stops f
        let (entries, f) ← takeFlowEntries fuel false f
        return ((key, value) :: entries, f)
      | _ =>
        let (key, f) ← take fuel .flow f
        let (entries, f) ← takeFlowEntries fuel false f
        return ((key, .empty) :: entries, f)

end

/-- What the directives before a document say of the handles of its tags, and the tokens after them.
There may be one version, which must be one of the language that is read, and one meaning of a
handle. -/
def takeDirectives (versioned : Bool) (handles : List (String × String)) :
    List Token → Except DocumentFault (List (String × String) × List Token)
  | .directive (.version major _) :: rest =>
    if versioned || major != 1 then .error .malformed else takeDirectives true handles rest
  | .directive (.handle name address) :: rest =>
    if handles.any fun h => h.1 == name then .error .malformed
    else takeDirectives versioned (handles ++ [(name, address)]) rest
  | .directive .other :: rest => takeDirectives versioned handles rest
  | tokens => .ok (handles, tokens)

/-- Whether tokens cannot be the content of a document. -/
def isBare : List Token → Bool
  | [] => true
  | .directive _ :: _ => true
  | .documentStart :: _ => true
  | .documentEnd :: _ => true
  | _ => false

/-- A document that is marked as one, after its directives. -/
def takeMarked (fuel : Nat) : Taker Node := fun f =>
  match f.tokens with
  | .documentStart :: rest =>
    if isBare rest then .ok (.empty, f.on rest) else take fuel .block (f.on rest)
  | _ => .error f.fault

/-- The tokens after the ends of a document. -/
def dropEnds (tokens : List Token) : List Token := tokens.dropWhile fun t => t == .documentEnd

/-- The node of the document that tokens spell, if there is one. There may not be two. -/
def ofTokens? (tokens : List Token) : Except DocumentFault (Option Node) := do
  if tokens.isEmpty then return none
  let fuel := 5 * tokens.length + 5
  let (handles, content) ← takeDirectives false [] tokens
  let feed : Feed := ⟨content, handles ++ Tag.handles, []⟩
  let (node, feed) ← if isBare tokens then takeMarked fuel feed else take fuel .block feed
  let more := dropEnds feed.tokens
  if more.isEmpty then return some node
  else
    let (_, more) ← takeDirectives false [] more
    throw (feed.on more).fault

end Node

end SchemaBinding.Yaml
