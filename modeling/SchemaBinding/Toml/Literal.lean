import SchemaBinding.Toml.Moment
import SchemaBinding.Toml.Number
import SchemaBinding.Toml.Quotation
import SchemaBinding.Toml.Table

/-!
# Values of a TOML document

Strings, booleans, numbers, dates and times, arrays, which may run over several lines and hold
comments, and inline tables, which may not.

Specification: §11.
-/

namespace SchemaBinding.Toml

/-- The text after the blanks, line feeds and comments in front of it. -/
def skipTrivia (inComment : Bool) : List Char → Except DocumentFault (List Char)
  | [] => .ok []
  | c :: rest =>
    if c == '\n' then skipTrivia false rest
    else if inComment then
      if isIllegal false c then .error .malformed else skipTrivia true rest
    else if c == ' ' || c == '\t' then skipTrivia false rest
    else if c == '#' then skipTrivia true rest
    else .ok (c :: rest)

/-- A path, the equals sign, and the text where the value starts. -/
def readBinding (cs : List Char) : Except DocumentFault (List String × List Char) := do
  let (path, rest) ← readPath cs
  let rest ← expectChar '=' rest
  return (path, skipBlanks rest)

/-- Sets the value at a path of an inline table. -/
def setInline (closed : Closed) (path : List String) (v : Value) (entries : Entries) :
    Except DocumentFault Entries :=
  match path.getLast? with
  | some key =>
    if closed.isFrozen path then .error .malformed
    else changeAt false (addNew key v) path.dropLast entries
  | none => .error .malformed

/-- A boolean. -/
def readBoolean (cs : List Char) : Option (Value × List Char) :=
  if ['t', 'r', 'u', 'e'].isPrefixOf cs then some (.bool true, cs.drop 4)
  else if ['f', 'a', 'l', 's', 'e'].isPrefixOf cs then some (.bool false, cs.drop 5)
  else none

/-- A value that holds no others. -/
def readScalar (cs : List Char) : Except DocumentFault (Value × List Char) :=
  if cs.head? == some '"' || cs.head? == some '\'' then do
    let (s, rest) ← readString cs
    return (.str (String.ofList s), rest)
  else
    match readBoolean cs <|> readMoment cs with
    | some r => .ok r
    | none => readNumber cs

mutual

/-- A value. -/
def readValue : (fuel : Nat) → Reader Value
  | 0, _ => .error .malformed
  | fuel + 1, cs =>
    match cs with
    | '[' :: rest => do
      match ← skipTrivia false rest with
      | ']' :: rest => return (.list [] none, rest)
      | rest =>
        let (items, rest) ← readItems fuel rest
        return (.list items none, rest)
    | '\x7b' :: rest =>
      match skipBlanks rest with
      | '\x7d' :: rest => .ok (.dict [], rest)
      | rest => do
        let (entries, rest) ← readInline fuel .none [] rest
        return (.dict entries, rest)
    | _ => readScalar cs

/-- The items of an array up to its end; the last may be followed by a comma. -/
def readItems : (fuel : Nat) → Reader (List Value)
  | 0, _ => .error .malformed
  | fuel + 1, cs => do
    let (v, rest) ← readValue fuel cs
    match ← skipTrivia false rest with
    | ']' :: rest => return ([v], rest)
    | ',' :: rest =>
      match ← skipTrivia false rest with
      | ']' :: rest => return ([v], rest)
      | rest =>
        let (vs, rest) ← readItems fuel rest
        return (v :: vs, rest)
    | _ => throw .malformed

/-- The entries of an inline table up to its end. -/
def readInline : (fuel : Nat) → Closed → Entries → Reader Entries
  | 0, _, _, _ => .error .malformed
  | fuel + 1, closed, entries, cs => do
    let (path, rest) ← readBinding cs
    let (v, rest) ← readValue fuel rest
    let entries ← setInline closed path v entries
    match skipBlanks rest with
    | '\x7d' :: rest => return (entries, rest)
    | ',' :: rest =>
      let closed := if closesPath v then closed.freeze path else closed
      readInline fuel closed entries (skipBlanks rest)
    | _ => throw .malformed

end

end SchemaBinding.Toml
