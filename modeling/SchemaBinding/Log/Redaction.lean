import SchemaBinding.Fault
import SchemaBinding.Text.Blank
import SchemaBinding.Text.LowerCase
import SchemaBinding.Text.Word

/-!
# Redaction

Secrets are masked before an event is written. The value under a key whose name speaks of a secret
is masked as a whole. Inside any other text two patterns are masked: an assignment to a name of a
secret, and a bearer token. When the event is about a field whose name speaks of a secret, its
reason and its value are masked as well.

Specification: §10.
-/

namespace SchemaBinding.Log

/-- What stands in the place of a secret (spec §10). -/
def mask : String := "***REDACTED***"

/-- The words that make a key sensitive, wherever they occur in it (spec §10). -/
def sensitiveTerms : List String := [
  "secret", "token", "password", "passphrase", "api_key", "apikey", "authorization", "credential",
  "cookie", "private_key", "client_secret"]

/-- Whether a text occurs in another. -/
def occursIn (part : List Char) : List Char → Bool
  | [] => part.isEmpty
  | c :: cs => part.isPrefixOf (c :: cs) || occursIn part cs

/-- Whether the name of a key speaks of a secret, in any case of letters (spec §10). -/
def isSensitive (key : String) : Bool :=
  sensitiveTerms.any fun term => occursIn term.toList (Text.lower key).toList

/-- The lower-case ASCII letter that a character is a form of, as far as patterns are concerned; the
dotted and dotless i, the long s and the Kelvin sign count as forms of i, s and k. -/
def patternLetter (c : Char) : Char :=
  if c == '\u0130' || c == '\u0131' then 'i'
  else if c == '\u017F' then 's'
  else if c == '\u212A' then 'k'
  else Text.asciiLower c

/-- The front of a text that is a word of a pattern in any case, and the rest. -/
def matchWord : (word : List Char) → List Char → Option (List Char × List Char)
  | [], cs => some ([], cs)
  | _, [] => none
  | w :: ws, c :: cs =>
    if patternLetter c == w then (matchWord ws cs).map fun (m, rest) => (c :: m, rest) else none

/-- The front of a text that names an API key, with an underscore, a hyphen or nothing between the
two words. -/
def matchApiKey (cs : List Char) : Option (List Char × List Char) :=
  (matchWord "api".toList cs).bind fun (api, rest) =>
    let (joint, rest) :=
      match rest with
      | '_' :: r => (['_'], r)
      | '-' :: r => (['-'], r)
      | r => ([], r)
    (matchWord "key".toList rest).map fun (key, rest) => (api ++ joint ++ key, rest)

/-- The names of secrets in assignments, besides the API key. -/
def secretNames : List String :=
  ["token", "password", "secret", "client_secret", "authorization"]

/-- The front of a text that names a secret. -/
def matchSecretName (cs : List Char) : Option (List Char × List Char) :=
  match matchApiKey cs with
  | some m => some m
  | none => secretNames.findSome? fun name => matchWord name.toList cs

/-- A character of the value of an assignment. -/
def isValueChar (c : Char) : Bool := !Text.isBlank c && c != ',' && c != ';'

/-- An assignment to the name of a secret at the front of a text, given the character before it:
what takes its place, and what follows it. Blanks around the sign of assignment go. -/
def matchAssignment (before : Option Char) (cs : List Char) : Option (List Char × List Char) :=
  if !Text.isBoundary before cs.head? then none
  else (matchSecretName cs).bind fun (name, rest) =>
    if !Text.isBoundary name.getLast? rest.head? then none
    else
      match rest.dropWhile Text.isBlank with
      | sign :: rest =>
        if sign == ':' || sign == '=' then
          let rest := rest.dropWhile Text.isBlank
          if (rest.takeWhile isValueChar).isEmpty then none
          else some (name ++ [sign] ++ mask.toList, rest.dropWhile isValueChar)
        else none
      | [] => none

/-- A character of a bearer token. -/
def isTokenChar (c : Char) : Bool :=
  Text.isAsciiLetter (patternLetter c) || Text.isAsciiDigit c ||
    ['.', '_', '~', '+', '/', '-'].contains c

/-- A bearer token at the front of a text, given the character before it: what takes its place, and
what follows it. -/
def matchBearer (before : Option Char) (cs : List Char) : Option (List Char × List Char) :=
  if !Text.isBoundary before cs.head? then none
  else (matchWord "bearer".toList cs).bind fun (_, rest) =>
    let token := rest.dropWhile Text.isBlank
    if (rest.takeWhile Text.isBlank).isEmpty || (token.takeWhile isTokenChar).isEmpty then none
    else some ("Bearer ".toList ++ mask.toList,
      (token.dropWhile isTokenChar).dropWhile (· == '='))

/-- A text with every match of a pattern replaced, from left to right. `before` is the character
read last, and `skip` counts the characters that belong to the last match. -/
def replaceAll (pattern : Option Char → List Char → Option (List Char × List Char)) :
    (before : Option Char) → (skip : Nat) → List Char → List Char
  | _, _, [] => []
  | _, skip + 1, c :: cs => replaceAll pattern (some c) skip cs
  | before, 0, c :: cs =>
    match pattern before (c :: cs) with
    | some (replacement, rest) =>
      replacement ++ replaceAll pattern (some c) (cs.length - rest.length) cs
    | none => c :: replaceAll pattern (some c) 0 cs

/-- A text with its secrets masked: assignments first, then bearer tokens (spec §10). -/
def redactText (s : String) : String :=
  String.ofList (replaceAll matchBearer none 0 (replaceAll matchAssignment none 0 s.toList))

/-- Whether a key of a nested dictionary is sensitive. -/
def isSensitiveKey : Value → Bool
  | .str key => isSensitive key
  | _ => false

mutual

/-- A value with its secrets masked. Tuples are left as they are (spec §10). -/
def redactValue (v : Value) : Value :=
  match v with
  | .str s => .str (redactText s)
  | .list items _ => .list (redactItems items) none
  | .dict entries => .dict (redactEntries entries)
  | other => other
termination_by structural v

/-- The items of a list with their secrets masked. -/
def redactItems (vs : List Value) : List Value :=
  match vs with
  | [] => []
  | v :: vs => redactValue v :: redactItems vs
termination_by structural vs

/-- An entry of a nested dictionary with its secrets masked. -/
def redactEntry (e : Value × Value) : Value × Value :=
  match e with
  | (k, v) => (k, if isSensitiveKey k then .str mask else redactValue v)
termination_by structural e

/-- The entries of a nested dictionary with their secrets masked. -/
def redactEntries (es : List (Value × Value)) : List (Value × Value) :=
  match es with
  | [] => []
  | e :: es => redactEntry e :: redactEntries es
termination_by structural es

end

/-- The keys that speak about the field that an event names. -/
def fieldKeys : List String := ["reason", "value"]

/-- Whether an event is about a field whose name speaks of a secret (spec §10). -/
def namesSensitiveField (event : List (Value × Value)) : Bool :=
  match Value.lookup? "field" event with
  | some (.str name) => isSensitive name
  | _ => false

/-- The value under a key of an event with its secrets masked. A key that is no text cannot be
judged, unless it is null (spec §10). -/
def redactUnder (sensitiveField : Bool) (key v : Value) : Except Fault Value :=
  match key with
  | .str "event" => .ok (match v with
    | .str s => .str (redactText s)
    | other => other)
  | .str k =>
    if (sensitiveField && fieldKeys.contains k) || isSensitive k then .ok (.str mask)
    else .ok (redactValue v)
  | .null => .ok (redactValue v)
  | .bytes _ => .error (.type .textInBytes)
  | other => .error (.attribute (.ofInstance other.fullTypeName "lower"))

/-- The entries of an event with their secrets masked. -/
def redactAll (sensitiveField : Bool) : List (Value × Value) → Except Fault (List (Value × Value))
  | [] => .ok []
  | (k, v) :: rest => do
    let v ← redactUnder sensitiveField k v
    let rest ← redactAll sensitiveField rest
    return (k, v) :: rest

/-- An event with its secrets masked (spec §10). -/
def redactEvent (event : List (Value × Value)) : Except Fault (List (Value × Value)) :=
  redactAll (namesSensitiveField event) event

end SchemaBinding.Log
