import SchemaBinding.Fault
import SchemaBinding.Settings.Basic
import SchemaBinding.Text.Sorted
import SchemaBinding.Text.Blank
import SchemaBinding.Text.UpperCase

/-!
# Validating settings

A payload of settings is laid over settings that hold otherwise. Every offending key gives one
issue, unknown keys first and in order, and any issue at all means that there is no result.

Specification: §11.
-/

namespace SchemaBinding.Settings

/-- The version of the settings that is understood. -/
def schemaVersion : Int := 1

/-- The admissible log levels (spec §11). -/
def logLevels : List String := ["DEBUG", "INFO", "WARNING", "ERROR"]

/-- The admissible log formats (spec §11). -/
def logFormats : List String := ["json", "text"]

/-- The keys that a payload may have. -/
def keys : List String := "schema_version" :: names

/-- An issue that a value has the wrong type. -/
def wrongType (path expected : String) (v : Value) : Issue :=
  ⟨path, "expected " ++ expected ++ ", got " ++ v.typeName⟩

/-- A value that is a boolean (spec §11). -/
def readBool (path : String) : Value → Except Issue Value
  | .bool b => .ok (.bool b)
  | v => .error (wrongType path "boolean" v)

/-- A value that is a positive integer (spec §11). -/
def readPositive (path : String) : Value → Except Issue Value
  | .int i => if 1 ≤ i then .ok (.int i) else .error ⟨path, "must be >= 1"⟩
  | v => .error (wrongType path "integer" v)

/-- A value that is one of some texts, blanks around it aside (spec §11). -/
def readChoice (path : String) (allowed : List String) : Value → Except Issue Value
  | .str s =>
    let choice := Text.strip s
    if allowed.contains choice then .ok (.str choice)
    else .error ⟨path, "invalid value " ++ Text.quoted choice ++ "; expected one of: " ++
      ", ".intercalate allowed⟩
  | v => .error (wrongType path "string" v)

/-- A value that is the version understood. -/
def readVersion (path : String) (v : Value) : Except Issue Value :=
  match readPositive path v with
  | .ok (.int i) =>
    if i = schemaVersion then .ok (.int i)
    else .error ⟨path, "unsupported schema version " ++ toString i ++ "; expected " ++
      toString schemaVersion⟩
  | .ok v => .ok v
  | .error issue => .error issue

/-- A text in upper case; other values are kept. -/
def upperCase : Value → Value
  | .str s => .str (Text.upper s)
  | v => v

/-- The value that a key stands for, normalised, or what is wrong with it (spec §11). -/
def readKey (key : String) (v : Value) : Except Issue Value :=
  if key == "schema_version" then readVersion key v
  else if key == "strict_requiredness" then readBool key v
  else if key == "max_depth" then readPositive key v
  else if key == "log_level" then readChoice key logLevels (upperCase v)
  else if key == "log_format" then readChoice key logFormats v
  else readBool key v

/-- The keys of a payload that mean nothing, in order (spec §11). -/
def unknownKeys (entries : List (Value × Value)) : List Issue :=
  ((Text.sorted (entries.map fun e => e.1.words)).filter fun k => !keys.contains k).map
    fun k => ⟨k, "unknown field"⟩

/-- Lays the values of some keys of a payload over settings and gathers what is wrong with them
(spec §11). -/
def overlay (entries : List (Value × Value)) (keys : List String) (base : Settings) :
    Settings × List Issue :=
  keys.foldl (fun (acc : Settings × List Issue) key =>
    match Value.lookup? key entries with
    | none => acc
    | some v =>
      match readKey key v with
      | .ok v => (acc.1.set key v, acc.2)
      | .error issue => (acc.1, acc.2 ++ [issue])) (base, [])

/-- What a validation gives (spec §11). -/
structure Validation where
  /-- The settings, unless there are issues. -/
  settings : Option Settings
  /-- The issues, in order. -/
  issues : List Issue

/-- Whether the payload was valid. -/
def Validation.isValid (v : Validation) : Bool := v.settings.isSome && v.issues.isEmpty

/-- Whether the words of every issue about a payload can be written: its keys can be shown, and so
can a version that is not supported. -/
def showable (entries : List (Value × Value)) : Bool :=
  entries.all (fun e => e.1.printable) &&
    ((Value.lookup? "schema_version" entries).all fun v =>
      match v with
      | .int i => i < 1 || Value.intPrintable i
      | _ => true)

/-- Validates a payload over settings that hold otherwise (spec §11). -/
def validate (base : Settings) (payload : Value) : Except Fault Validation :=
  match payload with
  | .dict entries =>
    if !showable entries then .error (.value .digits)
    else
      let (settings, issues) := overlay entries keys base
      let all := unknownKeys entries ++ issues
      .ok ⟨if all.isEmpty then some settings else none, all⟩
  | v => .ok ⟨none, [wrongType rootField "object" v]⟩

/-- The settings that a payload makes of others, if it is valid (spec §11). -/
def require (base : Settings) (payload : Value) : Except Fault Settings := do
  let v ← validate base payload
  match v.settings with
  | some s => return s
  | none => throw (.settings v.issues)

end SchemaBinding.Settings
