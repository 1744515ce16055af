import SchemaBinding.Fault

/-!
# Settings

The settings of the default registry, the default binder and the log. They are values, because they
come from files, the environment and callers; which of them are valid is a matter of validation.

Specification: §11.
-/

namespace SchemaBinding

/-- The settings (spec §11). -/
structure Settings where
  /-- Whether requiredness may be declared only once for a field. -/
  strictRequiredness : Value
  /-- How deep schemas may be nested. -/
  maxDepth : Value
  /-- The level below which events are dropped. -/
  logLevel : Value
  /-- How log lines are written. -/
  logFormat : Value
  /-- Whether secrets are masked in the log. -/
  redactLogs : Value

namespace Settings

/-- The settings that hold unless others are given (spec §11). -/
def default : Settings :=
  ⟨.bool false, .int 64, .str "WARNING", .str "text", .bool true⟩

/-- The names of the settings, in order. -/
def names : List String :=
  ["strict_requiredness", "max_depth", "log_level", "log_format", "redact_logs"]

/-- The values of the settings under their names, in order. -/
def toEntries (s : Settings) : List (String × Value) :=
  [("strict_requiredness", s.strictRequiredness), ("max_depth", s.maxDepth),
    ("log_level", s.logLevel), ("log_format", s.logFormat), ("redact_logs", s.redactLogs)]

/-- The settings as a dictionary. -/
def toValue (s : Settings) : Value := .dict (s.toEntries.map fun e => (.str e.1, e.2))

/-- The value of the setting of a name; an unknown name has none. -/
def get (s : Settings) (name : String) : Value :=
  ((s.toEntries.find? fun e => e.1 == name).map Prod.snd).getD .null

/-- Settings with the one of a name replaced; an unknown name changes nothing. -/
def set (s : Settings) (name : String) (v : Value) : Settings :=
  if name == "strict_requiredness" then { s with strictRequiredness := v }
  else if name == "max_depth" then { s with maxDepth := v }
  else if name == "log_level" then { s with logLevel := v }
  else if name == "log_format" then { s with logFormat := v }
  else if name == "redact_logs" then { s with redactLogs := v }
  else s

/-- The defaults with the settings of some names replaced. Every name must be known (spec §11). -/
def of (given : List (String × Value)) : Except Fault Settings :=
  match given.find? fun e => !names.contains e.1 with
  | some e => .error (.type (.unknownSetting e.1))
  | none => .ok (given.foldl (fun s e => s.set e.1 e.2) default)

end Settings

end SchemaBinding
