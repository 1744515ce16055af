import SchemaBinding.Fault
import SchemaBinding.Text.Blank
import SchemaBinding.Text.UpperCase

/-!
# Log levels and formats

A log level is a number, or a name for one in any case with blanks around it. Only the six named
numbers select a filter.

Specification: §10.
-/

namespace SchemaBinding.Log

/-- The names of levels. -/
def levelNames : List (String × Int) := [
  ("CRITICAL", 50), ("FATAL", 50), ("ERROR", 40), ("WARN", 30), ("WARNING", 30), ("INFO", 20),
  ("DEBUG", 10), ("NOTSET", 0)]

/-- The level that a value names (spec §10). -/
def parseLevel : Value → Except Fault Int
  | .int level => .ok level
  | .str s =>
    match levelNames.find? fun l => l.1 == Text.upper (Text.strip s) with
    | some l => .ok l.2
    | none => .error (.value (.level (Text.quoted s)))
  | v => .error (.value (.levelType v.typeName))

/-- The levels at which events are logged. -/
inductive EntryLevel where
  | debug
  | info
  | warning
  | error
  | critical
deriving DecidableEq, Repr

namespace EntryLevel

/-- The name of a level. -/
def name : EntryLevel → String
  | .debug => "debug"
  | .info => "info"
  | .warning => "warning"
  | .error => "error"
  | .critical => "critical"

/-- The number of a level. -/
def number : EntryLevel → Int
  | .debug => 10
  | .info => 20
  | .warning => 30
  | .error => 40
  | .critical => 50

/-- All levels, each with its name in the name of a filter. -/
def titles : List (EntryLevel × String) := [
  (.debug, "Debug"), (.info, "Info"), (.warning, "Warning"), (.error, "Error"),
  (.critical, "Critical")]

end EntryLevel

/-- The name of the filter that lets through events of a level and above. -/
def filterName (level : Int) : String :=
  "BoundLoggerFilteringAt" ++
    match EntryLevel.titles.find? fun l => l.1.number == level with
    | some l => l.2
    | none => "Notset"

/-- The formats of log lines. -/
inductive Format where
  | json
  | text
deriving DecidableEq, Repr

/-- The format that a value names (spec §10). -/
def parseFormat : Value → Except Fault Format
  | .str "json" => .ok .json
  | .str "text" => .ok .text
  | v =>
    if v.printable then .error (.value (.format v.text)) else .error (.value .digits)

/-- How events are filtered and written (spec §10). -/
structure Config where
  /-- Events of a lower level are dropped. -/
  level : Int
  /-- How lines are written. -/
  format : Format
  /-- Whether secrets are masked. -/
  redact : Bool
deriving DecidableEq, Repr

/-- The configuration with a level, a format and redaction switched on or off (spec §10). -/
def configure (level format : Value) (redact : Bool) : Except Fault Config := do
  let level ← parseLevel level
  let format ← parseFormat format
  if levelNames.any fun l => l.2 == level then return ⟨level, format, redact⟩
  else throw (.unknownLevel level)

end SchemaBinding.Log
