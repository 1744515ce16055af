/-!
# Issues

What a validation finds, one issue for each offence: the dotted path of the place and a message.

Specification: §7.
-/

namespace SchemaBinding

/-- One finding of a validation (spec §7). -/
structure Issue where
  /-- Where, as names joined by dots. -/
  path : String
  /-- What is wrong there. -/
  message : String
deriving DecidableEq, Repr

namespace Issue

/-- The path of a key below a path; the empty path is the root. -/
def join (path key : String) : String :=
  if path.isEmpty then key else path ++ "." ++ key

/-- Issues as lines of a message. -/
def render (issues : List Issue) : String :=
  if issues.isEmpty then "unknown validation failure"
  else "\n".intercalate (issues.map fun i => "- " ++ i.path ++ ": " ++ i.message)

end Issue

end SchemaBinding
