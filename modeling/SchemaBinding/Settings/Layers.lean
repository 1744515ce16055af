import SchemaBinding.Settings.Environment
import SchemaBinding.Settings.File
import SchemaBinding.Settings.Validation

/-!
# Layers of settings

Effective settings come in layers: what is given by a caller goes before the environment, the
environment before the file, the file before the defaults. Each layer is validated on its own, in
the order in which they are laid over one another, and the first that is invalid ends the loading.

Specification: §11.
-/

namespace SchemaBinding.Settings

/-- The settings that a file, the environment and a caller make of the defaults (spec §11). -/
def combine (file : Value) (environ : List (String × String)) (given : List (Value × Value)) :
    Except Fault Settings := do
  let s ← require .default file
  match environmentLayer environ with
  | .error issue => throw (.settings [issue])
  | .ok layer =>
    let s ← require s (.dict layer)
    require s (.dict given)

/-- Loads the effective settings, with the file at a path in a directory or, without a path, one of
those that are looked for there (spec §11). -/
def load (d : Directory) (path : Option String) (environ : List (String × String))
    (given : List (Value × Value)) : Except Fault Settings := do
  combine (← fileLayer d path) environ given

end SchemaBinding.Settings
