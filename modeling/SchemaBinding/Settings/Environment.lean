import SchemaBinding.Number.Numeral
import SchemaBinding.Settings.Basic
import SchemaBinding.Text.Blank
import SchemaBinding.Text.LowerCase
import SchemaBinding.Text.Sorted
import SchemaBinding.Text.UpperCase
import SchemaBinding.Issue

/-!
# Settings from the environment

Each setting may be given by a variable of the environment. Its text is read as the type that the
setting has by default, blanks around it aside; the first text that cannot be read, in the order of
the settings' names, is an issue.

Specification: §11.
-/

namespace SchemaBinding.Settings

/-- The variable that gives a setting (spec §11). -/
def variableOf (setting : String) : String := "JSONBIND_" ++ Text.upper setting

/-- The words for true. -/
def trueWords : List String := ["1", "true", "t", "yes", "y", "on"]

/-- The words for false. -/
def falseWords : List String := ["0", "false", "f", "no", "n", "off"]

/-- The value that the text of a variable stands for, in the type of a setting's default
(spec §11). -/
def readVariable (name : String) (default : Value) (text : String) : Except Issue Value :=
  let text := Text.strip text
  match default with
  | .bool _ =>
    let word := Text.lower text
    if trueWords.contains word then .ok (.bool true)
    else if falseWords.contains word then .ok (.bool false)
    else .error ⟨name, "must be a boolean (true/false/1/0/yes/no/on/off)"⟩
  | .int _ =>
    match Numeral.int? text with
    | some i => .ok (.int i)
    | none => .error ⟨name, "must be an integer"⟩
  | _ => .ok (.str text)

/-- The settings that variables give, in the order of their names (spec §11). -/
def environmentLayer (environ : List (String × String)) : Except Issue (List (Value × Value)) :=
  (Text.sorted names).foldlM (fun layer setting =>
    let name := variableOf setting
    match environ.find? fun v => v.1 == name with
    | none => .ok layer
    | some (_, text) => do
      let v ← readVariable name (default.get setting) text
      return layer ++ [(.str setting, v)]) []

end SchemaBinding.Settings
