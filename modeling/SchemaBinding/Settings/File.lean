import SchemaBinding.Directory
import SchemaBinding.Settings.Basic
import SchemaBinding.Toml.Document

/-!
# Settings files

Settings are read from a TOML document, or from a section of the document that describes a whole
project. Without a path the first of both that is there is read, and if there is none there are no
settings.

Specification: §11.
-/

namespace SchemaBinding.Settings

/-- The name of a file of settings (spec §11). -/
def fileName : String := "jsonbind.toml"

/-- The name of a file in which the settings are a section (spec §11). -/
def projectFileName : String := "pyproject.toml"

/-- The path of the section (spec §11). -/
def sectionPath : List String := ["tool", "jsonbind"]

/-- A fault with a single issue. -/
def issueAt (path message : String) : Fault := .settings [⟨path, message⟩]

/-- The value that names lead to through dictionaries. -/
def below? : List String → Value → Option Value
  | [], v => some v
  | name :: path, .dict entries => (Value.lookup? name entries).bind (below? path)
  | _ :: _, _ => none

/-- The settings in the document of a file with the given name (spec §11). -/
def payloadOf (name : String) (document : Value) : Except Fault Value :=
  if name != projectFileName then .ok document
  else
    match below? sectionPath document with
    | none => .ok (.dict [])
    | some (.dict entries) => .ok (.dict entries)
    | some _ => .error (issueAt (".".intercalate sectionPath) "must be a table")

/-- The document that bytes hold; `shown` is the path that issues name (spec §11). -/
def documentOf (shown : String) (bytes : List UInt8) : Except Fault Value :=
  match Text.Utf8.decode bytes with
  | .error f => .error (.decode f)
  | .ok cs =>
    match Toml.read cs with
    | .ok v => .ok v
    | .error f => .error (f.toFault (issueAt shown "invalid TOML"))

/-- The settings in the file at a path (spec §11). -/
def readFile (d : Directory) (path : List String) : Except Fault Value := do
  let shown := d.shown path
  match d.read path with
  | .error f => throw (issueAt shown ("unable to read settings file: " ++ f.message shown))
  | .ok bytes => payloadOf (path.getLastD d.name) (← documentOf shown bytes)

/-- The settings in the file at a path, which must be there, or else in the first of the files that
are looked for (spec §11). -/
def fileLayer (d : Directory) (path : Option String) : Except Fault Value :=
  match path with
  | some path =>
    let path := Directory.resolved (Directory.components path)
    if d.holds path then readFile d path
    else .error (issueAt (d.shown path) "settings file not found")
  | none =>
    match [fileName, projectFileName].find? fun name => (d.file? [name]).isSome with
    | some name => readFile d [name]
    | none => .ok (.dict [])

end SchemaBinding.Settings
