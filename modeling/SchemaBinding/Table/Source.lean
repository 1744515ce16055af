import SchemaBinding.Directory
import SchemaBinding.Yaml.Document

/-!
# Sources of schema tables

A table is written as a YAML document, in a text or in a file. An empty document is a table without
schemas.

Specification: §12.
-/

namespace SchemaBinding.Table

/-- The table that a text holds; `source` is the path that issues name (spec §12). -/
def ofText (source : String) (cs : List Char) : Except Fault Value :=
  match Yaml.read cs with
  | .ok .null => .ok (.dict [])
  | .ok v => .ok v
  | .error f => .error (f.toFault (.table [⟨source, "invalid YAML"⟩]))

/-- A line feed for every carriage return, alone or with the line feed after it. -/
def unifyBreaks : List Char → List Char
  | '\r' :: '\n' :: rest => '\n' :: unifyBreaks rest
  | c :: rest => (if c == '\r' then '\n' else c) :: unifyBreaks rest
  | [] => []

/-- The table in the file that a path leads to (spec §12). -/
def ofFile (d : Directory) (path : String) : Except Fault Value :=
  let path := Directory.components path
  let shown := d.shown path
  match d.read path with
  | .error f => .error (.table [⟨shown, "unable to read schema table: " ++ f.message shown⟩])
  | .ok bytes =>
    match Text.Utf8.decode bytes with
    | .error f => .error (.decode f)
    | .ok cs => ofText shown (unifyBreaks cs)

end SchemaBinding.Table
