import SchemaBinding.Text.Quoted

/-!
# Directories

The files that settings and schema tables are read from. Paths are relative to a directory and are
lists of names; a file's path leads through directories that hold nothing else to be known of.

Specification: §11 and §12.
-/

namespace SchemaBinding

/-- A directory. -/
structure Directory where
  /-- The name under which messages show it. -/
  name : String
  /-- The files below it, with their paths. -/
  files : List (List String × List UInt8)

/-- Why a file cannot be read. -/
inductive FileFault where
  /-- Nothing is there. -/
  | missing
  /-- A file is in the way. -/
  | notDirectory
  /-- A directory is there. -/
  | isDirectory
deriving DecidableEq, Repr

/-- Why the file shown as `path` cannot be read, as words. -/
def FileFault.message (path : String) : FileFault → String
  | .missing => "[Errno 2] No such file or directory: " ++ Text.quoted path
  | .notDirectory => "[Errno 20] Not a directory: " ++ Text.quoted path
  | .isDirectory => "[Errno 21] Is a directory: " ++ Text.quoted path

namespace Directory

/-- The names on a path, without those that lead nowhere. -/
def components (path : String) : List String :=
  (path.splitOn "/").filter fun name => !name.isEmpty && name != "."

/-- A path in which each step up has been taken back with the step before. -/
def resolved (path : List String) : List String :=
  path.foldl (fun here name => if name == ".." then here.dropLast else here ++ [name]) []

/-- A path below the directory as it is shown. -/
def shown (d : Directory) (path : List String) : String := "/".intercalate (d.name :: path)

/-- The bytes of the file at a path. -/
def file? (d : Directory) (path : List String) : Option (List UInt8) :=
  (d.files.find? fun f => f.1 == path).map Prod.snd

/-- Whether there is a file or a directory at a path. -/
def holds (d : Directory) (path : List String) : Bool :=
  path.isEmpty || d.files.any fun f => path.isPrefixOf f.1

/-- The place that names lead to from a place, one by one. -/
def walk (d : Directory) : (here : List String) → List String → Except FileFault (List String)
  | here, [] => .ok here
  | here, name :: path =>
    if (d.file? here).isSome then .error .notDirectory
    else
      let next := if name == ".." then here.dropLast else here ++ [name]
      if d.holds next then d.walk next path else .error .missing

/-- The bytes of the file that a path leads to. -/
def read (d : Directory) (path : List String) : Except FileFault (List UInt8) :=
  match d.walk [] path with
  | .error f => .error f
  | .ok here =>
    match d.file? here with
    | some bytes => .ok bytes
    | none => .error .isDirectory

end Directory

end SchemaBinding
