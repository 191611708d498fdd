import StaticConfig.Project.Sources

/-!
# Working directories

A directory of text files as a value: projects are loaded from it and one file at a time is written
into it. A file stands under its normal path; directories are there as far as files are in them.
-/

namespace StaticConfig

/-- The text files below a directory. -/
structure Directory where
  files : List (Path × String)

/-- What a path leads to. -/
inductive Entry
  | file (text : String)
  | directory
  | nothing
deriving DecidableEq

namespace Directory

/-- Files under any spelling of their paths. -/
def ofList (files : List (String × String)) : Directory :=
  ⟨(files.map fun (path, text) => ((Path.ofText path).normalize, text)).reverse⟩

/-- Whether a file or directory lies below a path. -/
def holdsBelow (d : Directory) (path : Path) : Bool :=
  d.files.any fun (file, _) =>
    path.rooted == file.rooted && path.parts.isPrefixOf file.parts && path != file

/-- What a normal path leads to. The directory itself and those above it are always there. -/
def entry (d : Directory) (path : Path) : Entry :=
  match d.files.lookup path with
  | some text => .file text
  | none =>
    if path.parts.all (· == .up) || d.holdsBelow path then .directory else .nothing

/-- Whether a file stands where a directory would have to. -/
def isBlocked (d : Directory) (path : Path) : Bool :=
  d.files.any fun (file, _) =>
    path.rooted == file.rooted && file.parts.isPrefixOf path.parts && path != file

/-- Why no text can be read at a normal path. -/
def whyMissing (d : Directory) (path : Path) : FileFault :=
  if path = .empty then .noEntry
  else if d.entry path = .directory then .isDirectory
  else if d.isBlocked path then .notDirectory
  else .noEntry

/-- The files as sources of a project. -/
def sources (d : Directory) : Sources := ⟨d.files, d.whyMissing⟩

/-! ### Writing -/

/-- Follows the parts of a path from a directory on: the path of the entry, which need not be there
yet, or nothing if the path ends in a directory by itself. -/
def walk (d : Directory) (here : Path) : List PathPart → Except FileFault (Option Path)
  | [] => .ok none
  | .here :: rest => walk d here rest
  | .up :: rest => walk d here.above rest
  | .name name :: rest =>
    let next := here.child name
    if rest.isEmpty then .ok (some next)
    else match d.entry next with
      | .directory => walk d next rest
      | .file _ => .error .notDirectory
      | .nothing => .error .noEntry

/-- Puts a text under a normal path. -/
def put (d : Directory) (path : Path) (text : String) : Directory :=
  ⟨(path, text) :: d.files.filter (·.1 != path)⟩

/-- Writes a text to a file under a path, however it is spelled, creating the file if it is not
there. A trailing slash asks for a directory. -/
def write (d : Directory) (spelling text : String) : Except FileFault Directory := do
  if spelling.isEmpty then throw .noEntry
  let path := Path.ofText spelling
  match ← d.walk ⟨path.rooted, []⟩ path.parts with
  | none => throw .isDirectory
  | some file =>
    match d.entry file with
    | .directory => throw .isDirectory
    | found =>
      if spelling.toList.getLast? == some '/' then
        throw (if found = .nothing then .isDirectory else .notDirectory)
      return d.put file text

end Directory

end StaticConfig
