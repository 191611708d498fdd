import StaticConfig.Path

/-!
# Sources

The files that a project can be loaded from: finitely many texts under normal paths, and for every
other path the reason why nothing can be read there.
-/

namespace StaticConfig

/-- Why a file cannot be read or written. -/
inductive FileFault
  /-- The sources hold no such path. -/
  | noSource
  | noEntry
  | isDirectory
  | notDirectory
  /-- A cause of the file system in its own words. -/
  | system (message : String)
deriving DecidableEq

/-- The wording of a file fault. -/
def FileFault.message : FileFault → String
  | noSource => "no such in-memory source"
  | noEntry => "No such file or directory (os error 2)"
  | notDirectory => "Not a directory (os error 20)"
  | isDirectory => "Is a directory (os error 21)"
  | system message => message

/-- What a project can be loaded from. -/
structure Sources where
  /-- The texts with their normal paths. -/
  files : List (Path × String)
  /-- Why nothing can be read at any other path. -/
  whyMissing : Path → FileFault

namespace Sources

/-- The text at a normal path. -/
def text? (sources : Sources) (path : Path) : Option String := sources.files.lookup path

/-- Reads the text at a normal path. -/
def read (sources : Sources) (path : Path) : Except FileFault String :=
  match sources.text? path with
  | some text => .ok text
  | none => .error (sources.whyMissing path)

/-- Sources in memory, under any spelling of their paths; of two texts under one path the later
counts. -/
def ofList (files : List (String × String)) : Sources where
  files := (files.map fun (path, text) => ((Path.ofText path).normalize, text)).reverse
  whyMissing _ := .noSource

end Sources

end StaticConfig
