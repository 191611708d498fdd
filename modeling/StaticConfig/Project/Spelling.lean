import StaticConfig.Project.Load

/-!
# Files by any spelling of their paths

Sources in memory are put in and read, and the modules of a project are found, under any spelling of
their paths. Only faults tell which spelling was given.
-/

namespace StaticConfig

namespace Sources

/-- No sources in memory. -/
def empty : Sources := ⟨[], fun _ => .noSource⟩

/-- The sources with a text under a path, in place of what was there. -/
def insert (sources : Sources) (spelling text : String) : Sources :=
  { sources with files := ((Path.ofText spelling).normalize, text) :: sources.files }

/-- Reads the text under a path. -/
def readAt (sources : Sources) (spelling : String) : Except FileFault String :=
  sources.read (Path.ofText spelling).normalize

/-- Whether there is a text under a path. -/
def has (sources : Sources) (spelling : String) : Bool :=
  (sources.text? (Path.ofText spelling).normalize).isSome

end Sources

namespace Project

/-- The module of a file. -/
def moduleAt (project : Project) (spelling : String) : Except ProjectFault Module :=
  match project.file? spelling with
  | some file => .ok file.module
  | none => .error (.unknownFile spelling)

/-- A declaration is looked for in the module of its file. -/
theorem declaration_eq_bind (project : Project) (spelling name : String) :
    project.declaration spelling name = (project.moduleAt spelling).bind fun m =>
      match m.declarator? name with
      | some declarator => .ok declarator
      | none => .error (.undeclared name spelling) := by
  unfold declaration moduleAt
  cases project.file? spelling <;> rfl

end Project

end StaticConfig
