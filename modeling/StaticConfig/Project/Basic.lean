import StaticConfig.Project.Sources
import StaticConfig.Source.Parser

/-!
# Projects

The modules that are reachable from some entries, each under its normal path, with the files that
their specifiers mean; and the top-level declarations of a module.
-/

namespace StaticConfig

/-- A module of a project. -/
structure SourceFile where
  path : Path
  text : String
  module : Module
  /-- The files that its local specifiers mean. -/
  targets : List (String × Path)

/-- A specifier that means no file. -/
structure Unresolved where
  specifier : String
  importer : Path
deriving DecidableEq

/-- The wording of a warning. -/
def Unresolved.message (warning : Unresolved) : String :=
  "unable to resolve import '" ++ warning.specifier ++ "' from " ++ warning.importer.text

/-- A loaded project: its files in the order in which they were loaded, no two under one path. -/
structure Project where
  files : List SourceFile
  /-- The place of each file among the files, by its path. -/
  byPath : List (Path × Nat)
  warnings : List Unresolved
  /-- The index leads to every file under its path, and to nothing else. -/
  indexed : ∀ path place,
    byPath.lookup path = some place ↔ (files[place]?).map (·.path) = some path

/-- Why a project cannot be loaded, or a declaration not be found in it. -/
inductive ProjectFault
  | unreadable (path : Path) (cause : FileFault)
  /-- A text that is no module, with the place of its first fault. -/
  | malformed (path : Path) (place : LineColumn) (fault : SourceFault)
  /-- A file, as the caller spells it, that is not part of the project. -/
  | unknownFile (spelling : String)
  /-- A file, as the caller spells it, that does not declare a name. -/
  | undeclared (name spelling : String)

/-- The wording of what is wrong with a text. -/
def SourceFault.message : SourceFault → String
  | nesting _ => "nesting exceeds " ++ toString maxNesting ++ " levels"
  | unexpected _ => "unexpected token"

/-- The wording of a project fault. -/
def ProjectFault.message : ProjectFault → String
  | unreadable path cause => "failed to read " ++ path.text ++ ": " ++ cause.message
  | malformed path place fault =>
    path.text ++ ":" ++ toString place.line ++ ":" ++ toString place.column ++ ": " ++
      fault.message
  | unknownFile spelling => "file " ++ spelling ++ " is not part of the project"
  | undeclared name spelling =>
    "no top-level declaration named \x60" ++ name ++ "\x60 in " ++ spelling

/-! ### Declarations of a module -/

namespace Declarator

/-- Whether the declarator binds a name. -/
def binds (declarator : Declarator) (name : String) : Bool := declarator.name? == some name

end Declarator

namespace ModuleItem

/-- The variables of a top-level variable statement, exported or not. -/
def declarators? : ModuleItem → Option (List Declarator)
  | .statement (.declares _ declarators) | .exported (.declares _ declarators) =>
    some declarators
  | _ => none

/-- The specifier of an import or re-export that exists when the module runs. -/
def runtimeSource? : ModuleItem → Option String
  | .imports false source _ => some source
  | .exportAll false source => some source
  | .exports false source _ => source
  | _ => none

end ModuleItem

namespace Module

/-- The first top-level variable of a name. -/
def declarator? (m : Module) (name : String) : Option Declarator :=
  (m.items.flatMap fun item => item.declarators?.getD []).find? (·.binds name)

/-- The specifiers of runtime imports and re-exports, in order. -/
def runtimeSources (m : Module) : List String := m.items.filterMap ModuleItem.runtimeSource?

end Module

namespace Project

/-- The project without any files. -/
def empty : Project where
  files := []
  byPath := []
  warnings := []
  indexed _ _ := by simp

/-- The project with one more file. -/
def add (project : Project) (file : SourceFile) (warnings : List Unresolved)
    (fresh : project.byPath.lookup file.path = none) : Project where
  files := project.files ++ [file]
  byPath := (file.path, project.files.length) :: project.byPath
  warnings := project.warnings ++ warnings
  indexed path place := by
    -- A place is that of a file from before, that of the new file, or that of none.
    rcases Nat.lt_trichotomy place project.files.length with hplace | hplace | hplace
    · rw [List.getElem?_append_left hplace, ← project.indexed path place]
      by_cases hpath : path = file.path
      · simp [hpath, fresh, Nat.ne_of_gt hplace]
      · rw [List.lookup_cons, beq_eq_false_iff_ne.2 hpath]
    · subst hplace
      have hnone := mt (project.indexed path project.files.length).1 (by simp)
      by_cases hpath : path = file.path
      · simp [hpath]
      · rw [List.lookup_cons, beq_eq_false_iff_ne.2 hpath]
        simp [hnone, Ne.symm hpath]
    · have hnone := mt (project.indexed path place).1 (by simp [Nat.le_of_lt hplace])
      rw [List.getElem?_eq_none (by rw [List.length_append]; exact hplace)]
      by_cases hpath : path = file.path
      · simp [hpath, Nat.ne_of_lt hplace]
      · rw [List.lookup_cons, beq_eq_false_iff_ne.2 hpath]
        simp [hnone]

/-- The file at a normal path. -/
def fileAt? (project : Project) (path : Path) : Option SourceFile :=
  (project.byPath.lookup path).bind (project.files[·]?)

theorem fileAt?_eq_some_iff {project : Project} {path : Path} {file : SourceFile} :
    project.fileAt? path = some file ↔ file ∈ project.files ∧ file.path = path := by
  unfold fileAt?
  rw [Option.bind_eq_some_iff, List.mem_iff_getElem?]
  constructor
  · rintro ⟨place, hindex, hfile⟩
    have hpath := (project.indexed path place).1 hindex
    rw [hfile] at hpath
    exact ⟨⟨place, hfile⟩, Option.some.inj hpath⟩
  · rintro ⟨⟨place, hfile⟩, rfl⟩
    refine ⟨place, (project.indexed file.path place).2 ?_, hfile⟩
    rw [hfile]
    rfl

/-- The file at a path, however it is spelled. -/
def file? (project : Project) (spelling : String) : Option SourceFile :=
  project.fileAt? (Path.ofText spelling).normalize

/-- The file that a specifier in `file` means, if it was loaded. -/
def target? (project : Project) (file : SourceFile) (specifier : String) : Option SourceFile :=
  (file.targets.lookup specifier).bind project.fileAt?

/-- The text of a span, if it lies in a file of the project. -/
def textAt? (project : Project) (span : Span) : Option String :=
  (project.fileAt? span.file).map fun file =>
    String.ofList ((file.text.toList.drop span.start).take (span.stop - span.start))

/-- The top-level variable of a name in a file. -/
def declaration (project : Project) (spelling name : String) : Except ProjectFault Declarator :=
  match project.file? spelling with
  | none => .error (.unknownFile spelling)
  | some file =>
    match file.module.declarator? name with
    | some declarator => .ok declarator
    | none => .error (.undeclared name spelling)

end Project

end StaticConfig
