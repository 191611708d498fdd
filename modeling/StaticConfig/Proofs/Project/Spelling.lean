import StaticConfig.Project.Spelling
import StaticConfig.Proofs.Path.Spelling
import StaticConfig.Proofs.Project.Locality

/-!
# Spellings that name one file

A file may be named by any spelling of its path. Two spellings name one file, wherever a caller may
give one, exactly if they have the same normal form, and a project stores nothing but normal forms.

- `Sources.readAt_insert`, `Sources.has_insert`: what a spelling leads to;
- `NameOneFile`: the places where a spelling may be given;
- `nameOneFile_iff`: it is the normal form that counts there;
- `normal_forms_name_files`: normal forms, joins and what a load stores.
-/

namespace StaticConfig

/-- The fault with another spelling of the file that it is about. -/
def ProjectFault.respelled (spelling : String) : ProjectFault → ProjectFault
  | unknownFile _ => unknownFile spelling
  | undeclared name _ => undeclared name spelling
  | unreadable path cause => unreadable path cause
  | malformed path place fault => malformed path place fault

/-! ### What a spelling leads to -/

namespace Sources

/-- What was put in under a spelling is read under all spellings with its normal form, and only
there. -/
theorem readAt_insert (sources : Sources) (s t text : String) :
    (sources.insert s text).readAt t =
      if (Path.ofText t).normalize = (Path.ofText s).normalize then .ok text
      else sources.readAt t := by
  unfold readAt read text? insert
  rw [List.lookup_cons]
  by_cases h : (Path.ofText t).normalize = (Path.ofText s).normalize
  · rw [if_pos h, beq_iff_eq.2 h]
  · rw [if_neg h, beq_eq_false_iff_ne.2 h]

theorem has_insert (sources : Sources) (s t text : String) :
    (sources.insert s text).has t =
      (decide ((Path.ofText t).normalize = (Path.ofText s).normalize) || sources.has t) := by
  unfold has text? insert
  rw [List.lookup_cons]
  by_cases h : (Path.ofText t).normalize = (Path.ofText s).normalize
  · simp [h]
  · simp [h, beq_eq_false_iff_ne.2 h]

end Sources

namespace Project

/-- The targets that a load records are normal paths. -/
theorem isNormal_of_mem_targets {sources : Sources} {entries : List String} {project : Project}
    (hload : load sources entries = .ok project) {file : SourceFile} (hfile : file ∈ project.files)
    {target : String × Path} (htarget : target ∈ file.targets) : target.2.IsNormal := by
  rw [load_eq_outcome, outcome_eq_ok_iff] at hload
  have hlinked := (invariants_of_run hload).1
  rw [hlinked.targets file hfile] at htarget
  exact isNormal_of_mem_candidatePaths (List.mem_of_find?_eq_some (mem_targetsOf htarget).2)

end Project

/-! ### Spellings that name one file -/

/-- Two spellings name one file: wherever a caller gives one, the other one does the same, and only
a fault that repeats the spelling tells them apart. -/
structure NameOneFile (s t : String) : Prop where
  entry : ∀ (sources : Sources) (before after : List String),
    Project.load sources (before ++ s :: after) = Project.load sources (before ++ t :: after)
  insert : ∀ (sources : Sources) (text : String), sources.insert s text = sources.insert t text
  readAt : ∀ sources : Sources, sources.readAt s = sources.readAt t
  has : ∀ sources : Sources, sources.has s = sources.has t
  file : ∀ project : Project, project.file? s = project.file? t
  module : ∀ project : Project,
    project.moduleAt s = (project.moduleAt t).mapError (.respelled s)
  declaration : ∀ (project : Project) (name : String),
    project.declaration s name = (project.declaration t name).mapError (.respelled s)

theorem nameOneFile_iff {s t : String} :
    NameOneFile s t ↔ (Path.ofText s).normalize = (Path.ofText t).normalize := by
  constructor
  · intro h
    -- A text that was put in under the one spelling is there under the other one.
    have hthere := h.has (Sources.empty.insert t "")
    rw [Sources.has_insert, Sources.has_insert, decide_eq_true rfl, Bool.true_or] at hthere
    rcases Bool.or_eq_true_iff.1 hthere with hsame | hempty
    · exact of_decide_eq_true hsame
    · cases hempty
  · intro h
    have hfile (project : Project) : project.file? s = project.file? t := by
      rw [Project.file?, Project.file?, h]
    have hmodule (project : Project) :
        project.moduleAt s = (project.moduleAt t).mapError (.respelled s) := by
      rw [Project.moduleAt, Project.moduleAt, hfile]
      cases project.file? t <;> rfl
    constructor
    case entry =>
      intro sources before after
      simp only [Project.load, List.map_append, List.map_cons, h]
    case insert => exact fun sources text => by rw [Sources.insert, Sources.insert, h]
    case readAt => exact fun sources => by rw [Sources.readAt, Sources.readAt, h]
    case has => exact fun sources => by rw [Sources.has, Sources.has, h]
    case file => exact hfile
    case module => exact hmodule
    case declaration =>
      intro project name
      rw [Project.declaration_eq_bind, Project.declaration_eq_bind, hmodule]
      cases project.moduleAt t with
      | error fault => rfl
      | ok m =>
        simp only [Except.mapError, Except.bind]
        cases m.declarator? name <;> rfl

/-- **Normal forms name files.** A normal form is its own, as a path and when it is spelled and read
again, and going on along a relative path is the same from a path and from its normal form. Two
spellings name one file wherever a caller may give one exactly if they have the same normal form;
putting in a text then changes what is read under these spellings and no others. All paths under
which a load stores files, and all that it records as what a specifier means, are their own normal
forms. -/
theorem normal_forms_name_files :
    (∀ p : Path, p.normalize.normalize = p.normalize) ∧
    (∀ p next : Path, next.rooted = false →
      (p.join next).normalize = (p.normalize.join next).normalize) ∧
    (∀ s t, NameOneFile s t ↔ (Path.ofText s).normalize = (Path.ofText t).normalize) ∧
    (∀ s, NameOneFile s (Path.ofText s).normalize.text) ∧
    (∀ s next, (Path.ofText next).rooted = false →
      NameOneFile (Path.extend s next) (Path.extend (Path.ofText s).normalize.text next)) ∧
    (∀ (sources : Sources) (s t text : String), (sources.insert s text).readAt t =
      if (Path.ofText t).normalize = (Path.ofText s).normalize then .ok text
      else sources.readAt t) ∧
    ∀ (sources : Sources) (entries : List String) (project : Project),
      Project.load sources entries = .ok project →
        (∀ path place, project.byPath.lookup path = some place → path.normalize = path) ∧
        ∀ file ∈ project.files, file.path.normalize = file.path ∧
          ∀ target ∈ file.targets, target.2.normalize = target.2 := by
  have hrespell (s : String) : (Path.ofText (Path.ofText s).normalize.text).normalize =
      (Path.ofText s).normalize := Path.normalize_ofText_text s
  refine ⟨Path.isNormal_normalize, fun p next => p.normalize_join, fun _ _ => nameOneFile_iff,
    fun s => nameOneFile_iff.2 (hrespell s).symm, fun s next hnext => nameOneFile_iff.2 ?_,
    Sources.readAt_insert, fun sources entries project hload => ?_⟩
  · rw [Path.normalize_extend, Path.normalize_extend, Path.normalize_join (Path.ofText s) hnext,
      Path.normalize_join (Path.ofText (Path.ofText s).normalize.text) hnext, hrespell]
  · have hnormal : ∀ file ∈ project.files, file.path.normalize = file.path :=
      (loaded_of_load hload).2.normal
    refine ⟨fun path place hindex => ?_, fun file hfile => ⟨hnormal file hfile, fun target =>
      Project.isNormal_of_mem_targets hload hfile⟩⟩
    obtain ⟨file, hfile, rfl⟩ := Project.lookup_byPath_iff.1 hindex
    exact hnormal file (List.mem_of_getElem? hfile)

/-! ### A path that goes into a directory and out again -/

namespace Detour

def files : List (String × String) := [("./src/../main.ts", "export const x = true;")]

/-- The file is found without the detour, and loaded under the path that is its own normal form. -/
theorem normal_forms_name_files_detour :
    (Path.ofText "lib/a.ts").rooted = false ∧
      NameOneFile (Path.extend "./src/.." "lib/a.ts")
        (Path.extend (Path.ofText "./src/..").normalize.text "lib/a.ts") ∧
      NameOneFile "./src/../main.ts" "main.ts" ∧
      ∃ project, Project.load (.ofList files) ["main.ts"] = .ok project ∧
        ∀ file ∈ project.files, file.path.normalize = file.path := by
  obtain ⟨-, -, hsame, -, hextend, -, hload⟩ := normal_forms_name_files
  have hrelative : (Path.ofText "lib/a.ts").rooted = false := by decide
  have hmodules : ∀ file ∈ files,
      (parseSource (Path.ofText file.1).normalize (withoutMark file.2)).isOk := by decide +kernel
  obtain ⟨project, hproject⟩ : ∃ project, Project.load (.ofList files) ["main.ts"] = .ok project :=
    Project.exists_load hmodules (by decide)
  refine ⟨hrelative, hextend _ _ hrelative, (hsame _ _).2 (by decide), project, hproject, ?_⟩
  exact fun file hfile => ((hload _ _ project hproject).2 file hfile).1

end Detour

end StaticConfig
