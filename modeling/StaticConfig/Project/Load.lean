import StaticConfig.Project.Basic
import StaticConfig.Project.Specifier

/-!
# Loading

`Project.load` reads the entries and, breadth first, every file that they reach through local
specifiers. A path may wait to be loaded more than once; it is skipped if it has been loaded when
its turn comes. The search ends because every step either loads one more of the finitely many
sources or takes a path off the queue.
-/

namespace StaticConfig

/-- Whether a path names a file whose expressions may be elements. -/
def allowsElements (path : Path) : Bool :=
  match path.extension? with
  | some extension => ["tsx", "jsx"].contains extension.toLower
  | none => false

/-- The text without a leading byte-order mark. -/
def withoutMark (text : String) : String :=
  match text.toList with
  | c :: rest => if c.toNat = 0xfeff then String.ofList rest else text
  | [] => text

/-- Parses the source at a path. -/
def parseSource (path : Path) (text : String) : Except ProjectFault Module :=
  match parseModule path (allowsElements path) text with
  | .ok m => .ok m
  | .error fault => .error (.malformed path (lineColumn text fault.pos) fault)

/-- The specifiers of runtime imports and re-exports that point into the project, in order. -/
def Module.localSpecifiers (m : Module) : List String := m.runtimeSources.filter isLocalSpecifier

/-- The files that the specifiers of a module mean, each specifier once, and the specifiers that
mean none, each time they occur. -/
def targetsOf (isThere : Path → Bool) (path : Path) :
    List String → List (String × Path) × List Unresolved
  | [] => ([], [])
  | specifier :: rest =>
    let (targets, warnings) := targetsOf isThere path rest
    match (candidatePaths path specifier).find? isThere with
    | some target => ((specifier, target) :: targets.filter (·.1 != specifier), warnings)
    | none => (targets, ⟨specifier, path⟩ :: warnings)

namespace Project

/-- Whether a file is loaded already. -/
def isLoaded (project : Project) (path : Path) : Bool := (project.byPath.lookup path).isSome

/-- Whether a file is part of the project or can become so. -/
def isThere (project : Project) (sources : Sources) (path : Path) : Bool :=
  project.isLoaded path || (sources.text? path).isSome

/-! ### How much is left to load -/

/-- How many sources are not yet loaded. -/
def unloaded (project : Project) (sources : Sources) : Nat :=
  (sources.files.filter fun source => !project.isLoaded source.1).length

theorem length_filter_lt {α : Type} {p q : α → Bool} {xs : List α}
    (sub : ∀ a ∈ xs, p a → q a) (more : ∃ a ∈ xs, q a ∧ ¬p a) :
    (xs.filter p).length < (xs.filter q).length := by
  rw [← List.countP_eq_length_filter, ← List.countP_eq_length_filter]
  obtain ⟨a, ha, hq, hp⟩ := more
  obtain ⟨before, after, rfl⟩ := List.append_of_mem ha
  have first : before.countP p ≤ before.countP q :=
    List.countP_mono_left fun b hb => sub b (by simp [hb])
  have last : after.countP p ≤ after.countP q :=
    List.countP_mono_left fun b hb => sub b (by simp [hb])
  simp only [List.countP_append, List.countP_cons, hp, hq, if_true]
  simp only [Bool.false_eq_true, if_false]
  omega

theorem isLoaded_add (project : Project) (file : SourceFile) (warnings : List Unresolved)
    (fresh : project.byPath.lookup file.path = none) (path : Path) :
    (project.add file warnings fresh).isLoaded path =
      (decide (path = file.path) || project.isLoaded path) := by
  simp only [isLoaded, add, List.lookup_cons]
  by_cases h : path = file.path
  · simp [h]
  · simp [h, beq_eq_false_iff_ne.2 h]

/-- Loading a source that was not loaded leaves fewer to load. -/
theorem unloaded_add_lt {project : Project} {sources : Sources} {file : SourceFile}
    {warnings : List Unresolved} {text : String} (fresh : project.byPath.lookup file.path = none)
    (found : sources.text? file.path = some text) :
    (project.add file warnings fresh).unloaded sources < project.unloaded sources := by
  obtain ⟨before, after, hfiles, _⟩ := List.lookup_eq_some_iff.1 found
  refine length_filter_lt (fun source _ => ?_) ⟨(file.path, text), by simp [hfiles], ?_, ?_⟩
  · simp only [isLoaded_add, Bool.not_or, Bool.and_eq_true]
    exact And.right
  · simp [isLoaded, fresh]
  · simp [isLoaded_add]

/-! ### Loading -/

/-- Loads the waiting paths and everything they reach into a project. -/
def loadInto (sources : Sources) (project : Project) (waiting : List Path) :
    Except ProjectFault Project :=
  match waiting with
  | [] => .ok project
  | path :: rest =>
    if fresh : project.byPath.lookup path = none then
      match _ : sources.text? path with
      | none => .error (.unreadable path (sources.whyMissing path))
      | some source =>
        let text := withoutMark source
        match parseSource path text with
        | .error fault => .error fault
        | .ok m =>
          let (targets, warnings) := targetsOf (project.isThere sources) path m.localSpecifiers
          loadInto sources (project.add ⟨path, text, m, targets⟩ warnings fresh)
            (rest ++ targets.map (·.2))
    else loadInto sources project rest
termination_by (project.unloaded sources, waiting.length)
decreasing_by
  · exact Prod.Lex.left _ _ (unloaded_add_lt fresh (by assumption))
  · exact Prod.Lex.right _ (Nat.lt_succ_self _)

/-- Loads the entries, however they are spelled, and everything they reach. -/
def load (sources : Sources) (entries : List String) : Except ProjectFault Project :=
  loadInto sources .empty (entries.map fun entry => (Path.ofText entry).normalize)

/-- The project of sources in memory, all of which are entries. -/
def ofSources (files : List (String × String)) : Except ProjectFault Project :=
  load (.ofList files) (files.map (·.1))

end Project

end StaticConfig
