import Mathlib.Logic.Relation
import Mathlib.Order.Lattice.Nat
import StaticConfig.Project.Load
import StaticConfig.Proofs.Path.Normal

/-!
# Loading is a breadth-first search

What a load yields is told by the sources alone: the files that the entries reach along imports,
nearer ones first, each linked to what its specifiers mean.

- `LoadStep`: one step of a load, skipping a path or reading a file; steps cannot go on for ever
  (`wellFounded_loadStep`), and the load is the run of them (`outcome_eq_ok_iff`);
- `Linked`: every file is read off the sources, and its specifiers are mapped or reported;
- `Frontier`: the waiting paths are a rest of one level of the search and a part of the next one,
  everything nearer is loaded, and what a loaded file imports is loaded or waits;
- `Project.load_correct`: what the invariants come to when nothing waits any more.
-/

namespace StaticConfig

/-! ### What a module requires -/

/-- An item of a module requires another module when it runs: it is an import or a re-export, and
not one of types only. -/
inductive ModuleItem.Requires : ModuleItem → String → Prop
  | imports {source : String} {specifiers : List ImportSpecifier} :
      Requires (.imports false source specifiers) source
  | exportAll {source : String} : Requires (.exportAll false source) source
  | exports {source : String} {specifiers : List ExportSpecifier} :
      Requires (.exports false (some source) specifiers) source

/-- A specifier points into the project: it is written as a relative or an absolute path. -/
def PointsInside (specifier : String) : Prop :=
  ∃ rest, specifier = "./" ++ rest ∨ specifier = "../" ++ rest ∨ specifier = "/" ++ rest

/-- A module requires a file of the project under a specifier. -/
def Module.Requires (m : Module) (specifier : String) : Prop :=
  (∃ item ∈ m.items, item.Requires specifier) ∧ PointsInside specifier

theorem ModuleItem.runtimeSource?_eq_some_iff {item : ModuleItem} {specifier : String} :
    item.runtimeSource? = some specifier ↔ item.Requires specifier := by
  constructor
  · intro h
    unfold runtimeSource? at h
    split at h
    · obtain rfl := Option.some.inj h
      exact .imports
    · obtain rfl := Option.some.inj h
      exact .exportAll
    · subst h
      exact .exports
    · cases h
  · rintro (_ | _ | _) <;> rfl

theorem isPrefixOf_toList_iff {start specifier : String} :
    start.toList.isPrefixOf specifier.toList ↔ ∃ rest, specifier = start ++ rest := by
  rw [List.isPrefixOf_iff_prefix]
  constructor
  · rintro ⟨rest, hrest⟩
    exact ⟨String.ofList rest, by simp [← String.toList_inj, hrest]⟩
  · rintro ⟨rest, rfl⟩
    exact ⟨rest.toList, (String.toList_append ..).symm⟩

theorem isLocalSpecifier_iff {specifier : String} :
    isLocalSpecifier specifier ↔ PointsInside specifier := by
  simp only [isLocalSpecifier, List.any_cons, List.any_nil, Bool.or_false, Bool.or_eq_true,
    isPrefixOf_toList_iff, PointsInside, exists_or]

/-- The specifiers that a load follows are those under which the module requires a file. -/
theorem mem_localSpecifiers_iff {m : Module} {specifier : String} :
    specifier ∈ m.localSpecifiers ↔ m.Requires specifier := by
  simp only [Module.localSpecifiers, Module.runtimeSources, List.mem_filter, List.mem_filterMap,
    ModuleItem.runtimeSource?_eq_some_iff, isLocalSpecifier_iff, Module.Requires]

/-! ### What the sources say -/

namespace Sources

variable (sources : Sources)

/-- Whether a file is served. -/
def serves (path : Path) : Bool := (sources.text? path).isSome

/-- The file that a specifier means: the first served one of those that it may mean. -/
def target? (importer : Path) (specifier : String) : Option Path :=
  (candidatePaths importer specifier).find? sources.serves

/-- A file imports another one if a specifier under which it requires a file means that one. -/
def Imports (path target : Path) : Prop :=
  ∃ text m specifier, sources.text? path = some text ∧
    parseSource path (withoutMark text) = .ok m ∧ m.Requires specifier ∧
      sources.target? path specifier = some target

/-- The paths that are that many imports away from an entry, not necessarily at the least. -/
inductive ReachedIn (entries : List Path) : Nat → Path → Prop
  | entry {path : Path} : path ∈ entries → ReachedIn entries 0 path
  | step {n : Nat} {path target : Path} :
      ReachedIn entries n path → sources.Imports path target → ReachedIn entries (n + 1) target

/-- The least number of imports from an entry to a path. -/
noncomputable def distance (entries : List Path) (path : Path) : Nat :=
  sInf {n | sources.ReachedIn entries n path}

variable {sources}

theorem distance_le {entries : List Path} {path : Path} {n : Nat}
    (h : sources.ReachedIn entries n path) : sources.distance entries path ≤ n :=
  Nat.sInf_le h

theorem le_distance {entries : List Path} {path : Path} {n m : Nat}
    (h : sources.ReachedIn entries n path)
    (hleast : ∀ k, sources.ReachedIn entries k path → m ≤ k) :
    m ≤ sources.distance entries path :=
  hleast _ (Nat.sInf_mem (s := {k | sources.ReachedIn entries k path}) ⟨n, h⟩)

theorem isNormal_of_target? {importer path : Path} {specifier : String}
    (h : sources.target? importer specifier = some path) : path.IsNormal :=
  isNormal_of_mem_candidatePaths (List.mem_of_find?_eq_some h)

/-- Entries are normal, and so is everything that specifiers mean. -/
theorem ReachedIn.isNormal {entries : List Path} (hentries : ∀ path ∈ entries, path.IsNormal)
    {n : Nat} {path : Path} (h : sources.ReachedIn entries n path) : path.IsNormal := by
  cases h with
  | entry hmem => exact hentries path hmem
  | step _ himports =>
    obtain ⟨_, _, _, _, _, _, htarget⟩ := himports
    exact isNormal_of_target? htarget

end Sources

/-! ### The targets of a module -/

section Targets

variable {isThere : Path → Bool} {path : Path} {specifiers : List String}

theorem mem_targetsOf {specifier : String} {target : Path}
    (h : (specifier, target) ∈ (targetsOf isThere path specifiers).1) :
    specifier ∈ specifiers ∧ (candidatePaths path specifier).find? isThere = some target := by
  induction specifiers with
  | nil => cases h
  | cons first rest ih =>
    have hrest (h : (specifier, target) ∈ (targetsOf isThere path rest).1) :
        specifier ∈ first :: rest ∧
          (candidatePaths path specifier).find? isThere = some target :=
      ⟨List.mem_cons_of_mem _ (ih h).1, (ih h).2⟩
    unfold targetsOf at h
    dsimp only at h
    split at h
    · rename_i found hfound
      rcases List.mem_cons.1 h with hfirst | h
      · obtain ⟨rfl, rfl⟩ := Prod.mk.inj hfirst
        exact ⟨List.mem_cons_self, hfound⟩
      · exact hrest (List.mem_of_mem_filter h)
    · exact hrest h

theorem lookup_filter_ne {key other : String} (hne : key ≠ other) (entries : List (String × Path)) :
    (entries.filter (·.1 != other)).lookup key = entries.lookup key := by
  induction entries with
  | nil => rfl
  | cons entry rest ih =>
    obtain ⟨name, value⟩ := entry
    by_cases hname : name = other
    · subst hname
      rw [List.filter_cons_of_neg (by simp), List.lookup_cons, beq_eq_false_iff_ne.2 hne, ih]
    · rw [List.filter_cons_of_pos (by simpa using hname), List.lookup_cons, List.lookup_cons, ih]

/-- A specifier is mapped to the file that it means, however often it occurs. -/
theorem lookup_targetsOf (isThere : Path → Bool) (path : Path) (specifiers : List String)
    (specifier : String) :
    (targetsOf isThere path specifiers).1.lookup specifier =
      if specifier ∈ specifiers then (candidatePaths path specifier).find? isThere else none := by
  induction specifiers with
  | nil => rfl
  | cons first rest ih =>
    unfold targetsOf
    dsimp only
    by_cases hfirst : specifier = first
    · subst hfirst
      rw [if_pos List.mem_cons_self]
      split
      · rename_i target htarget
        rw [List.lookup_cons_self, htarget]
      · rename_i hnone
        rw [ih, hnone, ite_self]
    · have hmem : specifier ∈ first :: rest ↔ specifier ∈ rest := by
        rw [List.mem_cons, or_iff_right hfirst]
      simp only [hmem]
      split
      · rw [List.lookup_cons, beq_eq_false_iff_ne.2 hfirst, lookup_filter_ne hfirst, ih]
      · exact ih

/-- A specifier that means no file is reported. -/
theorem warning_mem_targetsOf {specifier : String} (hmem : specifier ∈ specifiers)
    (hnone : (candidatePaths path specifier).find? isThere = none) :
    ⟨specifier, path⟩ ∈ (targetsOf isThere path specifiers).2 := by
  induction specifiers with
  | nil => cases hmem
  | cons first rest ih =>
    unfold targetsOf
    dsimp only
    rcases List.mem_cons.1 hmem with rfl | hmem
    · rw [hnone]
      exact List.mem_cons_self
    · split
      · exact ih hmem
      · exact List.mem_cons_of_mem _ (ih hmem)

end Targets

/-! ### Files of a project -/

namespace Project

variable {project : Project}

theorem lookup_byPath_iff {path : Path} {place : Nat} :
    project.byPath.lookup path = some place ↔
      ∃ file, project.files[place]? = some file ∧ file.path = path := by
  rw [project.indexed, Option.map_eq_some_iff]

theorem isLoaded_iff {path : Path} :
    project.isLoaded path ↔ ∃ file ∈ project.files, file.path = path := by
  simp only [isLoaded, Option.isSome_iff_exists, lookup_byPath_iff, List.mem_iff_getElem?]
  constructor
  · rintro ⟨place, file, hfile, hpath⟩
    exact ⟨file, ⟨place, hfile⟩, hpath⟩
  · rintro ⟨file, ⟨place, hfile⟩, hpath⟩
    exact ⟨place, file, hfile, hpath⟩

/-- No two files stand under one path, since the index leads to one place only. -/
theorem nodup_paths (project : Project) : (project.files.map (·.path)).Nodup := by
  rw [List.nodup_iff_injective_getElem]
  intro ⟨place, hplace⟩ ⟨other, hother⟩ hsame
  rw [List.length_map] at hplace hother
  have hlookup (i : Nat) (hi : i < project.files.length) :
      project.byPath.lookup project.files[i].path = some i :=
    lookup_byPath_iff.2 ⟨_, List.getElem?_eq_getElem hi, rfl⟩
  have hpaths : project.files[place].path = project.files[other].path := by
    simpa only [List.getElem_map] using hsame
  have hplaces := hlookup other hother
  rw [← hpaths, hlookup place hplace] at hplaces
  exact Fin.ext (Option.some.inj hplaces)

end Project

/-! ### Steps of a load -/

/-- A load under way: what is loaded, and the paths whose turn is still to come. -/
structure Loading where
  project : Project
  waiting : List Path

/-- One step of a load: the first path that waits is skipped if it is loaded, and read otherwise. -/
inductive LoadStep (sources : Sources) : Loading → Loading → Prop
  | skip {project : Project} {path : Path} {rest : List Path} :
      project.isLoaded path → LoadStep sources ⟨project, path :: rest⟩ ⟨project, rest⟩
  | read {project : Project} {path : Path} {rest : List Path} {text : String} {m : Module}
      {targets : List (String × Path)} {warnings : List Unresolved}
      (fresh : project.byPath.lookup path = none) :
      sources.text? path = some text → parseSource path (withoutMark text) = .ok m →
      targetsOf (project.isThere sources) path m.localSpecifiers = (targets, warnings) →
      LoadStep sources ⟨project, path :: rest⟩
        ⟨project.add ⟨path, withoutMark text, m, targets⟩ warnings fresh,
          rest ++ targets.map (·.2)⟩

namespace Loading

/-- Before the first step only the entries wait. -/
def start (entries : List Path) : Loading := ⟨.empty, entries⟩

/-- How the load ends from here. -/
def outcome (sources : Sources) (load : Loading) : Except ProjectFault Project :=
  Project.loadInto sources load.project load.waiting

end Loading

variable {sources : Sources}

/-- A step either loads one more of the sources or takes a path off the queue, so there is no
infinite run of steps. -/
theorem wellFounded_loadStep (sources : Sources) :
    WellFounded fun next now => LoadStep sources now next := by
  refine Subrelation.wf ?_ (InvImage.wf
    (fun load : Loading => (load.project.unloaded sources, load.waiting.length))
    (Prod.lex Nat.lt_wfRel Nat.lt_wfRel).wf)
  intro next now hstep
  cases hstep with
  | skip => exact Prod.Lex.right _ (Nat.lt_succ_self _)
  | read fresh htext => exact Prod.Lex.left _ _ (Project.unloaded_add_lt fresh htext)

/-- A step does not change how the load ends. -/
theorem LoadStep.outcome_eq {now next : Loading} (h : LoadStep sources now next) :
    now.outcome sources = next.outcome sources := by
  cases h with
  | @skip project path rest hloaded =>
    have hstale : project.byPath.lookup path ≠ none := by
      intro hnone
      simp [Project.isLoaded, hnone] at hloaded
    unfold Loading.outcome
    conv => lhs; unfold Project.loadInto
    dsimp only
    rw [dif_neg hstale]
  | @read project path rest text m targets warnings fresh htext hparse htargets =>
    unfold Loading.outcome
    conv => lhs; unfold Project.loadInto
    dsimp only
    rw [dif_pos fresh]
    split
    · rename_i hnone
      rw [htext] at hnone
      cases hnone
    · rename_i source hsource
      rw [htext] at hsource
      obtain rfl := Option.some.inj hsource
      simp only [hparse, htargets]

/-- Where there is no further step, the load yields a project only if nothing waits any more: the
first path that waits can neither be skipped nor read. -/
theorem outcome_of_no_step {last : Loading} (h : ∀ next, ¬LoadStep sources last next)
    {project : Project} : last.outcome sources = .ok project ↔ last = ⟨project, []⟩ := by
  obtain ⟨loaded, waiting⟩ := last
  unfold Loading.outcome Project.loadInto
  cases waiting with
  | nil => simp
  | cons path rest =>
    have hwaiting : (⟨loaded, path :: rest⟩ : Loading) ≠ ⟨project, []⟩ := by simp
    dsimp only
    by_cases fresh : loaded.byPath.lookup path = none
    · rw [dif_pos fresh]
      split
      · exact iff_of_false (fun hok => by cases hok) hwaiting
      · rename_i text htext
        cases hparse : parseSource path (withoutMark text) with
        | error fault => exact iff_of_false (fun hok => by cases hok) hwaiting
        | ok m => exact absurd (.read fresh htext hparse rfl) (h _)
    · exact absurd (.skip (Option.isSome_iff_ne_none.2 fresh)) (h _)

/-- Every load comes to an end. -/
theorem exists_last_step (sources : Sources) (now : Loading) :
    ∃ last, Relation.ReflTransGen (LoadStep sources) now last ∧
      ∀ next, ¬LoadStep sources last next := by
  induction now using (wellFounded_loadStep sources).induction with
  | _ now ih =>
    by_cases hstep : ∃ next, LoadStep sources now next
    · obtain ⟨next, hnext⟩ := hstep
      obtain ⟨last, hrun, hlast⟩ := ih next hnext
      exact ⟨last, .head hnext hrun, hlast⟩
    · exact ⟨now, .refl, not_exists.1 hstep⟩

theorem outcome_eq_of_run {now last : Loading}
    (h : Relation.ReflTransGen (LoadStep sources) now last) :
    now.outcome sources = last.outcome sources := by
  induction h with
  | refl => rfl
  | tail _ hstep ih => rw [ih, hstep.outcome_eq]

/-- A load yields a project if its steps end there with nothing left waiting. -/
theorem outcome_eq_ok_iff {now : Loading} {project : Project} :
    now.outcome sources = .ok project ↔
      Relation.ReflTransGen (LoadStep sources) now ⟨project, []⟩ := by
  constructor
  · intro h
    obtain ⟨last, hrun, hlast⟩ := exists_last_step sources now
    rw [outcome_eq_of_run hrun, outcome_of_no_step hlast] at h
    rwa [h] at hrun
  · intro hrun
    rw [outcome_eq_of_run hrun, Loading.outcome, Project.loadInto]

/-! ### Files are linked -/

/-- Every file of the project is what the sources say it is, and the warnings tell of all its
specifiers that mean nothing. -/
structure Linked (sources : Sources) (project : Project) : Prop where
  text : ∀ file ∈ project.files, ∃ text, sources.text? file.path = some text ∧
    file.text = withoutMark text
  parsed : ∀ file ∈ project.files, parseSource file.path file.text = .ok file.module
  targets : ∀ file ∈ project.files,
    file.targets = (targetsOf sources.serves file.path file.module.localSpecifiers).1
  warned : ∀ file ∈ project.files,
    (targetsOf sources.serves file.path file.module.localSpecifiers).2 ⊆ project.warnings

theorem linked_empty (sources : Sources) : Linked sources .empty :=
  ⟨nofun, nofun, nofun, nofun⟩

/-- Whatever is loaded is served, so it makes no difference to a specifier which files have been
loaded before. -/
theorem Linked.isThere_eq {project : Project} (h : Linked sources project) :
    project.isThere sources = sources.serves := by
  funext path
  have hserved : project.isLoaded path → sources.serves path := by
    intro hloaded
    obtain ⟨file, hfile, rfl⟩ := Project.isLoaded_iff.1 hloaded
    obtain ⟨text, htext, -⟩ := h.text file hfile
    rw [Sources.serves, htext]
    rfl
  show (project.isLoaded path || sources.serves path) = sources.serves path
  cases hloaded : project.isLoaded path with
  | false => rfl
  | true => rw [hserved hloaded]; rfl

theorem Linked.step {now next : Loading} (h : Linked sources now.project)
    (hstep : LoadStep sources now next) : Linked sources next.project := by
  cases hstep with
  | skip => exact h
  | @read project path rest text m targets warnings fresh htext hparse htargets =>
    have hserves := h.isThere_eq
    dsimp only at hserves
    rw [hserves] at htargets
    have hfiles {file : SourceFile}
        (hfile : file ∈ project.files ++ [⟨path, withoutMark text, m, targets⟩]) :
        file ∈ project.files ∨ file = ⟨path, withoutMark text, m, targets⟩ := by
      simpa using hfile
    refine ⟨fun file hfile => ?_, fun file hfile => ?_, fun file hfile => ?_, fun file hfile => ?_⟩
    · rcases hfiles hfile with hold | rfl
      · exact h.text file hold
      · exact ⟨text, htext, rfl⟩
    · rcases hfiles hfile with hold | rfl
      · exact h.parsed file hold
      · exact hparse
    · rcases hfiles hfile with hold | rfl
      · exact h.targets file hold
      · rw [htargets]
    · rcases hfiles hfile with hold | rfl
      · exact List.subset_append_of_subset_left _ (h.warned file hold)
      · rw [htargets]
        exact List.subset_append_right _ _

/-- What a loaded file imports is what its targets are. -/
theorem Linked.imports_iff {project : Project} (h : Linked sources project) {file : SourceFile}
    (hfile : file ∈ project.files) {target : Path} :
    sources.Imports file.path target ↔ target ∈ file.targets.map (·.2) := by
  obtain ⟨text, htext, hread⟩ := h.text file hfile
  have hparse := h.parsed file hfile
  rw [hread] at hparse
  rw [h.targets file hfile, List.mem_map]
  constructor
  · rintro ⟨_, m, specifier, htext', hparse', hmem, htarget⟩
    rw [htext] at htext'
    obtain rfl := Option.some.inj htext'
    rw [hparse] at hparse'
    obtain rfl := Except.ok.inj hparse'
    have hlookup := lookup_targetsOf sources.serves file.path file.module.localSpecifiers specifier
    rw [if_pos (mem_localSpecifiers_iff.2 hmem)] at hlookup
    obtain ⟨before, after, hsplit, -⟩ := List.lookup_eq_some_iff.1 (hlookup.trans htarget)
    exact ⟨(specifier, target), by rw [hsplit]; simp, rfl⟩
  · rintro ⟨⟨specifier, _⟩, hmem, rfl⟩
    obtain ⟨hspecifier, htarget⟩ := mem_targetsOf hmem
    exact ⟨text, file.module, specifier, htext, hparse, mem_localSpecifiers_iff.1 hspecifier,
      htarget⟩

/-! ### Level by level -/

/-- The search at a level: the waiting paths of the level, and after them those of the next level
that have been found so far. -/
structure Frontier (sources : Sources) (entries : List Path) (project : Project) (level : Nat)
    (here beyond : List Path) : Prop where
  here_reached : ∀ path ∈ here, sources.ReachedIn entries level path
  beyond_reached : ∀ path ∈ beyond, sources.ReachedIn entries (level + 1) path
  nearer : ∀ n < level, ∀ path, sources.ReachedIn entries n path → project.isLoaded path
  complete : ∀ path, sources.ReachedIn entries level path → project.isLoaded path ∨ path ∈ here
  closed : ∀ file ∈ project.files, ∀ target, sources.Imports file.path target →
    project.isLoaded target ∨ target ∈ here ++ beyond
  reached : ∀ file ∈ project.files, ∃ n ≤ level, sources.ReachedIn entries n file.path
  sorted : project.files.Pairwise fun first second =>
    sources.distance entries first.path ≤ sources.distance entries second.path

section

variable {entries : List Path} {project : Project} {level : Nat}

theorem frontier_start (sources : Sources) (entries : List Path) :
    Frontier sources entries .empty 0 entries [] where
  here_reached _ h := .entry h
  beyond_reached := nofun
  nearer := nofun
  complete path h := by
    cases h with
    | entry hmem => exact .inr hmem
  closed := nofun
  reached := nofun
  sorted := .nil

/-- When no path of a level waits any more, the ones that do are all of the next level. -/
theorem Frontier.turn {beyond : List Path}
    (h : Frontier sources entries project level [] beyond) :
    Frontier sources entries project (level + 1) beyond [] where
  here_reached := h.beyond_reached
  beyond_reached := nofun
  nearer n hn path hreached := by
    rcases Nat.lt_succ_iff_lt_or_eq.1 hn with hlt | rfl
    · exact h.nearer n hlt path hreached
    · exact (h.complete path hreached).resolve_right List.not_mem_nil
  complete path hreached := by
    cases hreached with
    | step hbefore himports =>
      have hloaded := (h.complete _ hbefore).resolve_right List.not_mem_nil
      obtain ⟨file, hfile, rfl⟩ := Project.isLoaded_iff.1 hloaded
      exact h.closed file hfile path himports
  closed file hfile target himports := by
    rw [List.append_nil]
    exact h.closed file hfile target himports
  reached file hfile := by
    obtain ⟨n, hn, hreached⟩ := h.reached file hfile
    exact ⟨n, Nat.le_succ_of_le hn, hreached⟩
  sorted := h.sorted

/-- A path that is loaded need not wait. -/
theorem Frontier.skip {path : Path} {here beyond : List Path}
    (h : Frontier sources entries project level (path :: here) beyond)
    (hloaded : project.isLoaded path) :
    Frontier sources entries project level here beyond where
  here_reached other hmem := h.here_reached other (List.mem_cons_of_mem _ hmem)
  beyond_reached := h.beyond_reached
  nearer := h.nearer
  complete other hreached := by
    rcases h.complete other hreached with hdone | hmem
    · exact .inl hdone
    · rcases List.mem_cons.1 hmem with rfl | hmem
      · exact .inl hloaded
      · exact .inr hmem
  closed file hfile target himports := by
    rcases h.closed file hfile target himports with hdone | hmem
    · exact .inl hdone
    · rcases List.mem_cons.1 hmem with rfl | hmem
      · exact .inl hloaded
      · exact .inr hmem
  reached := h.reached
  sorted := h.sorted

/-- A path of the level that is not loaded yet is not any nearer than the level. -/
theorem Frontier.distance_eq {path : Path} {here beyond : List Path}
    (h : Frontier sources entries project level (path :: here) beyond)
    (fresh : ¬project.isLoaded path) : sources.distance entries path = level := by
  have hreached := h.here_reached path List.mem_cons_self
  refine Nat.le_antisymm (Sources.distance_le hreached) (Sources.le_distance hreached ?_)
  intro n hn
  by_contra hlt
  exact fresh (h.nearer n (Nat.lt_of_not_le hlt) path hn)

/-- Reading a path of the level: its imports are of the next level at most. -/
theorem Frontier.read {file : SourceFile} {warnings : List Unresolved} {here beyond : List Path}
    (h : Frontier sources entries project level (file.path :: here) beyond)
    (fresh : project.byPath.lookup file.path = none)
    (himports : ∀ target, sources.Imports file.path target ↔ target ∈ file.targets.map (·.2)) :
    Frontier sources entries (project.add file warnings fresh) level here
      (beyond ++ file.targets.map (·.2)) := by
  have hreached := h.here_reached file.path List.mem_cons_self
  have hunloaded : ¬project.isLoaded file.path := by
    simp [Project.isLoaded, fresh]
  have hfiles {other : SourceFile} (hother : other ∈ project.files ++ [file]) :
      other ∈ project.files ∨ other = file := by
    simpa using hother
  have hloaded {path : Path} (hpath : project.isLoaded path ∨ path = file.path) :
      (project.add file warnings fresh).isLoaded path := by
    rw [Project.isLoaded_add]
    simpa [or_comm] using hpath
  constructor
  case here_reached => exact fun path hmem => h.here_reached path (List.mem_cons_of_mem _ hmem)
  case beyond_reached =>
    intro path hmem
    rcases List.mem_append.1 hmem with hmem | hmem
    · exact h.beyond_reached path hmem
    · exact .step hreached ((himports path).2 hmem)
  case nearer => exact fun n hn path hpath => hloaded (.inl (h.nearer n hn path hpath))
  case complete =>
    -- The path that is read waits no longer, but it is loaded.
    intro path hpath
    rcases h.complete path hpath with hdone | hmem
    · exact .inl (hloaded (.inl hdone))
    · rcases List.mem_cons.1 hmem with hsame | hmem
      · exact .inl (hloaded (.inr hsame))
      · exact .inr hmem
  case closed =>
    intro other hother target htarget
    rw [← List.append_assoc, List.mem_append]
    rcases hfiles hother with hold | rfl
    · rcases h.closed other hold target htarget with hdone | hmem
      · exact .inl (hloaded (.inl hdone))
      · rcases List.mem_cons.1 hmem with hsame | hmem
        · exact .inl (hloaded (.inr hsame))
        · exact .inr (.inl hmem)
    · exact .inr (.inr ((himports target).1 htarget))
  case reached =>
    intro other hother
    rcases hfiles hother with hold | rfl
    · exact h.reached other hold
    · exact ⟨level, Nat.le_refl level, hreached⟩
  case sorted =>
    refine List.pairwise_append.2 ⟨h.sorted, List.pairwise_singleton _ _, ?_⟩
    intro other hother last hlast
    -- The file that is read comes last, and no file before it is further away.
    obtain rfl := List.mem_singleton.1 hlast
    obtain ⟨n, hn, hbefore⟩ := h.reached other hother
    rw [h.distance_eq hunloaded]
    exact (Sources.distance_le hbefore).trans hn

end

/-- A load that is somewhere on its breadth-first search. -/
def OnFrontier (sources : Sources) (entries : List Path) (load : Loading) : Prop :=
  ∃ level here beyond, load.waiting = here ++ beyond ∧
    Frontier sources entries load.project level here beyond

/-- The first path that waits is of the level, of this one or the next. -/
theorem OnFrontier.first {entries : List Path} {project : Project} {path : Path} {rest : List Path}
    (h : OnFrontier sources entries ⟨project, path :: rest⟩) :
    ∃ level here beyond, rest = here ++ beyond ∧
      Frontier sources entries project level (path :: here) beyond := by
  obtain ⟨level, here, beyond, hwaiting, hfrontier⟩ := h
  cases here with
  | cons first here =>
    obtain ⟨rfl, rfl⟩ := List.cons_eq_cons.1 hwaiting
    exact ⟨level, here, beyond, rfl, hfrontier⟩
  | nil =>
    obtain rfl : path :: rest = beyond := hwaiting
    exact ⟨level + 1, rest, [], (List.append_nil rest).symm, hfrontier.turn⟩

theorem OnFrontier.step {entries : List Path} {now next : Loading}
    (h : OnFrontier sources entries now) (hlinked : Linked sources now.project)
    (hstep : LoadStep sources now next) : OnFrontier sources entries next := by
  have hnext := hlinked.step hstep
  cases hstep with
  | skip hloaded =>
    obtain ⟨level, here, beyond, hrest, hfrontier⟩ := h.first
    exact ⟨level, here, beyond, hrest, hfrontier.skip hloaded⟩
  | @read project path rest text m targets warnings fresh _ _ _ =>
    obtain ⟨level, here, beyond, rfl, hfrontier⟩ := h.first
    have hread : ⟨path, withoutMark text, m, targets⟩ ∈
        (project.add ⟨path, withoutMark text, m, targets⟩ warnings fresh).files :=
      List.mem_append_right _ List.mem_cons_self
    refine ⟨level, here, beyond ++ targets.map (·.2), List.append_assoc .., ?_⟩
    exact hfrontier.read fresh fun target => hnext.imports_iff hread

/-- Both invariants hold all along a load. -/
theorem invariants_of_run {entries : List Path} {now : Loading}
    (hrun : Relation.ReflTransGen (LoadStep sources) (.start entries) now) :
    Linked sources now.project ∧ OnFrontier sources entries now := by
  induction hrun with
  | refl =>
    exact ⟨linked_empty sources,
      0, entries, [], (List.append_nil entries).symm, frontier_start sources entries⟩
  | tail _ hstep ih => exact ⟨ih.1.step hstep, ih.2.step ih.1 hstep⟩

/-! ### What a load yields -/

/-- A project that is what the sources say about the entries. -/
structure Project.LoadedFrom (sources : Sources) (entries : List Path) (project : Project) :
    Prop where
  distinct : (project.files.map (·.path)).Nodup
  normal : ∀ file ∈ project.files, file.path.IsNormal
  /-- The files are those that the entries reach. -/
  reached : ∀ path, (∃ file ∈ project.files, file.path = path) ↔
    ∃ n, sources.ReachedIn entries n path
  /-- The index leads to every file under its path, and nowhere else. -/
  index : ∀ path place, project.byPath.lookup path = some place ↔
    ∃ file, project.files[place]? = some file ∧ file.path = path
  /-- Nearer files come first. -/
  breadthFirst : project.files.Pairwise fun first second =>
    sources.distance entries first.path ≤ sources.distance entries second.path
  read : ∀ file ∈ project.files, ∃ text, sources.text? file.path = some text ∧
    file.text = withoutMark text ∧ parseSource file.path file.text = .ok file.module
  /-- A specifier under which a file requires another one leads to the loaded file that it means,
  or is reported. -/
  resolved : ∀ file ∈ project.files, ∀ specifier, file.module.Requires specifier →
    (∃ target, project.target? file specifier = some target ∧
      sources.target? file.path specifier = some target.path) ∨
    (sources.target? file.path specifier = none ∧ ⟨specifier, file.path⟩ ∈ project.warnings)

section

variable {entries : List Path} {project : Project}

/-- When nothing waits, every path of every level is loaded. -/
theorem Frontier.isLoaded {level : Nat} (h : Frontier sources entries project level [] [])
    {n : Nat} {path : Path} (hreached : sources.ReachedIn entries n path) :
    project.isLoaded path := by
  induction hreached with
  | entry hmem =>
    rcases Nat.eq_zero_or_pos level with rfl | hpos
    · exact (h.complete _ (.entry hmem)).resolve_right List.not_mem_nil
    · exact h.nearer 0 hpos _ (.entry hmem)
  | step _ himports ih =>
    obtain ⟨file, hfile, rfl⟩ := Project.isLoaded_iff.1 ih
    exact (h.closed file hfile _ himports).resolve_right List.not_mem_nil

theorem Linked.lookup_targets (h : Linked sources project) {file : SourceFile}
    (hfile : file ∈ project.files) {specifier : String}
    (hspecifier : specifier ∈ file.module.localSpecifiers) :
    file.targets.lookup specifier = sources.target? file.path specifier := by
  rw [h.targets file hfile, lookup_targetsOf, if_pos hspecifier]
  rfl

theorem Linked.resolved (h : Linked sources project)
    (hclosed : ∀ file ∈ project.files, ∀ target, sources.Imports file.path target →
      project.isLoaded target)
    {file : SourceFile} (hfile : file ∈ project.files) {specifier : String}
    (hrequires : file.module.Requires specifier) :
    (∃ target, project.target? file specifier = some target ∧
      sources.target? file.path specifier = some target.path) ∨
    (sources.target? file.path specifier = none ∧ ⟨specifier, file.path⟩ ∈ project.warnings) := by
  have hspecifier := mem_localSpecifiers_iff.2 hrequires
  have hlookup := h.lookup_targets hfile hspecifier
  cases htarget : sources.target? file.path specifier with
  | none => exact .inr ⟨rfl, h.warned file hfile (warning_mem_targetsOf hspecifier htarget)⟩
  | some path =>
    obtain ⟨text, htext, hread⟩ := h.text file hfile
    have hparse := h.parsed file hfile
    rw [hread] at hparse
    obtain ⟨target, hmem, rfl⟩ := Project.isLoaded_iff.1 <|
      hclosed file hfile path ⟨text, file.module, specifier, htext, hparse, hrequires, htarget⟩
    refine .inl ⟨target, ?_, rfl⟩
    rw [Project.target?, hlookup, htarget]
    exact Project.fileAt?_eq_some_iff.2 ⟨hmem, rfl⟩

/-- What the invariants come to at the end of a load. -/
theorem loadedFrom_of_run (hentries : ∀ path ∈ entries, path.IsNormal)
    (hrun : Relation.ReflTransGen (LoadStep sources) (.start entries) ⟨project, []⟩) :
    project.LoadedFrom sources entries := by
  obtain ⟨hlinked, level, here, beyond, hwaiting, hfrontier⟩ := invariants_of_run hrun
  obtain ⟨rfl, rfl⟩ := List.append_eq_nil_iff.1 hwaiting.symm
  have hclosed (file : SourceFile) (hfile : file ∈ project.files) (target : Path)
      (himports : sources.Imports file.path target) : project.isLoaded target :=
    (hfrontier.closed file hfile target himports).resolve_right List.not_mem_nil
  constructor
  case distinct => exact project.nodup_paths
  case normal =>
    intro file hfile
    obtain ⟨n, -, hreached⟩ := hfrontier.reached file hfile
    exact hreached.isNormal hentries
  case reached =>
    intro path
    constructor
    · rintro ⟨file, hfile, rfl⟩
      obtain ⟨n, -, hreached⟩ := hfrontier.reached file hfile
      exact ⟨n, hreached⟩
    · rintro ⟨n, hreached⟩
      exact Project.isLoaded_iff.1 (hfrontier.isLoaded hreached)
  case index => exact fun path place => Project.lookup_byPath_iff
  case breadthFirst => exact hfrontier.sorted
  case read =>
    intro file hfile
    obtain ⟨text, htext, hread⟩ := hlinked.text file hfile
    exact ⟨text, htext, hread, hlinked.parsed file hfile⟩
  case resolved => exact fun file hfile specifier => hlinked.resolved hclosed hfile

end

/-- What entries reach is served if they are. -/
theorem Sources.ReachedIn.serves {entries : List Path}
    (hentries : ∀ path ∈ entries, sources.serves path) {n : Nat} {path : Path}
    (h : sources.ReachedIn entries n path) : sources.serves path := by
  cases h with
  | entry hmem => exact hentries path hmem
  | step _ himports =>
    obtain ⟨_, _, _, _, _, _, htarget⟩ := himports
    exact List.find?_some htarget

/-- Where all texts are modules, no load from what is served comes to a halt before its end. -/
theorem exists_outcome {entries : List Path} (hentries : ∀ path ∈ entries, sources.serves path)
    (hmodules : ∀ path text, sources.text? path = some text →
      (parseSource path (withoutMark text)).isOk) :
    ∃ project, (Loading.start entries).outcome sources = .ok project := by
  obtain ⟨⟨project, waiting⟩, hrun, hlast⟩ := exists_last_step sources (.start entries)
  refine ⟨project, ?_⟩
  rw [outcome_eq_of_run hrun, outcome_of_no_step hlast]
  cases waiting with
  | nil => rfl
  | cons path rest =>
    -- The first path that waits can be skipped or, since it is reached and so served, be read.
    obtain ⟨level, here, beyond, -, hfrontier⟩ := (invariants_of_run hrun).2.first
    by_cases hloaded : project.isLoaded path
    · exact absurd (.skip hloaded) (hlast _)
    · have hserves := (hfrontier.here_reached path List.mem_cons_self).serves hentries
      obtain ⟨text, htext⟩ := Option.isSome_iff_exists.1 hserves
      have hmodule := hmodules path text htext
      cases hparse : parseSource path (withoutMark text) with
      | error => rw [hparse] at hmodule; cases hmodule
      | ok m =>
        have fresh : project.byPath.lookup path = none := Option.not_isSome_iff_eq_none.1 hloaded
        exact absurd (.read fresh htext hparse rfl) (hlast _)

/-- The normal paths of entries as the caller spells them. -/
def entryPaths (entries : List String) : List Path :=
  entries.map fun entry => (Path.ofText entry).normalize

theorem isNormal_of_mem_entryPaths {entries : List String} {path : Path}
    (h : path ∈ entryPaths entries) : path.IsNormal := by
  obtain ⟨entry, -, rfl⟩ := List.mem_map.1 h
  exact Path.isNormal_normalize _

theorem Project.load_eq_outcome (sources : Sources) (entries : List String) :
    load sources entries = (Loading.start (entryPaths entries)).outcome sources := rfl

/-- **A load ends, and yields what the sources say.** No run of its steps goes on for ever; the one
from the entries ends in a state without further steps, and the load yields a project if and only
if that is the one with nothing left waiting. Its files are then, each under one normal path and
one place of the index, those that the entries reach, nearer ones first, and every specifier under
which one of them requires a file leads to the file that it means or is reported. -/
theorem Project.load_correct (sources : Sources) (entries : List String) :
    (WellFounded fun next now => LoadStep sources now next) ∧
    (∃ last, Relation.ReflTransGen (LoadStep sources) (.start (entryPaths entries)) last ∧
      (∀ next, ¬LoadStep sources last next) ∧
      ∀ project, load sources entries = .ok project ↔ last = ⟨project, []⟩) ∧
    ∀ project, load sources entries = .ok project →
      project.LoadedFrom sources (entryPaths entries) := by
  refine ⟨wellFounded_loadStep sources, ?_, fun project hload => ?_⟩
  · obtain ⟨last, hrun, hlast⟩ := exists_last_step sources (.start (entryPaths entries))
    refine ⟨last, hrun, hlast, fun project => ?_⟩
    rw [load_eq_outcome, outcome_eq_of_run hrun]
    exact outcome_of_no_step hlast
  · rw [load_eq_outcome, outcome_eq_ok_iff] at hload
    exact loadedFrom_of_run (fun _ => isNormal_of_mem_entryPaths) hload

end StaticConfig
