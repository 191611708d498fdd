import StaticConfig.Extract
import StaticConfig.Proofs.Evaluation.Agreement
import StaticConfig.Proofs.Project.Loading
import StaticConfig.Proofs.Project.Search
import StaticConfig.Proofs.Source.Layout.Module
import StaticConfig.Proofs.Value.Record

/-!
# Other files do not matter

What a declaration evaluates to depends on its own file and on the files that it leads to, and
these are told by the sources alone. So it makes no difference from which entries a project was
loaded, in which order, or which other files came along.

- `Project.Overlap`: two projects that agree on the files they have in common;
- `Overlap.candidates_eq`, `Overlap.sharedAt_of_mem_candidates`: names in shared files find the same
  declarations in both, and these lie in shared files again;
- `Project.evaluate_eq_of_load`: loads from the same sources overlap, and so do not differ on the
  files that both have loaded.
-/

namespace StaticConfig

namespace Project

/-- A file that two projects have in common. -/
def Shared (left right : Project) (file : SourceFile) : Prop :=
  file ∈ left.files ∧ file ∈ right.files

/-- Two projects that agree on the files they have in common. -/
structure Overlap (left right : Project) : Prop where
  /-- No path leads to different files. -/
  same : ∀ file ∈ left.files, ∀ other ∈ right.files, file.path = other.path → file = other
  /-- A specifier of a shared file leads to the same file in both, or to none in both. -/
  target?_eq : ∀ file, Shared left right file → left.target? file = right.target? file
  /-- The files that a shared file leads to are shared. -/
  closed : ∀ file, Shared left right file → ∀ specifier target,
    left.target? file specifier = some target → Shared left right target
  /-- A shared file is laid out well, so that everything in it stands under its path. -/
  laid : ∀ file, Shared left right file → file.module.Laid file.path

/-- A place in a file that two projects have in common. -/
def SharedAt (left right : Project) (span : Span) : Prop :=
  ∃ file, Shared left right file ∧ file.path = span.file

/-- A shared place lies in the same file of both projects. -/
theorem SharedAt.fileAt?_eq {left right : Project} {span : Span} (h : SharedAt left right span) :
    ∃ file, Shared left right file ∧ left.fileAt? span.file = some file ∧
      right.fileAt? span.file = some file := by
  obtain ⟨file, hfile, hpath⟩ := h
  exact ⟨file, hfile, fileAt?_eq_some_iff.2 ⟨hfile.1, hpath⟩,
    fileAt?_eq_some_iff.2 ⟨hfile.2, hpath⟩⟩

theorem SharedAt.textAt?_eq {left right : Project} {span : Span} (h : SharedAt left right span) :
    left.textAt? span = right.textAt? span := by
  obtain ⟨file, -, hleft, hright⟩ := h.fileAt?_eq
  rw [textAt?, textAt?, hleft, hright]

namespace Overlap

variable {left right : Project} (h : Overlap left right)

include h

/-! ### Searches in shared files -/

section Search

variable {follow other : SourceFile → String → Search (List Node)}
variable (hfollow : ∀ target, Shared left right target → follow target = other target)
variable {file : SourceFile} (hfile : Shared left right file)

include hfollow hfile

theorem followTo_eq : left.followTo follow file = right.followTo other file := by
  funext specifier name
  unfold followTo
  rw [h.target?_eq file hfile]
  split
  · rename_i target htarget
    rw [hfollow target (h.closed file hfile specifier target (h.target?_eq file hfile ▸ htarget))]
  · rfl

theorem importCandidates_eq (source name : String) :
    left.importCandidates follow file source name =
      right.importCandidates other file source name := by
  funext specifier
  cases specifier with
  | named | defaultExport => simp only [importCandidates, h.followTo_eq hfollow hfile]
  | star => rfl

theorem itemCandidates_eq (name : String) :
    left.itemCandidates follow file name = right.itemCandidates other file name := by
  funext item
  unfold itemCandidates
  rw [show left.importCandidates follow file = right.importCandidates other file from
    funext₂ (h.importCandidates_eq hfollow hfile)]

theorem localCandidates_eq (name : String) :
    left.localCandidates follow file name = right.localCandidates other file name := by
  unfold localCandidates
  rw [h.itemCandidates_eq hfollow hfile]

theorem specifierCandidates_eq (source : Option String) (name : String) :
    left.specifierCandidates follow file source name =
      right.specifierCandidates other file source name := by
  funext specifier
  cases specifier with
  | named =>
    simp only [specifierCandidates, h.followTo_eq hfollow hfile,
      h.localCandidates_eq hfollow hfile]
  | star => rfl

theorem exportedByItem_eq (name : String) :
    left.exportedByItem follow file name = right.exportedByItem other file name := by
  funext item
  unfold exportedByItem
  rw [show left.specifierCandidates follow file = right.specifierCandidates other file from
    funext₂ (h.specifierCandidates_eq hfollow hfile), h.followTo_eq hfollow hfile]

end Search

/-- Searches never leave the shared files, so they come to the same under any bound. -/
theorem exportCandidates_eq (bound : Nat) :
    ∀ file, Shared left right file →
      left.exportCandidates bound file = right.exportCandidates bound file := by
  -- The rules ask the deeper searches about shared files only, where these agree by induction.
  induction bound with
  | zero => exact fun _ _ => rfl
  | succ bound ih =>
    intro file hfile
    funext name
    simp only [exportCandidates, h.exportedByItem_eq ih hfile]

/-! ### Places in shared files -/

/-- A name that occurs in a shared file may refer to the same declarations in both projects. The
projects bound their searches differently, but neither bound is ever what ends a search. -/
theorem candidates_eq {ident : Ident} (hident : SharedAt left right ident.span) :
    left.candidates ident = right.candidates ident := by
  obtain ⟨file, hfile, hleft, hright⟩ := hident.fileAt?_eq
  -- Raised to the sum of both bounds, the two searches are the same one.
  have hsame (bound : Nat) :
      left.localCandidates (left.exportCandidates bound) file ident.name [] =
        right.localCandidates (right.exportCandidates bound) file ident.name [] := by
    rw [h.localCandidates_eq (h.exportCandidates_eq bound) hfile]
  have hmore := (localCandidates_of_searchBound (fileAt?_path hleft) ident.name
    right.searchBound).1
  have hmore' := (localCandidates_of_searchBound (fileAt?_path hright) ident.name
    left.searchBound).1
  rw [candidates_of_fileAt? hleft, candidates_of_fileAt? hright]
  dsimp only at hmore hmore'
  rw [← hmore, hsame, Nat.add_comm, hmore']

end Overlap

/-! ### Declarations of shared files -/

section Rules

variable {project : Project} {file : SourceFile} {name : String} {finding : Finding}

/-- A variable of a file is something that a name may refer to. -/
theorem exists_item_of_declaration {spelling : String}
    (hfile : project.file? spelling = some file) {declarator : Declarator}
    (h : project.declaration spelling name = .ok declarator) :
    ∃ item ∈ file.module.items, .declarator declarator ∈ item.declarations := by
  unfold declaration at h
  rw [hfile] at h
  dsimp only at h
  split at h
  · rename_i other hother
    cases h
    obtain ⟨item, hitem, hmem⟩ := List.mem_flatMap.1 (List.mem_of_find?_eq_some hother)
    refine ⟨item, hitem, ?_⟩
    unfold ModuleItem.declarators? at hmem
    split at hmem
    case h_3 => cases hmem
    all_goals exact List.mem_cons_of_mem _ (List.mem_map_of_mem hmem)
  · cases h

end Rules

namespace Overlap

variable {left right : Project} (h : Overlap left right)

include h

/-- The declarations that a name in a shared file may refer to lie in shared files. -/
theorem sharedAt_of_mem_candidates {ident : Ident} (hident : SharedAt left right ident.span)
    {node : Node} (hnode : node ∈ left.candidates ident) :
    ∀ mark ∈ node.marks, SharedAt left right mark.span := by
  obtain ⟨file, hfile, hleft, -⟩ := hident.fileAt?_eq
  obtain ⟨other, hother, item, hitem, finding, hrule, hder⟩ := mem_candidates.1 hnode
  obtain rfl : file = other := Option.some.inj (hleft.symm.trans hother)
  obtain ⟨last, hlast, _, hlastItem, hdeclared⟩ :=
    hder.foundFrom h.closed file hfile (hrule.foundFrom hitem)
  have hplaced := (h.laid last hlast).file_of_mem_declarations hlastItem hdeclared
  exact fun mark hmark => ⟨last, hlast, (hplaced mark hmark).symm⟩

/-- To evaluation the projects are the same where they overlap. -/
theorem agreeOn : left.definitions.AgreeOn (SharedAt left right) right.definitions where
  quote _ hspan := congrArg (Option.map abbreviate) hspan.textAt?_eq
  candidates _ := h.candidates_eq
  closed _ hident _ := h.sharedAt_of_mem_candidates hident

/-- A declaration that lies in a shared file evaluates to the same in both projects. -/
theorem eval_eq {node : Node} (hnode : ∀ mark ∈ node.marks, SharedAt left right mark.span)
    (limit : Nat) :
    (((left.evaluator limit).eval .root node).run .start).1 =
      (((right.evaluator limit).eval .root node).run .start).1 := by
  -- With `True` for `exact`, alike values are equal, down to their tags and scopes.
  have hagree : Eval.Agree [] (Value.Alike True (SharedAt left right))
      ((left.evaluator limit).eval .root node) ((right.evaluator limit).eval .root node) :=
    evaluate_agree h.agreeOn limit limit (fun _ hmem => absurd hmem List.not_mem_nil)
      (Scope.alike_root hnode)
  obtain ⟨result, outcome, after, hleft, hright, hrelated⟩ := hagree 0
  rw [Machine.start, hleft, hright]
  cases hrelated with
  | ok hvalue => rw [hvalue.eq_of_exact trivial]
  | error => rfl

/-- A spelling that both projects know means a shared file. -/
theorem file?_eq {file : String} (hleft : (left.file? file).isSome)
    (hright : (right.file? file).isSome) :
    ∃ found, Shared left right found ∧ left.file? file = some found ∧
      right.file? file = some found := by
  obtain ⟨found, hfound⟩ := Option.isSome_iff_exists.1 hleft
  obtain ⟨other, hother⟩ := Option.isSome_iff_exists.1 hright
  obtain ⟨hmem, hpath⟩ := fileAt?_eq_some_iff.1 hfound
  obtain ⟨hmem', hpath'⟩ := fileAt?_eq_some_iff.1 hother
  obtain rfl := h.same found hmem other hmem' (hpath.trans hpath'.symm)
  exact ⟨found, ⟨hmem, hmem'⟩, hfound, hother⟩

/-- Every declaration of a file that both projects know evaluates to the same in both. -/
theorem evaluate_eq {file : String} (hleft : (left.file? file).isSome)
    (hright : (right.file? file).isSome) (symbol : String) (limit : Nat) :
    left.evaluate file symbol limit = right.evaluate file symbol limit := by
  obtain ⟨found, hfound, hleft, hright⟩ := h.file?_eq hleft hright
  have hsame : left.declaration file symbol = right.declaration file symbol := by
    rw [declaration, declaration, hleft, hright]
  unfold evaluate
  rw [← hsame]
  split
  · rfl
  · rename_i declarator hdeclarator
    obtain ⟨item, hitem, hmem⟩ := exists_item_of_declaration hleft hdeclarator
    have hplaced := (h.laid found hfound).file_of_mem_declarations hitem hmem
    have hnode : ∀ mark ∈ (Node.declarator declarator).marks, SharedAt left right mark.span :=
      fun mark hmark => ⟨found, hfound, (hplaced mark hmark).symm⟩
    rw [h.eval_eq hnode limit]

end Overlap

end Project

/-! ### Sources as a set -/

/-- Where no two sources stand under one path, their order does not matter. -/
theorem Sources.text?_ofList_eq {files others : List (String × String)} (hperm : files.Perm others)
    (hdistinct : (entryPaths (files.map (·.1))).Nodup) :
    (ofList files).text? = (ofList others).text? := by
  have hkeys (files : List (String × String)) :
      ((ofList files).files.map (·.1)).Perm (entryPaths (files.map (·.1))) := by
    simp only [ofList, entryPaths, List.map_reverse, List.map_map]
    exact List.reverse_perm _
  have hfiles : (ofList files).files.Perm (ofList others).files :=
    (List.reverse_perm _).trans ((hperm.map _).trans (List.reverse_perm _).symm)
  have hleft := (hkeys files).nodup_iff.2 hdistinct
  have hright := (hkeys others).nodup_iff.2 (((hperm.map _).map _).nodup_iff.1 hdistinct)
  funext path
  refine Option.ext fun text => ?_
  rw [text?, text?, Record.lookup_eq_some_iff_mem hleft, Record.lookup_eq_some_iff_mem hright,
    hfiles.mem_iff]

/-- In-memory sources that are all modules can be loaded from any entries among them. -/
theorem Project.exists_load {files : List (String × String)} {entries : List String}
    (hmodules : ∀ file ∈ files,
      (parseSource (Path.ofText file.1).normalize (withoutMark file.2)).isOk)
    (hentries : ∀ path ∈ entryPaths entries, (Sources.ofList files).serves path) :
    ∃ project, load (.ofList files) entries = .ok project := by
  refine exists_outcome hentries fun path text htext => ?_
  obtain ⟨before, after, hsplit, -⟩ := List.lookup_eq_some_iff.1 htext
  have hmem : (path, text) ∈ (Sources.ofList files).files := by
    rw [hsplit]
    exact List.mem_append_right before List.mem_cons_self
  obtain ⟨file, hfile, hsame⟩ := List.mem_map.1 (List.mem_reverse.1 hmem)
  obtain ⟨rfl, rfl⟩ := Prod.mk.inj hsame
  exact hmodules file hfile

/-! ### Loads overlap -/

section

variable {sources others : Sources} {entries : List Path} {project left right : Project}

/-- A specifier that is mapped to a path leads to the file there. -/
theorem Linked.fileAt?_of_target (hlinked : Linked sources project)
    (hload : project.LoadedFrom sources entries) {file : SourceFile}
    (hfile : file ∈ project.files) {specifier : String} {path : Path}
    (htarget : file.targets.lookup specifier = some path) :
    ∃ target, project.fileAt? path = some target := by
  have hlookup := htarget
  rw [hlinked.targets file hfile, lookup_targetsOf] at hlookup
  split at hlookup
  · rename_i hmem
    rcases hload.resolved file hfile specifier (mem_localSpecifiers_iff.1 hmem) with
      ⟨target, hfound, -⟩ | ⟨hnone, -⟩
    · rw [Project.target?, htarget] at hfound
      exact ⟨target, hfound⟩
    · rw [Sources.target?, hlookup] at hnone
      cases hnone
  · cases hlookup

/-- Sources that hold the same texts serve the same file under a path. -/
theorem Linked.eq_of_path_eq (htext : sources.text? = others.text?) (hleft : Linked sources left)
    (hright : Linked others right) {file other : SourceFile} (hfile : file ∈ left.files)
    (hother : other ∈ right.files) (hpath : file.path = other.path) : file = other := by
  have hserves : sources.serves = others.serves := by
    funext path
    rw [Sources.serves, Sources.serves, htext]
  obtain ⟨text, hsource, hread⟩ := hleft.text file hfile
  obtain ⟨text', hsource', hread'⟩ := hright.text other hother
  have hparse := hleft.parsed file hfile
  have hparse' := hright.parsed other hother
  have htargets := hleft.targets file hfile
  have htargets' := hright.targets other hother
  obtain ⟨path, content, m, targets⟩ := file
  obtain ⟨path', content', m', targets'⟩ := other
  dsimp only at *
  subst hpath
  rw [htext, hsource'] at hsource
  obtain rfl := Option.some.inj hsource
  subst hread hread'
  rw [hparse'] at hparse
  obtain rfl := Except.ok.inj hparse
  rw [htargets, htargets', hserves]

theorem parseSource_laid {path : Path} {text : String} {m : Module}
    (h : parseSource path text = .ok m) : m.Laid path := by
  unfold parseSource at h
  split at h
  · rename_i found hparse
    cases h
    exact parseModule_laid hparse
  · cases h

/-- Projects that are loaded from sources with the same texts agree on what both have loaded. -/
theorem overlap_of_load (htext : sources.text? = others.text?) {starts : List Path}
    (hleft : Linked sources left) (hloadLeft : left.LoadedFrom sources entries)
    (hright : Linked others right) (hloadRight : right.LoadedFrom others starts) :
    left.Overlap right := by
  have hsame (file : SourceFile) (hfile : file ∈ left.files) (other : SourceFile)
      (hother : other ∈ right.files) (hpath : file.path = other.path) : file = other :=
    hleft.eq_of_path_eq htext hright hfile hother hpath
  -- A specifier is mapped to the same path in both, and what both have loaded there is one file.
  have htarget (file : SourceFile) (hfile : left.Shared right file) (specifier : String) :
      left.target? file specifier = right.target? file specifier ∧
        ∀ target, left.target? file specifier = some target → left.Shared right target := by
    cases hlookup : file.targets.lookup specifier with
    | none => simp [Project.target?, hlookup]
    | some path =>
      obtain ⟨target, hfound⟩ := hleft.fileAt?_of_target hloadLeft hfile.1 hlookup
      obtain ⟨other, hfound'⟩ := hright.fileAt?_of_target hloadRight hfile.2 hlookup
      obtain ⟨hmem, hpath⟩ := Project.fileAt?_eq_some_iff.1 hfound
      obtain ⟨hmem', hpath'⟩ := Project.fileAt?_eq_some_iff.1 hfound'
      obtain rfl := hsame target hmem other hmem' (hpath.trans hpath'.symm)
      rw [Project.target?, Project.target?, hlookup, Option.bind_some, Option.bind_some, hfound,
        hfound']
      refine ⟨rfl, fun found hsome => ?_⟩
      obtain rfl := Option.some.inj hsome
      exact ⟨hmem, hmem'⟩
  refine ⟨hsame, fun file hfile => funext fun specifier => (htarget file hfile specifier).1,
    fun file hfile specifier => (htarget file hfile specifier).2, fun file hfile => ?_⟩
  exact parseSource_laid (hleft.parsed file hfile.1)

/-- What the steps of a load come to. -/
theorem loaded_of_load {entries : List String} (h : Project.load sources entries = .ok project) :
    Linked sources project ∧ project.LoadedFrom sources (entryPaths entries) := by
  rw [Project.load_eq_outcome, outcome_eq_ok_iff] at h
  exact ⟨(invariants_of_run h).1, loadedFrom_of_run (fun _ => isNormal_of_mem_entryPaths) h⟩

end

/-- Every entry is part of what is loaded. -/
theorem Project.file?_isSome_of_load {sources : Sources} {entries : List String}
    {project : Project} (h : load sources entries = .ok project) {entry : String}
    (hentry : entry ∈ entries) : (project.file? entry).isSome := by
  obtain ⟨file, hfile, hpath⟩ := ((loaded_of_load h).2.reached _).2
    ⟨0, .entry (List.mem_map.2 ⟨entry, hentry, rfl⟩)⟩
  exact Option.isSome_iff_exists.2 ⟨file, fileAt?_eq_some_iff.2 ⟨hfile, hpath⟩⟩

/-- **Which entries are loaded, and in which order, does not matter, nor which other files come
along.** Two projects are loaded from the same in-memory sources, in whatever order these are
given, no two of them under one path. Whatever a file of both declares then evaluates in both,
under the same limit, to the same value, tags and places included, or to the same fault with the
same quoted texts. -/
theorem Project.evaluate_eq_of_load {files others : List (String × String)}
    (hperm : files.Perm others) (hdistinct : (entryPaths (files.map (·.1))).Nodup)
    {entries starts : List String} {left right : Project}
    (hleft : load (.ofList files) entries = .ok left)
    (hright : load (.ofList others) starts = .ok right) {file : String}
    (hfileLeft : (left.file? file).isSome) (hfileRight : (right.file? file).isSome)
    (symbol : String) (limit : Nat) :
    left.evaluate file symbol limit = right.evaluate file symbol limit := by
  obtain ⟨hlinkedLeft, hloadedLeft⟩ := loaded_of_load hleft
  obtain ⟨hlinkedRight, hloadedRight⟩ := loaded_of_load hright
  have htext := Sources.text?_ofList_eq hperm hdistinct
  have hoverlap := overlap_of_load htext hlinkedLeft hloadedLeft hlinkedRight hloadedRight
  exact hoverlap.evaluate_eq hfileLeft hfileRight symbol limit

/-! ### One file in two projects -/

namespace Sample

/-- A file that imports another one, and a file that neither of them imports. -/
def files : List (String × String) :=
  [("main.ts", "import {x} from './lib'\nconst y = [x]"), ("lib.ts", "export const x = true"),
    ("other.ts", "const y = null")]

/-- Loaded by itself or after another file, from sources in any order, a file has the same
values. -/
theorem evaluate_main_eq :
    ∃ left right, Project.load (.ofList files) ["main.ts"] = .ok left ∧
      Project.load (.ofList files.reverse) ["other.ts", "main.ts"] = .ok right ∧
        (left.file? "main.ts").isSome ∧ (right.file? "main.ts").isSome ∧
          left.evaluate "main.ts" "y" 8 = right.evaluate "main.ts" "y" 8 := by
  have hmodules : ∀ file ∈ files,
      (parseSource (Path.ofText file.1).normalize (withoutMark file.2)).isOk := by decide +kernel
  obtain ⟨left, hleft⟩ : ∃ left, Project.load (.ofList files) ["main.ts"] = .ok left :=
    Project.exists_load hmodules (by decide)
  obtain ⟨right, hright⟩ :
      ∃ right, Project.load (.ofList files.reverse) ["other.ts", "main.ts"] = .ok right :=
    Project.exists_load (fun file hfile => hmodules file (List.mem_reverse.1 hfile)) (by decide)
  have hfileLeft := Project.file?_isSome_of_load hleft List.mem_cons_self
  have hfileRight := Project.file?_isSome_of_load hright
    (List.mem_cons_of_mem _ List.mem_cons_self)
  refine ⟨left, right, hleft, hright, hfileLeft, hfileRight, ?_⟩
  exact Project.evaluate_eq_of_load (List.reverse_perm files).symm (by decide) hleft hright
    hfileLeft hfileRight "y" 8

end Sample

end StaticConfig
