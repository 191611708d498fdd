import StaticConfig.Proofs.Project.Search
import StaticConfig.Proofs.Snippet

/-!
# Source order decides between exports

Only the first candidate of a name is evaluated, and candidates come in source order. So where a
file exports a name explicitly and also by an export of everything, the one that stands first in
the file wins:

- `gather_eq_cons`: the first result of a row of searches comes from the first one that has a
  result, after ones that have none;
- `exportCandidates_head`: the first declaration behind an export comes from an explicit export, or
  from an export of everything that stands before every explicit export with a declaration;
- `first_candidate_of_explicit`: the same for an imported name and its value.
-/

namespace StaticConfig

/-- An export of everything, as opposed to the explicit ones. -/
def ModuleItem.isExportAll : ModuleItem → Bool
  | .exportAll .. => true
  | _ => false

/-! ### The first result of a row of searches -/

namespace Search

variable {α : Type} {search : α → Search (List Node)}

/-- The first result is that of the first search with a result. -/
theorem gather_eq_cons {things : List α} {seen marks : List Export} {first : Node}
    {rest : List Node} (h : gather things search seen = (first :: rest, marks)) :
    ∃ before thing after mid more last, things = before ++ thing :: after ∧
      gather before search seen = ([], mid) ∧ search thing mid = (first :: more, last) := by
  induction things generalizing seen with
  | nil => cases h
  | cons thing others ih =>
    rw [gather_cons] at h
    rcases hthing : search thing seen with ⟨out, mid⟩
    rw [hthing] at h
    cases out with
    | cons head more =>
      obtain rfl : head = first := by
        have := congrArg (fun outcome => outcome.1.head?) h
        simpa using this
      exact ⟨[], thing, others, seen, more, mid, rfl, rfl, hthing⟩
    | nil =>
      obtain ⟨before, found, after, mid', more, last, hothers, hbefore, hfound⟩ := ih h
      refine ⟨thing :: before, found, after, mid', more, last, by rw [hothers]; rfl, ?_, hfound⟩
      rw [gather_cons, hthing]
      dsimp only
      rw [hbefore]
      rfl

/-- Searches that mark nothing find in a row what each of them finds. -/
theorem gather_of_still {things : List α} {found : α → List Node}
    (h : ∀ thing ∈ things, ∀ seen, search thing seen = (found thing, seen)) (seen : List Export) :
    gather things search seen = (things.flatMap found, seen) := by
  induction things with
  | nil => rfl
  | cons thing others ih =>
    rw [gather_cons, h thing List.mem_cons_self seen]
    dsimp only
    rw [ih fun next hnext => h next (List.mem_cons_of_mem _ hnext), List.flatMap_cons]

/-- Searches that find and mark nothing do so in a row. -/
theorem gather_quiet {things : List α}
    (h : ∀ thing ∈ things, ∀ seen, search thing seen = ([], seen)) (seen : List Export) :
    gather things search seen = ([], seen) := by
  rw [gather_of_still h seen, List.flatMap_eq_nil_iff.2 fun _ _ => rfl]

/-- They can be left out around the one search that does something. -/
theorem gather_of_quiet {before after : List α} {thing : α}
    (h : ∀ thing ∈ before ++ after, ∀ seen, search thing seen = ([], seen)) (seen : List Export) :
    gather (before ++ thing :: after) search seen = search thing seen := by
  induction before with
  | nil =>
    have hafter := gather_quiet (fun other hother => h other hother) (search thing seen).2
    rw [List.nil_append] at hafter ⊢
    rw [gather_cons]
    dsimp only
    rw [hafter, List.append_nil]
    rfl
  | cons other others ih =>
    rw [List.cons_append, gather_cons, h other List.mem_cons_self seen]
    exact ih fun next hnext => h next (List.mem_cons_of_mem _ hnext)

end Search

namespace Project

variable (project : Project)

/-- A declaration behind an export, by an explicit export. -/
def ExportsExplicitly (file : SourceFile) (name : String) (node : Node) : Prop :=
  ∃ item ∈ file.module.items, item.isExportAll = false ∧ ∃ finding,
    project.Exporting file name item finding ∧ project.Derives finding node

/-- A declaration behind an export, by an export of everything from a file that exports it; the
statement stands before every explicit export with a declaration. -/
def ExportsByLeadingStar (file : SourceFile) (name : String) (node : Node) : Prop :=
  ∃ before source after target,
    file.module.items = before ++ .exportAll false source :: after ∧
    project.target? file source = some target ∧ project.Exports target name node ∧
    ∀ item ∈ before, item.isExportAll = false → ∀ finding declaration,
      project.Exporting file name item finding → ¬project.Derives finding declaration

/-- A file binds a name by one specifier of one import and nothing else: to an export of a file of
the project. -/
def ImportsOnly (file : SourceFile) (name : String) (target : SourceFile) (exported : String) :
    Prop :=
  ∃ before source firsts specifier lasts after,
    file.module.items = before ++ .imports false source (firsts ++ specifier :: lasts) :: after ∧
    project.Importing file source name specifier (.lead target exported) ∧
    (∀ sibling ∈ firsts ++ lasts, ∀ finding,
      ¬project.Importing file source name sibling finding) ∧
    ∀ item ∈ before ++ after, ∀ finding, ¬project.Binding file name item finding

variable {project}

/-- A search without findings finds and marks nothing. -/
theorem Explores.quiet {bound : Nat} {search deeper : Search (List Node)}
    {found : Finding → Prop} (h : project.Explores bound search deeper found)
    (hnone : ∀ finding, ¬found finding) {seen : List Export}
    (hseen : project.unmarked seen < bound) : search seen = ([], seen) := by
  obtain ⟨-, hexplored⟩ := h seen hseen
  refine Prod.ext (List.eq_nil_iff_forall_not_mem.2 fun node hnode => ?_) (hexplored.still hnone)
  obtain ⟨finding, hfound, -⟩ := hexplored.derived node hnode
  exact hnone finding hfound

/-- In a row of searches the first result is derived by the first search that has a result; the
ones before it have explored what is theirs and found nothing. -/
theorem Explores.first_of_gather {α : Type} {bound : Nat} {things : List α}
    {search deeper : α → Search (List Node)} {found : α → Finding → Prop}
    (h : ∀ thing ∈ things,
      project.Explores bound (search thing) (deeper thing) (found thing))
    {seen marks : List Export} (hseen : project.unmarked seen < bound)
    {first : Node} {rest : List Node}
    (hrun : Search.gather things search seen = (first :: rest, marks)) :
    ∃ before thing after mid, things = before ++ thing :: after ∧
      project.Explored (fun finding => ∃ earlier ∈ before, found earlier finding) seen [] mid ∧
      ∃ finding, found thing finding ∧ project.Derives finding first := by
  obtain ⟨before, thing, after, mid, more, last, hsplit, hbefore, hthing⟩ :=
    Search.gather_eq_cons hrun
  subst hsplit
  have hexplored := (Explores.gather (fun earlier hearlier =>
    h earlier (List.mem_append_left _ hearlier)) seen hseen).2
  rw [hbefore] at hexplored
  -- The marks that the earlier searches leave still keep the bound.
  have hmid : project.unmarked mid < bound :=
    Nat.lt_of_le_of_lt (unmarked_le_of_subset hexplored.subset) hseen
  have hown := (h thing (List.mem_append_right _ List.mem_cons_self) mid hmid).2
  rw [hthing] at hown
  exact ⟨before, thing, after, mid, rfl, hexplored, hown.derived first List.mem_cons_self⟩

theorem ImportsOnly.askable {file target : SourceFile} {name exported : String}
    (h : project.ImportsOnly file name target exported)
    (hfile : project.fileAt? file.path = some file) : project.Askable target exported := by
  obtain ⟨before, source, firsts, specifier, lasts, after, hitems, hrule, -, -⟩ := h
  have hitem : .imports false source (firsts ++ specifier :: lasts) ∈ file.module.items := by
    rw [hitems]
    simp
  have hmem : specifier ∈ firsts ++ specifier :: lasts := by simp
  cases hrule with
  | named htarget =>
    exact ⟨fileAt?_of_target? htarget, mem_asked hfile hitem (List.mem_map.2 ⟨_, hmem, rfl⟩)⟩
  | defaultExport htarget =>
    exact ⟨fileAt?_of_target? htarget, mem_asked hfile hitem (List.mem_map.2 ⟨_, hmem, rfl⟩)⟩

/-- An import specifier that leads to an export is the look-up of that export. -/
theorem importCandidates_of_importing {follow : SourceFile → String → Search (List Node)}
    {file target : SourceFile} {source name exported : String} {specifier : ImportSpecifier}
    (h : project.Importing file source name specifier (.lead target exported)) :
    project.importCandidates follow file source name specifier = follow target exported := by
  cases h with
  | named htarget => simp [importCandidates, followTo, htarget]
  | defaultExport htarget => simp [importCandidates, followTo, htarget]

/-- The declarations of a name that is only imported are those behind the export. -/
theorem candidates_of_importsOnly {ident : Ident} {file target : SourceFile} {exported : String}
    (hfile : project.fileAt? ident.span.file = some file)
    (h : project.ImportsOnly file ident.name target exported) :
    project.candidates ident =
      (project.exportCandidates project.searchBound target exported []).1 := by
  obtain ⟨before, source, firsts, specifier, lasts, after, hitems, hrule, hsiblings, hothers⟩ := h
  have hpath := fileAt?_path hfile
  have hfollow := @exportCandidates_explores project 0 project.searchBound
  have hitem : .imports false source (firsts ++ specifier :: lasts) ∈ file.module.items := by
    rw [hitems]
    simp
  rw [candidates_of_fileAt? hfile, localCandidates, hitems, Search.gather_of_quiet, itemCandidates,
    Search.gather_of_quiet, importCandidates_of_importing hrule]
  · intro sibling hsibling seen
    have hmem : sibling ∈ firsts ++ specifier :: lasts := by
      simp only [List.mem_append, List.mem_cons] at hsibling ⊢
      tauto
    exact (importCandidates_explores hfollow hpath hitem ident.name hmem).quiet
      (hsiblings sibling hsibling) (unmarked_lt_searchBound seen)
  · intro item hother seen
    have hmem : item ∈ file.module.items := by
      rw [hitems]
      simp only [List.mem_append, List.mem_cons] at hother ⊢
      tauto
    exact (itemCandidates_explores hfollow hpath hmem ident.name).quiet
      (hothers item hother) (unmarked_lt_searchBound seen)

/-! ### The first declaration behind an export -/

/-- An explicit export that stands before the statement with the first result, and has none of its
own, can only lead back to the export that is being looked up; so it too exports the result. -/
theorem exportsExplicitly_of_before {file : SourceFile} {name : String} {before : List ModuleItem}
    {item : ModuleItem} {finding : Finding} {first node : Node} {mid : List Export}
    (hfile : project.fileAt? file.path = some file)
    (hbefore : project.Explored
      (fun finding => ∃ item ∈ before, project.Exporting file name item finding)
      [(file.path, name)] [] mid)
    (hmem : item ∈ before) (hitem : item ∈ file.module.items)
    (hexplicit : item.isExportAll = false) (hrule : project.Exporting file name item finding)
    (hnode : project.Derives finding node) (hfirst : project.Exports file name first) :
    project.ExportsExplicitly file name first := by
  rcases mem_or_leads_back hbefore.expanded hnode (hbefore.covered finding ⟨item, hmem, hrule⟩)
    with hout | ⟨back, backName, hback, hkey, hall⟩
  · exact absurd hout List.not_mem_nil
  · obtain ⟨hpath, rfl⟩ := Prod.mk.inj (List.mem_singleton.1 hkey)
    rw [hpath, hfile] at hback
    obtain rfl := Option.some.inj hback
    exact ⟨item, hitem, hexplicit, finding, hrule, hall first hfirst⟩

theorem exportCandidates_head {file : SourceFile} {name : String}
    (hask : project.Askable file name) {first : Node} {rest : List Node}
    (h : (project.exportCandidates project.searchBound file name []).1 = first :: rest) :
    project.ExportsExplicitly file name first ∨ project.ExportsByLeadingStar file name first := by
  obtain ⟨hfile, hname⟩ := hask
  -- Within its own look-up the export is marked, and one step of the bound is used up.
  have hbound : project.unmarked [(file.path, name)] < project.searchBound - 1 :=
    Nat.lt_of_lt_of_le (unmarked_cons_lt ⟨hfile, hname⟩ List.not_mem_nil)
      (Nat.le_of_lt_succ (unmarked_lt_searchBound []))
  have hitems : ∀ item ∈ file.module.items, _ := fun item hitem => exportedByItem_explores
    (exportCandidates_explores 0 (project.searchBound - 1)) hfile hitem hname
  rw [show project.searchBound = project.searchBound - 1 + 1 from rfl, exportCandidates_succ,
    if_neg List.not_mem_nil] at h
  obtain ⟨before, thing, after, mid, hsplit, hexplored, finding, hrule, hder⟩ :=
    Explores.first_of_gather hitems hbound (Prod.ext h rfl)
  have hmem : thing ∈ file.module.items := by
    rw [hsplit]
    exact List.mem_append_right _ List.mem_cons_self
  cases hstar : thing.isExportAll with
  | false => exact .inl ⟨thing, hmem, hstar, finding, hrule, hder⟩
  | true =>
    by_cases hexplicit : ∃ item ∈ before, item.isExportAll = false ∧ ∃ finding node,
        project.Exporting file name item finding ∧ project.Derives finding node
    · obtain ⟨item, hitem, hitemExplicit, finding', node, hrule', hnode⟩ := hexplicit
      have hitemMem : item ∈ file.module.items := by
        rw [hsplit]
        exact List.mem_append_left _ hitem
      exact .inl (exportsExplicitly_of_before hfile hexplored hitem hitemMem
        hitemExplicit hrule' hnode (.lead hmem hrule hder))
    · cases hrule with
      | exportAll _ htarget =>
        exact .inr ⟨before, _, after, _, hsplit, htarget, hder,
          fun item hitem hno finding node hrule hnode =>
            hexplicit ⟨item, hitem, hno, finding, node, hrule, hnode⟩⟩
      | exported | exports | defaultValue | defaultDeclaration => cases hstar

/-- **Source order decides.** If a file exports a name explicitly, with a declaration, then a name
that is imported from it has a first candidate, which is the one that is evaluated, and this comes
from an explicit export unless an export of everything stands before all of those. -/
theorem first_candidate_of_explicit (project : Project) {ident : Ident} {file target : SourceFile}
    {exported : String} (hfile : project.fileAt? ident.span.file = some file)
    (himport : project.ImportsOnly file ident.name target exported)
    (hexplicit : ∃ node, project.ExportsExplicitly target exported node) :
    ∃ first, (project.candidates ident).head? = some first ∧
      (project.ExportsExplicitly target exported first ∨
        project.ExportsByLeadingStar target exported first) ∧
      ∀ visit (scope : Scope Value), ident.name ≠ "undefined" →
        scope.lookup? ident.name = none →
        evalName project.definitions visit scope ident = visit .root first := by
  have hask := himport.askable (fileAt?_path hfile)
  have hcandidates := candidates_of_importsOnly hfile himport
  have hexplored := (exportCandidates_explores 0 project.searchBound target exported hask []
    (unmarked_lt_searchBound [])).2
  obtain ⟨node, item, hitem, -, finding, hrule, hder⟩ := hexplicit
  have hnode : node ∈ project.candidates ident := by
    rw [hcandidates, hexplored.mem_iff]
    exact ⟨_, rfl, .lead hitem hrule hder⟩
  cases hlist : project.candidates ident with
  | nil =>
    rw [hlist] at hnode
    exact absurd hnode List.not_mem_nil
  | cons first rest =>
    exact ⟨first, rfl, exportCandidates_head hask (hcandidates ▸ hlist),
      fun visit scope hname hscope => evalName_of_candidates hlist hname hscope visit⟩

/-! ### An export of everything that stands first -/

namespace StarFirst

open Snippet (path)

/-- `x = value` in a file. -/
def declarator (file : String) (value : Nat) : Declarator :=
  .mk ⟨path file, 13, 18⟩ (some "x") (some (.number ⟨path file, 17, 18⟩ (.ofNat value)))

/-- A file of the one statement `export const x = value;`. -/
def leaf (file : String) (value : Nat) : SourceFile where
  path := path file
  text := "export const x = " ++ toString value ++ ";"
  module := ⟨[.exported (.declares ⟨path file, 7, 19⟩ [declarator file value])]⟩
  targets := []

/-- Everything from one file, and then `x` from another one. -/
def index : SourceFile where
  path := path "index.ts"
  text := "export * from './a';\nexport \x7b x \x7d from './b';"
  module := ⟨[.exportAll false "./a", .exports false (some "./b") [.named false "x" "x"]]⟩
  targets := [("./a", path "a.ts"), ("./b", path "b.ts")]

def main : SourceFile where
  path := path "main.ts"
  text := "import \x7b x \x7d from './index';"
  module := ⟨[.imports false "./index" [.named false "x" "x"]]⟩
  targets := [("./index", path "index.ts")]

def sample : Project :=
  (((Project.empty.add main [] rfl).add index [] rfl).add (leaf "a.ts" 1) [] rfl).add
    (leaf "b.ts" 2) [] rfl

/-- The name `x` in the file that imports it. -/
def occurrence : Ident := ⟨"x", ⟨path "main.ts", 9, 10⟩⟩

theorem importsOnly : sample.ImportsOnly main "x" index "x" := by
  refine ⟨[], "./index", [], .named false "x" "x", [], [], rfl, .named rfl, ?_, ?_⟩
  · exact fun _ h => absurd h List.not_mem_nil
  · exact fun _ h => absurd h List.not_mem_nil

theorem exportsExplicitly :
    sample.ExportsExplicitly index "x" (.declarator (declarator "b.ts" 2)) := by
  refine ⟨.exports false (some "./b") [.named false "x" "x"], by simp [index], rfl,
    .lead (leaf "b.ts" 2) "x", .exports List.mem_cons_self (.passedOn rfl), ?_⟩
  exact .lead List.mem_cons_self (.exported (.declarator List.mem_cons_self rfl)) .declaration

theorem eq_of_exportsExplicitly {node : Node} (h : sample.ExportsExplicitly index "x" node) :
    node = .declarator (declarator "b.ts" 2) := by
  obtain ⟨item, hitem, hexplicit, finding, hrule, hder⟩ := h
  simp only [index, List.mem_cons, List.not_mem_nil, or_false] at hitem
  rcases hitem with rfl | rfl
  · cases hexplicit
  · obtain ⟨specifier, hmem, hoffer⟩ := exporting_exports_iff.1 hrule
    obtain rfl := List.mem_singleton.1 hmem
    obtain ⟨-, target, htarget, rfl⟩ := offering_passedOn_iff.1 hoffer
    obtain rfl : leaf "b.ts" 2 = target := Option.some.inj htarget
    cases hder with
    | lead hleaf hexporting hdeclaration =>
      obtain rfl := List.mem_singleton.1 hleaf
      obtain ⟨found, hdeclares, rfl⟩ := exporting_exported_iff.1 hexporting
      cases hdeclaration
      cases hdeclares with
      | declarator hdeclarator _ => rw [List.mem_singleton.1 hdeclarator]

/-- The export of everything wins, though there is an explicit export with a declaration. -/
theorem exportAll_wins :
    sample.ImportsOnly main occurrence.name index "x" ∧
      (∃ node, sample.ExportsExplicitly index "x" node) ∧
      (sample.candidates occurrence).head? = some (.declarator (declarator "a.ts" 1)) ∧
      ¬sample.ExportsExplicitly index "x" (.declarator (declarator "a.ts" 1)) := by
  refine ⟨importsOnly, ⟨_, exportsExplicitly⟩, rfl, fun h => ?_⟩
  have hsame := eq_of_exportsExplicitly h
  simp [declarator, path] at hsame

/-- What the general statement says here. -/
theorem first_candidate_of_occurrence :
    sample.fileAt? occurrence.span.file = some main ∧
      sample.ImportsOnly main occurrence.name index "x" ∧
      (∃ node, sample.ExportsExplicitly index "x" node) ∧
      ∃ first, (sample.candidates occurrence).head? = some first ∧
        (sample.ExportsExplicitly index "x" first ∨ sample.ExportsByLeadingStar index "x" first) := by
  have hfile : sample.fileAt? occurrence.span.file = some main := rfl
  have hexplicit : ∃ node, sample.ExportsExplicitly index "x" node := ⟨_, exportsExplicitly⟩
  obtain ⟨first, hhead, horigin, -⟩ :=
    first_candidate_of_explicit sample hfile importsOnly hexplicit
  exact ⟨hfile, importsOnly, hexplicit, first, hhead, horigin⟩

end StarFirst

end Project

end StaticConfig
