import Mathlib.Data.List.ProdSigma
import StaticConfig.Project.Load
import StaticConfig.Proofs.Project.Derivation

/-!
# The search finds what the rules derive

The search for the declarations of a name goes depth first through exports that may lead on to each
other in circles, and shares one list of marks between all its branches. A branch that meets a mark
turns back, so what it does not find must be found elsewhere. The invariant that carries this is
`Explored`: every export that a search has marked is expanded, i.e. whatever the rules give for it
has been found or is marked itself.

- `Explores`: what a search does, with one lemma for each function of the search;
- `exportCandidates_explores`: the bound on the depth is never what ends a search, because each
  nested look-up marks one more of the finitely many exports (`unmarked`);
- `mem_or_leads_back`: in an expanded state whatever is derived has been found, unless its
  derivation leads through one of the marks that were there before.
-/

namespace StaticConfig

namespace Project

variable {project : Project}

theorem fileAt?_path {path : Path} {file : SourceFile} (h : project.fileAt? path = some file) :
    project.fileAt? file.path = some file := by
  rw [(fileAt?_eq_some_iff.1 h).2]
  exact h

theorem mem_files_of_fileAt? {path : Path} {file : SourceFile}
    (h : project.fileAt? path = some file) : file ∈ project.files :=
  (fileAt?_eq_some_iff.1 h).1

theorem fileAt?_of_target? {file target : SourceFile} {source : String}
    (h : project.target? file source = some target) :
    project.fileAt? target.path = some target := by
  obtain ⟨path, -, hpath⟩ := Option.bind_eq_some_iff.1 h
  exact fileAt?_path hpath

/-! ### Exports that can be asked for -/

section Asked

variable (project)

/-- The names under which some file of the project asks another one for an export. -/
def asked : List String :=
  project.files.flatMap fun file => file.module.items.flatMap namesAsked

/-- An export of one of the project's files that a search may have to look up. -/
def Askable (target : SourceFile) (name : String) : Prop :=
  project.fileAt? target.path = some target ∧ name ∈ project.asked

/-- How many of the exports that can be asked for are not yet marked. -/
def unmarked (seen : List Export) : Nat :=
  (((project.files.map (·.path)) ×ˢ project.asked).filter (· ∉ seen)).length

end Asked

theorem mem_asked {path : Path} {file : SourceFile} {item : ModuleItem} {name : String}
    (hfile : project.fileAt? path = some file) (hitem : item ∈ file.module.items)
    (hname : name ∈ namesAsked item) : name ∈ project.asked :=
  List.mem_flatMap.2 ⟨file, mem_files_of_fileAt? hfile, List.mem_flatMap.2 ⟨item, hitem, hname⟩⟩

theorem unmarked_lt_searchBound (seen : List Export) :
    project.unmarked seen < project.searchBound := by
  refine Nat.lt_succ_of_le (Nat.le_trans (List.length_filter_le _ _) ?_)
  rw [List.length_product, List.length_map]
  exact Nat.le_refl _

theorem unmarked_le_of_subset {seen marks : List Export} (h : seen ⊆ marks) :
    project.unmarked marks ≤ project.unmarked seen := by
  unfold unmarked
  rw [← List.countP_eq_length_filter, ← List.countP_eq_length_filter]
  refine List.countP_mono_left fun key _ hkey => ?_
  simp only [decide_eq_true_eq] at hkey ⊢
  exact fun hseen => hkey (h hseen)

theorem unmarked_cons_lt {target : SourceFile} {name : String} {seen : List Export}
    (hask : project.Askable target name) (hnew : (target.path, name) ∉ seen) :
    project.unmarked ((target.path, name) :: seen) < project.unmarked seen := by
  refine length_filter_lt (fun key _ hkey => ?_) ⟨(target.path, name), ?_, ?_, ?_⟩
  · simp only [decide_eq_true_eq, List.mem_cons, not_or] at hkey ⊢
    exact hkey.2
  · exact List.mem_product.2
      ⟨List.mem_map.2 ⟨target, mem_files_of_fileAt? hask.1, rfl⟩, hask.2⟩
  · simpa using hnew
  · simp

/-! ### What a search has done -/

section Explored

variable (project)

/-- A finding is covered if its declaration is among the results, or its lead among the marks. -/
def Covered (marks : List Export) (out : List Node) : Finding → Prop
  | .declaration node => node ∈ out
  | .lead target name =>
    project.fileAt? target.path = some target ∧ (target.path, name) ∈ marks

/-- What the rules give for an export is covered. -/
def Expanded (marks : List Export) (out : List Node) (target : SourceFile) (name : String) :
    Prop :=
  ∀ item ∈ target.module.items, ∀ finding,
    project.Exporting target name item finding → project.Covered marks out finding

/-- What a search through the findings `found` does, from the marks `seen` on: it keeps the marks
and marks nothing without a finding, its results are derived, it covers the findings, and every
export that it marks is expanded. -/
structure Explored (found : Finding → Prop) (seen : List Export) (out : List Node)
    (marks : List Export) : Prop where
  subset : seen ⊆ marks
  still : (∀ finding, ¬found finding) → marks = seen
  derived : ∀ node ∈ out, ∃ finding, found finding ∧ project.Derives finding node
  covered : ∀ finding, found finding → project.Covered marks out finding
  expanded : ∀ target name, project.fileAt? target.path = some target →
    (target.path, name) ∈ marks → (target.path, name) ∉ seen →
    project.Expanded marks out target name

/-- While fewer than `bound` exports are unmarked, `search` explores `found`, and `deeper` does the
same as `search`. -/
def Explores (bound : Nat) (search deeper : Search (List Node)) (found : Finding → Prop) : Prop :=
  ∀ seen, project.unmarked seen < bound →
    deeper seen = search seen ∧
      project.Explored found seen (search seen).1 (search seen).2

end Explored

theorem Covered.mono {marks marks' : List Export} {out out' : List Node} {finding : Finding}
    (h : project.Covered marks out finding) (hmarks : marks ⊆ marks') (hout : out ⊆ out') :
    project.Covered marks' out' finding := by
  cases finding with
  | declaration node => exact hout h
  | lead target name => exact ⟨h.1, hmarks h.2⟩

theorem Expanded.mono {marks marks' : List Export} {out out' : List Node} {target : SourceFile}
    {name : String} (h : project.Expanded marks out target name) (hmarks : marks ⊆ marks')
    (hout : out ⊆ out') : project.Expanded marks' out' target name :=
  fun item hitem finding hrule => (h item hitem finding hrule).mono hmarks hout

/-- Two searches one after the other explore the findings of both. -/
theorem Explored.append {found found' : Finding → Prop} {seen mid marks : List Export}
    {out out' : List Node} (h : project.Explored found seen out mid)
    (h' : project.Explored found' mid out' marks) :
    project.Explored (fun finding => found finding ∨ found' finding) seen (out ++ out') marks where
  subset := fun _ hkey => h'.subset (h.subset hkey)
  still := fun hnone => by
    rw [h'.still fun finding hfound => hnone finding (.inr hfound),
      h.still fun finding hfound => hnone finding (.inl hfound)]
  derived := fun node hnode => by
    rcases List.mem_append.1 hnode with hnode | hnode
    · obtain ⟨finding, hfound, hder⟩ := h.derived node hnode
      exact ⟨finding, .inl hfound, hder⟩
    · obtain ⟨finding, hfound, hder⟩ := h'.derived node hnode
      exact ⟨finding, .inr hfound, hder⟩
  covered := fun finding hfound => by
    rcases hfound with hfound | hfound
    · exact (h.covered finding hfound).mono h'.subset (List.subset_append_left _ _)
    · exact (h'.covered finding hfound).mono (List.Subset.refl _) (List.subset_append_right _ _)
  expanded := fun target name hfile hmark hnew => by
    by_cases hmid : (target.path, name) ∈ mid
    · exact (h.expanded target name hfile hmid hnew).mono h'.subset (List.subset_append_left _ _)
    · exact (h'.expanded target name hfile hmark hmid).mono (List.Subset.refl _)
        (List.subset_append_right _ _)

theorem Explored.congr {found found' : Finding → Prop} {seen marks : List Export}
    {out : List Node} (h : project.Explored found seen out marks)
    (hiff : ∀ finding, found finding ↔ found' finding) :
    project.Explored found' seen out marks := by
  rw [← show found = found' from funext fun finding => propext (hiff finding)]
  exact h

section Searches

variable {bound : Nat}

theorem Explores.congr {search deeper : Search (List Node)} {found found' : Finding → Prop}
    (h : project.Explores bound search deeper found)
    (hiff : ∀ finding, found finding ↔ found' finding) :
    project.Explores bound search deeper found' :=
  fun seen hseen => ⟨(h seen hseen).1, (h seen hseen).2.congr hiff⟩

/-- A search that finds declarations without following anything. -/
theorem Explores.pure (nodes : List Node) {found : Finding → Prop}
    (hiff : ∀ finding, found finding ↔ ∃ node ∈ nodes, finding = .declaration node) :
    project.Explores bound (pure nodes) (pure nodes) found := by
  intro seen _
  refine ⟨rfl, List.Subset.refl _, fun _ => rfl, fun node hnode => ?_, fun finding hfound => ?_,
    fun _ _ _ hmark hnew => absurd hmark hnew⟩
  · exact ⟨.declaration node, (hiff _).2 ⟨node, hnode, rfl⟩, .declaration⟩
  · obtain ⟨node, hnode, rfl⟩ := (hiff finding).1 hfound
    exact hnode

theorem Explores.none {found : Finding → Prop} (h : ∀ finding, ¬found finding) :
    project.Explores bound (Pure.pure []) (Pure.pure []) found :=
  .pure [] fun finding => by simp [h finding]

theorem Explores.declaration {condition : Prop} [Decidable condition] (node : Node) :
    project.Explores bound (Pure.pure (if condition then [node] else []))
      (Pure.pure (if condition then [node] else []))
      (fun finding => condition ∧ finding = .declaration node) :=
  .pure _ fun finding => by by_cases h : condition <;> simp [h]

theorem Explores.guard {condition : Prop} [Decidable condition]
    {search deeper : Search (List Node)} {found : Finding → Prop}
    (h : project.Explores bound search deeper found) :
    project.Explores bound (if condition then search else Pure.pure [])
      (if condition then deeper else Pure.pure [])
      (fun finding => condition ∧ found finding) := by
  by_cases hc : condition
  · rw [if_pos hc, if_pos hc]
    exact h.congr fun finding => by simp [hc]
  · rw [if_neg hc, if_neg hc]
    exact .none fun finding hfound => hc hfound.1

theorem Explores.gather {α : Type} {things : List α} {search deeper : α → Search (List Node)}
    {found : α → Finding → Prop}
    (h : ∀ thing ∈ things,
      project.Explores bound (search thing) (deeper thing) (found thing)) :
    project.Explores bound (.gather things search) (.gather things deeper)
      (fun finding => ∃ thing ∈ things, found thing finding) := by
  induction things with
  | nil =>
    intro seen _
    exact ⟨rfl, List.Subset.refl _, fun _ => rfl, fun _ hnode => absurd hnode List.not_mem_nil,
      fun _ ⟨_, hmem, _⟩ => absurd hmem List.not_mem_nil,
      fun _ _ _ hmark hnew => absurd hmark hnew⟩
  | cons thing rest ih =>
    intro seen hseen
    obtain ⟨hsame, hfirst⟩ := h thing List.mem_cons_self seen hseen
    -- The marks of the first search leave no more unmarked, so the bound holds for the rest.
    obtain ⟨hsame', hrest⟩ := ih (fun other hother => h other (List.mem_cons_of_mem _ hother))
      (search thing seen).2 (Nat.lt_of_le_of_lt (unmarked_le_of_subset hfirst.subset) hseen)
    rw [Search.gather_cons, Search.gather_cons, hsame]
    dsimp only
    rw [hsame']
    exact ⟨rfl, (hfirst.append hrest).congr fun finding => by simp⟩

end Searches

/-! ### The functions of the search -/

/-- The declarations of a name by a statement. -/
def declarationsOf (name : String) : Stmt → List Node
  | .declares _ declarators => declaratorsOf name declarators
  | statement => unevaluableOf name statement

theorem mem_declarationsOf {name : String} {statement : Stmt} {node : Node} :
    node ∈ declarationsOf name statement ↔ statement.Declares name node := by
  constructor
  · intro h
    cases statement with
    | declares span declarators =>
      obtain ⟨declarator, hmem, rfl⟩ := List.mem_map.1 h
      exact .declarator (List.mem_filter.1 hmem).1 (List.mem_filter.1 hmem).2
    | declaration span kind binds =>
      cases binds with
      | none => cases h
      | some bound =>
        simp only [declarationsOf, unevaluableOf] at h
        split at h
        · rename_i hbound
          rw [List.mem_singleton.1 h, hbound]
          exact .unevaluable
        · cases h
    | _ => cases h
  · intro h
    cases h with
    | declarator hmem hbinds =>
      exact List.mem_map.2 ⟨_, List.mem_filter.2 ⟨hmem, hbinds⟩, rfl⟩
    | unevaluable => simp [declarationsOf, unevaluableOf]

theorem itemCandidates_statement (follow : SourceFile → String → Search (List Node))
    (file : SourceFile) (name : String) (statement : Stmt) :
    project.itemCandidates follow file name (.statement statement) =
      pure (declarationsOf name statement) := by
  cases statement <;> rfl

theorem itemCandidates_exported (follow : SourceFile → String → Search (List Node))
    (file : SourceFile) (name : String) (statement : Stmt) :
    project.itemCandidates follow file name (.exported statement) =
      pure (declarationsOf name statement) := by
  cases statement <;> rfl

theorem exportedByItem_exported (follow : SourceFile → String → Search (List Node))
    (file : SourceFile) (name : String) (statement : Stmt) :
    project.exportedByItem follow file name (.exported statement) =
      pure (declarationsOf name statement) := by
  cases statement <;> rfl

section Rules

variable {bound : Nat} {follow deeper : SourceFile → String → Search (List Node)}
variable (hfollow : ∀ target name, project.Askable target name →
  project.Explores bound (follow target name) (deeper target name) (· = .lead target name))

include hfollow

theorem followTo_explores (file : SourceFile) (source : String) {name : String}
    (hname : name ∈ project.asked) :
    project.Explores bound (project.followTo follow file source name)
      (project.followTo deeper file source name)
      (fun finding => ∃ target, project.target? file source = some target ∧
        finding = .lead target name) := by
  unfold followTo
  cases htarget : project.target? file source with
  | none => exact .pure [] fun finding => by simp
  | some target =>
    exact (hfollow target name ⟨fileAt?_of_target? htarget, hname⟩).congr fun finding => by simp

theorem importCandidates_explores {file : SourceFile} {source : String}
    {specifiers : List ImportSpecifier} (hfile : project.fileAt? file.path = some file)
    (hitem : .imports false source specifiers ∈ file.module.items) (name : String)
    {specifier : ImportSpecifier} (hmem : specifier ∈ specifiers) :
    project.Explores bound (project.importCandidates follow file source name specifier)
      (project.importCandidates deeper file source name specifier)
      (project.Importing file source name specifier) := by
  cases specifier with
  | named typeOnly imported binds =>
    have hasked : imported ∈ project.asked :=
      mem_asked hfile hitem (List.mem_map.2 ⟨_, hmem, rfl⟩)
    exact (followTo_explores hfollow file source hasked).guard.congr
      fun _ => importing_named_iff.symm
  | defaultExport binds =>
    have hasked : "default" ∈ project.asked :=
      mem_asked hfile hitem (List.mem_map.2 ⟨_, hmem, rfl⟩)
    exact (followTo_explores hfollow file source hasked).guard.congr
      fun _ => importing_defaultExport_iff.symm
  | star span binds =>
    exact (Explores.declaration _).congr fun _ => importing_star_iff.symm

theorem itemCandidates_explores {file : SourceFile} {item : ModuleItem}
    (hfile : project.fileAt? file.path = some file) (hitem : item ∈ file.module.items)
    (name : String) :
    project.Explores bound (project.itemCandidates follow file name item)
      (project.itemCandidates deeper file name item) (project.Binding file name item) := by
  cases item with
  | statement statement =>
    rw [itemCandidates_statement, itemCandidates_statement]
    exact .pure _ fun _ => by simp only [binding_statement_iff, mem_declarationsOf]
  | exported statement =>
    rw [itemCandidates_exported, itemCandidates_exported]
    exact .pure _ fun _ => by simp only [binding_exported_iff, mem_declarationsOf]
  | imports typeOnly source specifiers =>
    cases typeOnly with
    | true => exact .none fun _ hfound => by cases hfound
    | false =>
      exact (Explores.gather fun specifier hmem =>
        importCandidates_explores hfollow hfile hitem name hmem).congr
          fun _ => binding_imports_iff.symm
  | exports | exportAll | defaultValue | defaultDeclaration | other =>
    exact .none fun _ hfound => by cases hfound

theorem localCandidates_explores {file : SourceFile}
    (hfile : project.fileAt? file.path = some file) (name : String) :
    project.Explores bound (project.localCandidates follow file name)
      (project.localCandidates deeper file name)
      (fun finding => ∃ item ∈ file.module.items, project.Binding file name item finding) :=
  .gather fun _ hitem => itemCandidates_explores hfollow hfile hitem name

theorem specifierCandidates_explores {file : SourceFile} {source : Option String}
    {specifiers : List ExportSpecifier} (hfile : project.fileAt? file.path = some file)
    (hitem : .exports false source specifiers ∈ file.module.items) (name : String)
    {specifier : ExportSpecifier} (hmem : specifier ∈ specifiers) :
    project.Explores bound (project.specifierCandidates follow file source name specifier)
      (project.specifierCandidates deeper file source name specifier)
      (project.Offering file name source specifier) := by
  cases specifier with
  | named typeOnly given exported =>
    have hasked : given ∈ project.asked :=
      mem_asked hfile hitem (List.mem_map.2 ⟨_, hmem, rfl⟩)
    cases source with
    | some source =>
      exact (followTo_explores hfollow file source hasked).guard.congr
        fun _ => offering_passedOn_iff.symm
    | none =>
      exact (localCandidates_explores hfollow hfile given).guard.congr
        fun _ => offering_own_iff.symm
  | star span exported =>
    exact (Explores.declaration _).congr fun _ => offering_star_iff.symm

/-- The name itself has to be one that is asked for: an export of everything asks its source for
the same name. -/
theorem exportedByItem_explores {file : SourceFile} {item : ModuleItem}
    (hfile : project.fileAt? file.path = some file) (hitem : item ∈ file.module.items)
    {name : String} (hname : name ∈ project.asked) :
    project.Explores bound (project.exportedByItem follow file name item)
      (project.exportedByItem deeper file name item) (project.Exporting file name item) := by
  cases item with
  | exported statement =>
    rw [exportedByItem_exported, exportedByItem_exported]
    exact .pure _ fun _ => by simp only [exporting_exported_iff, mem_declarationsOf]
  | exports typeOnly source specifiers =>
    cases typeOnly with
    | true => exact .none fun _ hfound => by cases hfound
    | false =>
      exact (Explores.gather fun specifier hmem =>
        specifierCandidates_explores hfollow hfile hitem name hmem).congr
          fun _ => exporting_exports_iff.symm
  | exportAll typeOnly source =>
    cases typeOnly with
    | true => exact .none fun _ hfound => by cases hfound
    | false =>
      refine .congr ?_ fun _ => exporting_exportAll_iff.symm
      by_cases hdefault : name = "default"
      · simp only [exportedByItem, if_pos hdefault]
        exact .none fun _ hfound => hfound.1 hdefault
      · simp only [exportedByItem, if_neg hdefault]
        exact (followTo_explores hfollow file source hname).congr fun _ => by simp [hdefault]
  | defaultValue value =>
    exact (Explores.declaration _).congr fun _ => exporting_defaultValue_iff.symm
  | defaultDeclaration span =>
    exact (Explores.declaration _).congr fun _ => exporting_defaultDeclaration_iff.symm
  | statement | imports | other => exact .none fun _ hfound => by cases hfound

end Rules

/-! ### Looking up an export -/

/-- Marking an export and exploring what the rules give for it explores the lead to it. -/
theorem Explored.lead {target : SourceFile} {name : String} {seen marks : List Export}
    {out : List Node} (htarget : project.fileAt? target.path = some target)
    (h : project.Explored
      (fun finding => ∃ item ∈ target.module.items, project.Exporting target name item finding)
      ((target.path, name) :: seen) out marks) :
    project.Explored (· = .lead target name) seen out marks where
  subset := fun _ hkey => h.subset (List.mem_cons_of_mem _ hkey)
  still := fun hnone => absurd rfl (hnone (.lead target name))
  derived := fun node hnode => by
    obtain ⟨finding, ⟨item, hitem, hrule⟩, hder⟩ := h.derived node hnode
    exact ⟨_, rfl, .lead hitem hrule hder⟩
  covered := by
    rintro _ rfl
    exact ⟨htarget, h.subset List.mem_cons_self⟩
  expanded := fun other otherName hother hmark hnew => by
    -- The export itself is expanded by what it covers, any other one by a search below it.
    by_cases hkey : (other.path, otherName) = (target.path, name)
    · obtain ⟨hpath, rfl⟩ := Prod.mk.inj hkey
      rw [hpath, htarget] at hother
      obtain rfl := Option.some.inj hother
      exact fun item hitem finding hrule => h.covered finding ⟨item, hitem, hrule⟩
    · refine h.expanded other otherName hother hmark fun hseen => ?_
      rcases List.mem_cons.1 hseen with hseen | hseen
      · exact hkey hseen
      · exact hnew hseen

/-- By induction on the bound: a nested look-up starts after one more export has been marked. -/
theorem exportCandidates_explores (more : Nat) :
    ∀ (bound : Nat) (target : SourceFile) (name : String), project.Askable target name →
      project.Explores bound (project.exportCandidates bound target name)
        (project.exportCandidates (bound + more) target name) (· = .lead target name)
  | 0, _, _, _ => fun _ hseen => absurd hseen (Nat.not_lt_zero _)
  | bound + 1, target, name, hask => by
    intro seen hseen
    rw [Nat.add_right_comm, exportCandidates_succ, exportCandidates_succ]
    by_cases hmarked : (target.path, name) ∈ seen
    · rw [if_pos hmarked, if_pos hmarked]
      refine ⟨rfl, List.Subset.refl _, fun _ => rfl,
        fun _ hnode => absurd hnode List.not_mem_nil, ?_,
        fun _ _ _ hmark hnew => absurd hmark hnew⟩
      rintro _ rfl
      exact ⟨hask.1, hmarked⟩
    · rw [if_neg hmarked, if_neg hmarked]
      have hfewer : project.unmarked ((target.path, name) :: seen) < bound :=
        Nat.lt_of_lt_of_le (unmarked_cons_lt hask hmarked) (Nat.le_of_lt_succ hseen)
      have hitems := Explores.gather fun item hitem =>
        exportedByItem_explores (exportCandidates_explores more bound) hask.1 hitem hask.2
      obtain ⟨hsame, hexplored⟩ := hitems _ hfewer
      exact ⟨hsame, hexplored.lead hask.1⟩

/-! ### What is derived has been found -/

/-- In a state in which every export marked since `seen` is expanded, a declaration that a covered
finding derives is among the results, unless its derivation leads through an export of `seen`; the
finding then derives all that this export does. -/
theorem mem_or_leads_back {seen marks : List Export} {out : List Node}
    (hexpanded : ∀ target name, project.fileAt? target.path = some target →
      (target.path, name) ∈ marks → (target.path, name) ∉ seen →
      project.Expanded marks out target name)
    {finding : Finding} {node : Node} (hder : project.Derives finding node)
    (hcovered : project.Covered marks out finding) :
    node ∈ out ∨ ∃ target name, project.fileAt? target.path = some target ∧
      (target.path, name) ∈ seen ∧
      ∀ other, project.Derives (.lead target name) other → project.Derives finding other := by
  induction hder with
  | declaration => exact .inl hcovered
  | @lead target name item finding node hitem hrule _ ih =>
    -- The export is marked: either before this search, or it is expanded and the next step of the
    -- derivation is covered again.
    obtain ⟨htarget, hmark⟩ := hcovered
    by_cases hseen : (target.path, name) ∈ seen
    · exact .inr ⟨target, name, htarget, hseen, fun _ hother => hother⟩
    · rcases ih (hexpanded target name htarget hmark hseen item hitem finding hrule) with
        hout | ⟨back, backName, hback, hbackSeen, hall⟩
      · exact .inl hout
      · exact .inr ⟨back, backName, hback, hbackSeen,
          fun other hother => .lead hitem hrule (hall other hother)⟩

/-- A search from no marks finds exactly what its findings derive. -/
theorem Explored.mem_iff {found : Finding → Prop} {marks : List Export} {out : List Node}
    (h : project.Explored found [] out marks) (node : Node) :
    node ∈ out ↔ ∃ finding, found finding ∧ project.Derives finding node := by
  constructor
  · exact h.derived node
  · rintro ⟨finding, hfound, hder⟩
    rcases mem_or_leads_back h.expanded hder (h.covered finding hfound) with
      hout | ⟨_, _, _, hseen, _⟩
    · exact hout
    · exact absurd hseen List.not_mem_nil

/-- The search from a name of a file, results and marks, is the same under every larger bound, and
its results are what the rules bind the name to. -/
theorem localCandidates_of_searchBound {file : SourceFile}
    (hfile : project.fileAt? file.path = some file) (name : String) (more : Nat) :
    let search (bound : Nat) :=
      project.localCandidates (project.exportCandidates bound) file name []
    search (project.searchBound + more) = search project.searchBound ∧
      ∀ node, node ∈ (search project.searchBound).1 ↔ project.Binds file name node := by
  obtain ⟨hsame, hexplored⟩ := localCandidates_explores
    (exportCandidates_explores more project.searchBound) hfile name [] (unmarked_lt_searchBound [])
  refine ⟨hsame, fun node => (hexplored.mem_iff node).trans ?_⟩
  constructor
  · rintro ⟨finding, ⟨item, hitem, hrule⟩, hder⟩
    exact ⟨item, hitem, finding, hrule, hder⟩
  · rintro ⟨item, hitem, finding, hrule, hder⟩
    exact ⟨finding, ⟨item, hitem, hrule⟩, hder⟩

/-! ### Occurrences of names -/

theorem candidates_of_fileAt? {ident : Ident} {file : SourceFile}
    (hfile : project.fileAt? ident.span.file = some file) :
    project.candidates ident =
      (project.localCandidates (project.exportCandidates project.searchBound) file ident.name
        []).1 := by
  rw [candidates, hfile]

theorem mem_candidates {ident : Ident} {node : Node} :
    node ∈ project.candidates ident ↔ project.Declares ident node := by
  cases hfile : project.fileAt? ident.span.file with
  | none =>
    have hempty : project.candidates ident = [] := by rw [candidates, hfile]
    rw [hempty]
    exact ⟨fun h => absurd h List.not_mem_nil, fun ⟨_, h, _⟩ => by rw [hfile] at h; cases h⟩
  | some file =>
    rw [candidates_of_fileAt? hfile,
      (localCandidates_of_searchBound (fileAt?_path hfile) ident.name 0).2 node]
    constructor
    · exact fun hbinds => ⟨file, hfile, hbinds⟩
    · rintro ⟨other, hother, hbinds⟩
      rw [hfile] at hother
      obtain rfl := Option.some.inj hother
      exact hbinds

/-- A name without a binding in the scope is looked up once, and its first declaration evaluated
without bindings. -/
theorem evalName_of_candidates {ident : Ident} {first : Node} {rest : List Node}
    {scope : Scope Value} (hcandidates : project.candidates ident = first :: rest)
    (hname : ident.name ≠ "undefined") (hscope : scope.lookup? ident.name = none)
    (visit : Scope Value → Node → Eval Value) :
    evalName project.definitions visit scope ident = visit .root first := by
  have hdefinitions : project.definitions.candidates ident = first :: rest := hcandidates
  simp only [evalName, if_neg hname, hscope, hdefinitions]

/-- **Resolution is the finite derivations.** Whatever circles imports and re-exports run in: no
search is ended by the bound on its depth; the candidates of an occurrence are exactly the
declarations that the rules derive for it; and if there is one, evaluation goes on with one. -/
theorem mem_candidates_iff_declares (project : Project) (ident : Ident) :
    (∀ file more, project.fileAt? ident.span.file = some file →
      let search (bound : Nat) :=
        project.localCandidates (project.exportCandidates bound) file ident.name []
      search (project.searchBound + more) = search project.searchBound ∧
        (search project.searchBound).1 = project.candidates ident) ∧
    (∀ node, node ∈ project.candidates ident ↔ project.Declares ident node) ∧
    ∀ visit (scope : Scope Value), ident.name ≠ "undefined" → scope.lookup? ident.name = none →
      (∃ node, project.Declares ident node) →
      ∃ first, project.Declares ident first ∧
        evalName project.definitions visit scope ident = visit .root first := by
  refine ⟨fun file more hfile => ?_, fun node => mem_candidates, ?_⟩
  · exact ⟨(localCandidates_of_searchBound (fileAt?_path hfile) ident.name more).1,
      (candidates_of_fileAt? hfile).symm⟩
  · rintro visit scope hname hscope ⟨node, hnode⟩
    cases hcandidates : project.candidates ident with
    | nil =>
      rw [← mem_candidates, hcandidates] at hnode
      exact absurd hnode List.not_mem_nil
    | cons first rest =>
      have hfirst : first ∈ project.candidates ident := hcandidates ▸ List.mem_cons_self
      exact ⟨first, mem_candidates.1 hfirst, evalName_of_candidates hcandidates hname hscope visit⟩

end Project

end StaticConfig
