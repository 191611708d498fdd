import StaticConfig.Extract
import StaticConfig.Proofs.Evaluation.Simulation.Same
import StaticConfig.Proofs.Project.Search
import StaticConfig.Proofs.Snippet

/-!
# Projects without wrappers

Parentheses and the type wrappers have no meaning: a project whose files have all lost them, at any
depth, evaluates to the same. Only the limit can tell the projects apart, since every wrapper takes
a step, and the texts that faults quote.

- `Project.candidates_unwrap`: a name finds the same declarations, without their wrappers;
- `Value.Unwrapped`: the same value, but for wrappers in the code of arrow functions;
- `Project.evaluate_unwrap`: evaluation of a symbol, whichever wrappers are taken away.
-/

namespace StaticConfig

open List (Forall₂)

/-- The file with other text and a module without the wrappers that `drop` picks. -/
def SourceFile.unwrap (drop : Wrapper → Bool) (text : SourceFile → String) (file : SourceFile) :
    SourceFile :=
  { file with text := text file, module := file.module.unwrap drop }

/-- The project without the wrappers that `drop` picks in any of its files. What the texts of the
files are does not matter. -/
def Project.unwrap (drop : Wrapper → Bool) (text : SourceFile → String) (project : Project) :
    Project where
  files := project.files.map (SourceFile.unwrap drop text)
  byPath := project.byPath
  warnings := project.warnings
  indexed path place := by
    rw [project.indexed path place, List.getElem?_map, Option.map_map]
    rfl

/-! ### Searches -/

section Search

variable {drop : Wrapper → Bool}

/-- `other` finds what `search` finds without the wrappers, and marks the same exports. -/
def Search.Unwraps (drop : Wrapper → Bool) (search other : Search (List Node)) : Prop :=
  ∀ seen, other seen = ((search seen).1.map (Node.unwrap drop), (search seen).2)

theorem Search.Unwraps.pure {nodes others : List Node}
    (h : others = nodes.map (Node.unwrap drop)) :
    Search.Unwraps drop (pure nodes) (pure others) := fun _ => by rw [h]; rfl

theorem Search.Unwraps.gather {α β : Type} {things : List α} {others : List β}
    {search : α → Search (List Node)} {other : β → Search (List Node)}
    (h : Forall₂ (fun thing thing' => Unwraps drop (search thing) (other thing')) things others) :
    Unwraps drop (.gather things search) (.gather others other) := by
  intro seen
  induction h generalizing seen with
  | nil => rfl
  | cons hhead _ ih =>
    rw [gather_cons, gather_cons, hhead seen]
    simp only [ih, List.map_append]

theorem Search.Unwraps.gather_same {α : Type} {things : List α}
    {search other : α → Search (List Node)}
    (h : ∀ thing, Unwraps drop (search thing) (other thing)) :
    Unwraps drop (.gather things search) (.gather things other) :=
  .gather (List.forall₂_same.2 fun thing _ => h thing)

theorem Declarator.binds_unwrap (declarator : Declarator) (name : String) :
    (declarator.unwrap drop).binds name = declarator.binds name := by
  cases declarator
  rfl

theorem declaratorsOf_unwrap (name : String) (declarators : List Declarator) :
    declaratorsOf name (declarators.map (Declarator.unwrap drop)) =
      (declaratorsOf name declarators).map (Node.unwrap drop) := by
  unfold declaratorsOf
  simp only [List.filter_map, Function.comp_def, Declarator.binds_unwrap, List.map_map, Node.unwrap]

theorem Project.declarationsOf_unwrap (name : String) (statement : Stmt) :
    declarationsOf name (statement.unwrap drop) =
      (declarationsOf name statement).map (Node.unwrap drop) := by
  cases statement with
  | declares span declarators =>
    rw [Stmt.unwrap, unwrapDeclarators_eq]
    exact declaratorsOf_unwrap name declarators
  | declaration span kind binds =>
    cases binds with
    | none => rfl
    | some binds =>
      simp only [Stmt.unwrap, declarationsOf, unevaluableOf]
      split <;> rfl
  | _ => rfl

end Search

namespace Project

variable (drop : Wrapper → Bool) (text : SourceFile → String) (project : Project)

theorem fileAt?_unwrap (path : Path) :
    (project.unwrap drop text).fileAt? path =
      (project.fileAt? path).map (SourceFile.unwrap drop text) := by
  unfold fileAt?
  show (project.byPath.lookup path).bind (fun place => (project.files.map _)[place]?) = _
  cases project.byPath.lookup path with
  | none => rfl
  | some place => exact List.getElem?_map ..

theorem target?_unwrap (file : SourceFile) (specifier : String) :
    (project.unwrap drop text).target? (file.unwrap drop text) specifier =
      (project.target? file specifier).map (SourceFile.unwrap drop text) := by
  unfold target?
  show (file.targets.lookup specifier).bind _ = _
  cases file.targets.lookup specifier with
  | none => rfl
  | some path => exact project.fileAt?_unwrap drop text path

section Rules

variable {drop text project} {follow other : SourceFile → String → Search (List Node)}
variable (hfollow : ∀ target name,
  Search.Unwraps drop (follow target name) (other (target.unwrap drop text) name))

include hfollow

theorem followTo_unwraps (file : SourceFile) (specifier name : String) :
    Search.Unwraps drop (project.followTo follow file specifier name)
      ((project.unwrap drop text).followTo other (file.unwrap drop text) specifier name) := by
  unfold followTo
  rw [target?_unwrap]
  cases project.target? file specifier with
  | none => exact .pure rfl
  | some target => exact hfollow target name

theorem importCandidates_unwraps (file : SourceFile) (source name : String)
    (specifier : ImportSpecifier) :
    Search.Unwraps drop (project.importCandidates follow file source name specifier)
      ((project.unwrap drop text).importCandidates other (file.unwrap drop text) source name
        specifier) := by
  cases specifier with
  | named =>
    simp only [importCandidates]
    split
    · exact followTo_unwraps hfollow file source _
    · exact .pure rfl
  | defaultExport =>
    simp only [importCandidates]
    split
    · exact followTo_unwraps hfollow file source _
    · exact .pure rfl
  | star =>
    refine .pure ?_
    split <;> rfl

theorem itemCandidates_unwraps (file : SourceFile) (name : String) (item : ModuleItem) :
    Search.Unwraps drop (project.itemCandidates follow file name item)
      ((project.unwrap drop text).itemCandidates other (file.unwrap drop text) name
        (item.unwrap drop)) := by
  cases item with
  | statement statement =>
    rw [ModuleItem.unwrap, itemCandidates_statement, itemCandidates_statement]
    exact .pure (declarationsOf_unwrap name statement)
  | exported statement =>
    rw [ModuleItem.unwrap, itemCandidates_exported, itemCandidates_exported]
    exact .pure (declarationsOf_unwrap name statement)
  | imports typeOnly source specifiers =>
    cases typeOnly with
    | true => exact .pure rfl
    | false =>
      exact .gather_same fun specifier =>
        importCandidates_unwraps hfollow file source name specifier
  | exports | exportAll | defaultValue | defaultDeclaration | other => exact .pure rfl

theorem localCandidates_unwraps (file : SourceFile) (name : String) :
    Search.Unwraps drop (project.localCandidates follow file name)
      ((project.unwrap drop text).localCandidates other (file.unwrap drop text) name) := by
  refine .gather ?_
  show Forall₂ _ _ (file.module.items.map (ModuleItem.unwrap drop))
  exact List.forall₂_map_right_iff.2 (List.forall₂_same.2 fun item _ =>
    itemCandidates_unwraps hfollow file name item)

theorem specifierCandidates_unwraps (file : SourceFile) (source : Option String) (name : String)
    (specifier : ExportSpecifier) :
    Search.Unwraps drop (project.specifierCandidates follow file source name specifier)
      ((project.unwrap drop text).specifierCandidates other (file.unwrap drop text) source name
        specifier) := by
  cases specifier with
  | named =>
    simp only [specifierCandidates]
    split
    · cases source with
      | none => exact localCandidates_unwraps hfollow file _
      | some source => exact followTo_unwraps hfollow file source _
    · exact .pure rfl
  | star =>
    refine .pure ?_
    split <;> rfl

theorem exportedByItem_unwraps (file : SourceFile) (name : String) (item : ModuleItem) :
    Search.Unwraps drop (project.exportedByItem follow file name item)
      ((project.unwrap drop text).exportedByItem other (file.unwrap drop text) name
        (item.unwrap drop)) := by
  cases item with
  | exported statement =>
    rw [ModuleItem.unwrap, exportedByItem_exported, exportedByItem_exported]
    exact .pure (declarationsOf_unwrap name statement)
  | exports typeOnly source specifiers =>
    cases typeOnly with
    | true => exact .pure rfl
    | false =>
      exact .gather_same fun specifier =>
        specifierCandidates_unwraps hfollow file source name specifier
  | exportAll typeOnly source =>
    cases typeOnly with
    | true => exact .pure rfl
    | false =>
      simp only [ModuleItem.unwrap, exportedByItem]
      split
      · exact .pure rfl
      · exact followTo_unwraps hfollow file source name
  | defaultValue | defaultDeclaration =>
    refine .pure ?_
    split <;> rfl
  | statement | imports | other => exact .pure rfl

end Rules

theorem exportCandidates_unwraps (bound : Nat) (file : SourceFile) (name : String) :
    Search.Unwraps drop (project.exportCandidates bound file name)
      ((project.unwrap drop text).exportCandidates bound (file.unwrap drop text) name) := by
  induction bound generalizing file name with
  | zero => exact .pure rfl
  | succ bound ih =>
    intro seen
    rw [exportCandidates_succ, exportCandidates_succ]
    show (if (file.path, name) ∈ seen then _ else _) = _
    split
    · rfl
    · refine Search.Unwraps.gather ?_ _
      show Forall₂ _ _ (file.module.items.map (ModuleItem.unwrap drop))
      exact List.forall₂_map_right_iff.2 (List.forall₂_same.2 fun item _ =>
        exportedByItem_unwraps ih file name item)

theorem searchBound_unwrap :
    (project.unwrap drop text).searchBound = project.searchBound := by
  have hasked (item : ModuleItem) : namesAsked (item.unwrap drop) = namesAsked item := by
    cases item <;> rfl
  simp only [searchBound, unwrap, SourceFile.unwrap, Module.unwrap, List.length_map,
    List.flatMap_map, hasked]

/-- A name may refer to the same declarations as before, without their wrappers. -/
theorem candidates_unwrap (ident : Ident) :
    (project.unwrap drop text).candidates ident =
      (project.candidates ident).map (Node.unwrap drop) := by
  unfold candidates
  rw [fileAt?_unwrap, searchBound_unwrap]
  cases project.fileAt? ident.span.file with
  | none => rfl
  | some file =>
    have hfollow := project.exportCandidates_unwraps drop text project.searchBound
    exact congrArg Prod.fst (localCandidates_unwraps hfollow file ident.name [])

theorem declarator?_unwrap (m : Module) (name : String) :
    (m.unwrap drop).declarator? name = (m.declarator? name).map (Declarator.unwrap drop) := by
  have hitem (item : ModuleItem) : (item.unwrap drop).declarators?.getD [] =
      (item.declarators?.getD []).map (Declarator.unwrap drop) := by
    cases item with
    | statement statement | exported statement =>
      cases statement with
      | declares _ declarators => exact unwrapDeclarators_eq drop declarators
      | _ => rfl
    | _ => rfl
  simp only [Module.declarator?, Module.unwrap, List.flatMap_map, hitem, ← List.map_flatMap,
    List.find?_map, Function.comp_def, Declarator.binds_unwrap]

theorem declaration_unwrap (spelling name : String) :
    (project.unwrap drop text).declaration spelling name =
      (project.declaration spelling name).map (Declarator.unwrap drop) := by
  unfold declaration file?
  rw [fileAt?_unwrap]
  cases project.fileAt? (Path.ofText spelling).normalize with
  | none => rfl
  | some file =>
    simp only [Option.map_some, SourceFile.unwrap, declarator?_unwrap]
    cases file.module.declarator? name <;> rfl

end Project

/-! ### Evaluation -/

/-- Faults that are the same but for the texts they quote. -/
inductive Fault.SameButQuotes : Fault → Fault → Prop
  | construct (kind : Kind) (text text' : String) (parent parent' : Option String) :
    SameButQuotes (.unsupportedConstruct kind text parent)
      (.unsupportedConstruct kind text' parent')
  | same (fault : Fault) : SameButQuotes fault fault

/-- Values with the same tags, of which the second ones have code without wrappers. -/
def Pairing.unwrapping (drop : Wrapper → Bool) : Pairing where
  tags := (· = ·)
  drop := drop
  admits _ _ := True
  tags_unique := Numbering.same.tags_unique
  admits_allowed _ := trivial

/-- The same value, but for the wrappers that `drop` picks in the code of arrow functions. -/
def Value.Unwrapped (drop : Wrapper → Bool) : Value → Value → Prop :=
  Value.Paired (.unwrapping drop)

/-- The simulation of a project by the one without the wrappers. -/
def Project.unwrapping (drop : Wrapper → Bool) (text : SourceFile → String) (project : Project) :
    Simulation where
  toPairing := .unwrapping drop
  left := project.definitions
  right := (project.unwrap drop text).definitions
  faults := Fault.SameButQuotes
  supplies := Numbering.same.supplies
  supplies_succ := Numbering.same.supplies_succ
  tags_of_supplies := Numbering.same.tags_of_supplies
  candidates := project.candidates_unwrap drop text
  constructs _ _ _ _ _ := .construct ..
  faults_self _ := .same _

/-- What evaluating a symbol comes to before and after the wrappers are taken away. -/
inductive SameUnwrapped (drop : Wrapper → Bool) :
    Except ExtractFault Value → Except ExtractFault Value → Prop
  | value {v w : Value} : v.Unwrapped drop w → SameUnwrapped drop (.ok v) (.ok w)
  | evaluation {fault fault' : Fault} : fault.SameButQuotes fault' →
    SameUnwrapped drop (.error (.evaluation fault)) (.error (.evaluation fault'))
  | project (fault : ProjectFault) :
    SameUnwrapped drop (.error (.project fault)) (.error (.project fault))

/-- **Wrappers are erasable.** Whichever kinds of wrappers are taken away, at any depth and in every
file: what a symbol evaluates to stays the same, the code of arrow functions without the wrappers
like that of the project, and so does the fault up to what it quotes. Only a run that stops at the
limit may come further without the wrappers. -/
theorem Project.evaluate_unwrap (project : Project) (drop : Wrapper → Bool)
    (text : SourceFile → String) (file symbol : String) (limit : Nat)
    (hends : ∀ reached,
      project.evaluate file symbol limit ≠ .error (.evaluation (.recursionLimit reached))) :
    SameUnwrapped drop (project.evaluate file symbol limit)
      ((project.unwrap drop text).evaluate file symbol limit) := by
  have hignores : (project.unwrapping drop text).Ignores limit .silent :=
    Simulation.ignores_silent fun _ _ => .same _
  have hsteps : limit - ([] : List Span).length < limit + 1 := Nat.lt_succ_self _
  unfold Project.evaluate at hends ⊢
  rw [declaration_unwrap]
  generalize project.declaration file symbol = found at hends ⊢
  cases found with
  | error fault => exact .project fault
  | ok declarator =>
    have hfollows := evaluate_follows hignores (Simulation.trails_refl []) rfl hsteps
      Scope.paired_root (.declarator declarator)
    obtain ⟨result, after, hstep, hother⟩ := hfollows 0 0 rfl
    have hplain : ((project.evaluator limit).eval .root (.declarator declarator)).run .start =
        (result, ⟨[], after⟩) := hstep
    dsimp only [Except.map] at hends ⊢
    rw [hplain] at hends ⊢
    -- Apart from the limit, the run without wrappers follows, and no one observes it.
    rcases hother with ⟨_, ⟨_, reached, rfl⟩, rfl⟩ | ⟨outcome, after', _, hother, -, -, houtcome⟩
    · exact absurd rfl (hends reached)
    · have hunwrapped : (((project.unwrap drop text).evaluator limit).eval .root
          (.declarator (declarator.unwrap drop))).run .start = (outcome, ⟨[], after'⟩) :=
        (evaluateObserved_silent _ limit .start hsteps .root _).symm.trans hother
      rw [hunwrapped]
      cases houtcome with
      | ok hvalue => exact .value hvalue
      | error hfault => exact .evaluation hfault

/-! ### An arrow function in parentheses -/

namespace Parenthesized

open Snippet (path place)

/-- A project of the one line `const check = (() => (true));`. -/
def project : Project :=
  let body : Expr := .wrapped (place 21 27) .parentheses (.bool (place 22 26) true)
  let arrow : Expr := .arrow (place 15 27) false [] (.value body)
  let init : Expr := .wrapped (place 14 28) .parentheses arrow
  let declaration : Stmt := .declares (place 0 29) [.mk (place 6 28) (some "check") (some init)]
  Project.empty.add ⟨path "main.ts", "const check = (() => (true));", ⟨[.statement declaration]⟩, []⟩ [] rfl

/-- The line without its parentheses. -/
def bare (_ : SourceFile) : String := "const check = () => true;"

/-- The arrow function loses the parentheses in its body; nothing shows in its tag and scope. -/
theorem evaluate_check_unwrap :
    ∃ v w, project.evaluate "main.ts" "check" 8 = .ok v ∧
      (project.unwrap (fun _ => true) bare).evaluate "main.ts" "check" 8 = .ok w ∧
      w = .closure 0 ⟨place 15 27, [], .value (.bool (place 22 26) true)⟩ .root ∧
      v.Unwrapped (fun _ => true) w := by
  have hends : ∀ reached, project.evaluate "main.ts" "check" 8 ≠
      .error (.evaluation (.recursionLimit reached)) := nofun
  have hsame := project.evaluate_unwrap (fun _ => true) bare "main.ts" "check" 8 hends
  refine ⟨_, _, rfl, rfl, rfl, ?_⟩
  cases hsame with
  | value h => exact h

end Parenthesized

end StaticConfig
