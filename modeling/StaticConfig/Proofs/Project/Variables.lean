import StaticConfig.Proofs.Evaluation.Reference
import StaticConfig.Proofs.Project.SourceOrder
import StaticConfig.Proofs.Snippet

/-!
# Variables as declarations

The variable that a caller asks for by its name, and the one that an occurrence of the name refers
to, are looked for in different ways: the first among the variables of the module alone, the second
among all that may bind a name. Where nothing but variables binds the name they are the same, the
first of its variables in source order, and both lead to the same value.

- `Module.variables`: the top-level variables of a module, exported or not;
- `candidates_of_bindsOnlyVariables`: what an occurrence of such a name may refer to;
- `variable_found_alike`: the two ways to a variable, and evaluation along them.
-/

namespace StaticConfig

/-! ### Names that only variables bind -/

/-- The name that an import specifier binds when the module runs. -/
def ImportSpecifier.runtimeName? : ImportSpecifier → Option String
  | .named true _ _ => none
  | .named false _ binds | .defaultExport binds | .star _ binds => some binds

/-- The name of a function, class or enumeration. -/
def Stmt.otherNames : Stmt → List String
  | .declaration _ _ binds => binds.toList
  | _ => []

/-- The names that an item binds in any other way than as variables: by an import, or as those of
functions, classes or enumerations. -/
def ModuleItem.otherNames : ModuleItem → List String
  | .statement s | .exported s => s.otherNames
  | .imports false _ specifiers => specifiers.filterMap ImportSpecifier.runtimeName?
  | _ => []

/-- An exported statement has the same variables as the statement alone. -/
theorem ModuleItem.declarators?_exported (statement : Stmt) :
    (exported statement).declarators? = (ModuleItem.statement statement).declarators? := by
  cases statement <;> rfl

/-- Whether nothing but variables binds a name in a module. -/
def Module.BindsOnlyVariables (m : Module) (name : String) : Prop :=
  ∀ item ∈ m.items, name ∉ item.otherNames

/-- The top-level variables of a module in source order, exported or not. -/
def Module.variables (m : Module) : List Declarator :=
  m.items.flatMap fun item => item.declarators?.getD []

theorem Module.declarator?_eq_head? (m : Module) (name : String) :
    m.declarator? name = (m.variables.filter (·.binds name)).head? :=
  List.head?_filter.symm

/-! ### What occurrences refer to -/

theorem declaratorsOf_flatMap {α : Type} (name : String) (things : List α)
    (declarators : α → List Declarator) :
    declaratorsOf name (things.flatMap declarators) =
      things.flatMap fun thing => declaratorsOf name (declarators thing) := by
  simp only [declaratorsOf, List.filter_flatMap, List.map_flatMap]

namespace Project

variable {project : Project} {follow : SourceFile → String → Search (List Node)}

theorem declarationsOf_of_not_mem_otherNames {statement : Stmt} {name : String}
    (h : name ∉ statement.otherNames) :
    declarationsOf name statement =
      declaratorsOf name ((ModuleItem.statement statement).declarators?.getD []) := by
  cases statement with
  | declaration span kind binds =>
    cases binds with
    | none => rfl
    | some bound => exact if_neg fun hbound => h (by simp [Stmt.otherNames, hbound])
  | _ => rfl

theorem importCandidates_quiet {file : SourceFile} {source name : String}
    {specifier : ImportSpecifier} (h : specifier.runtimeName? ≠ some name) (seen : List Export) :
    project.importCandidates follow file source name specifier seen = ([], seen) := by
  cases specifier with
  | named typeOnly imported binds =>
    cases typeOnly with
    | true => rfl
    | false =>
      have hbinds : binds ≠ name := fun hbinds => h (congrArg some hbinds)
      simp only [importCandidates, beq_eq_false_iff_ne.2 hbinds, Bool.and_false]
      rfl
  | defaultExport binds =>
    have hbinds : binds ≠ name := fun hbinds => h (congrArg some hbinds)
    simp only [importCandidates, if_neg hbinds]
    rfl
  | star span binds =>
    have hbinds : binds ≠ name := fun hbinds => h (congrArg some hbinds)
    simp only [importCandidates, if_neg hbinds]
    rfl

theorem itemCandidates_of_not_mem_otherNames {file : SourceFile} {name : String} {item : ModuleItem}
    (h : name ∉ item.otherNames) (seen : List Export) :
    project.itemCandidates follow file name item seen =
      (declaratorsOf name (item.declarators?.getD []), seen) := by
  cases item with
  | statement statement =>
    rw [itemCandidates_statement, declarationsOf_of_not_mem_otherNames h]
    rfl
  | exported statement =>
    rw [itemCandidates_exported, declarationsOf_of_not_mem_otherNames h,
      ModuleItem.declarators?_exported]
    rfl
  | imports typeOnly source specifiers =>
    cases typeOnly with
    | true => rfl
    | false =>
      refine Search.gather_quiet (fun specifier hmem seen => ?_) seen
      exact importCandidates_quiet (fun hname => h (List.mem_filterMap.2 ⟨_, hmem, hname⟩)) seen
  | _ => rfl

theorem localCandidates_of_bindsOnlyVariables {file : SourceFile} {name : String}
    (h : file.module.BindsOnlyVariables name) (seen : List Export) :
    project.localCandidates follow file name seen =
      (declaratorsOf name file.module.variables, seen) := by
  rw [localCandidates, Module.variables, declaratorsOf_flatMap]
  exact Search.gather_of_still
    (fun item hitem => itemCandidates_of_not_mem_otherNames (h item hitem)) seen

theorem candidates_of_bindsOnlyVariables {file : SourceFile} (hfile : file ∈ project.files)
    {ident : Ident} (hplace : ident.span.file = file.path)
    (h : file.module.BindsOnlyVariables ident.name) :
    project.candidates ident = declaratorsOf ident.name file.module.variables := by
  have hat : project.fileAt? ident.span.file = some file :=
    fileAt?_eq_some_iff.2 ⟨hfile, hplace.symm⟩
  rw [candidates_of_fileAt? hat, localCandidates_of_bindsOnlyVariables h]

/-- **Both ways lead to the same variable.** If nothing but variables binds a name in a file, then
the occurrences of the name there refer to its variables in source order, and asking for the name
finds the first of these if there is one. Unless the name is `undefined`, evaluating the variable
that is found and evaluating an occurrence under a limit that is higher by one draw the same tags
and end in the same value, or in the same fault up to the limit that it reports and a parent that is
only quoted at the occurrence. -/
theorem variable_found_alike (project : Project) {file : SourceFile} (hfile : file ∈ project.files)
    {name : String} (hname : file.module.BindsOnlyVariables name) :
    let named := file.module.variables.filter (·.binds name)
    file.module.declarator? name = named.head? ∧
    ∀ ident, ident.name = name → ident.span.file = file.path →
      project.candidates ident = named.map .declarator ∧
      (file.module.declarator? name).map .declarator = (project.candidates ident).head? ∧
      ∀ declarator, file.module.declarator? name = some declarator → name ≠ "undefined" →
        ∀ limit supply, ∃ result outcome after,
          ((project.evaluator limit).eval .root (.declarator declarator)).run ⟨[], supply⟩ =
            (result, ⟨[], after⟩) ∧
          ((project.evaluator (limit + 1)).eval .root (.expr (.identifier ident))).run
            ⟨[], supply⟩ = (outcome, ⟨[], after⟩) ∧
          Outcome.FurtherIn project.definitions ident.span limit result outcome := by
  intro named
  have hfound : file.module.declarator? name = named.head? :=
    file.module.declarator?_eq_head? name
  refine ⟨hfound, ?_⟩
  rintro ident rfl hplace
  have hcandidates : project.candidates ident = named.map .declarator :=
    candidates_of_bindsOnlyVariables hfile hplace hname
  refine ⟨hcandidates, ?_, fun declarator hdeclarator hdefined limit supply => ?_⟩
  · rw [hfound, hcandidates, List.head?_map]
  · rw [hfound, List.head?_eq_some_iff] at hdeclarator
    obtain ⟨rest, hnamed⟩ := hdeclarator
    rw [hnamed, List.map_cons] at hcandidates
    exact eval_of_candidates hdefined hcandidates limit supply

/-! ### A variable that is declared twice -/

namespace Twice

open Snippet (path place)

/-- The name `x` in `y = x`. -/
def occurrence : Ident := ⟨"x", place 19 20⟩

/-- The first declarator, `x = new X`. -/
def first : Declarator := .mk (place 4 13) (some "x") (some (.other (place 8 13) .newExpression))

/-- The last declarator, `x = 2`. -/
def last : Declarator :=
  .mk (place 33 38) (some "x") (some (.number (place 37 38) (.ofNat 2)))

def main : SourceFile where
  path := path "main.ts"
  text := "var x = new X, y = x;\nexport var x = 2;"
  module := ⟨[.statement (.declares (place 0 21)
      [first, .mk (place 15 20) (some "y") (some (.identifier occurrence))]),
    .exported (.declares (place 29 39) [last])]⟩
  targets := []

def sample : Project := Project.empty.add main [] rfl

/-- The declarator takes two steps and the occurrence takes three, so limits of one and two are what
they stop at. -/
theorem variable_found_alike_twice :
    main ∈ sample.files ∧ main.module.BindsOnlyVariables "x" ∧
      sample.candidates occurrence = [.declarator first, .declarator last] ∧
      main.module.declarator? "x" = some first ∧
      ((sample.evaluator 1).eval .root (.declarator first)).run ⟨[], 0⟩ =
        (.error (.recursionLimit 1), ⟨[], 0⟩) ∧
      ((sample.evaluator 2).eval .root (.expr (.identifier occurrence))).run ⟨[], 0⟩ =
        (.error (.recursionLimit 2), ⟨[], 0⟩) := by
  have hfile : main ∈ sample.files := List.mem_singleton_self main
  have hname : main.module.BindsOnlyVariables "x" := by
    unfold Module.BindsOnlyVariables
    decide
  have hfirst : ((sample.evaluator 1).eval .root (.declarator first)).run ⟨[], 0⟩ =
      (.error (.recursionLimit 1), ⟨[], 0⟩) := rfl
  obtain ⟨hfound, hoccurrences⟩ := variable_found_alike sample hfile hname
  obtain ⟨hcandidates, -, heval⟩ := hoccurrences occurrence rfl rfl
  obtain ⟨result, outcome, after, hrun, hother, houtcome⟩ := heval first hfound (by decide) 1 0
  have hsame : (result, (⟨[], after⟩ : Machine)) = (.error (.recursionLimit 1), ⟨[], 0⟩) :=
    hrun.symm.trans hfirst
  cases hsame
  refine ⟨hfile, hname, hcandidates, hfound, hfirst, ?_⟩
  cases houtcome with
  | error hfault =>
    cases hfault with
    | same hlocal => cases hlocal
    | exceeded => exact hother

end Twice

end Project

end StaticConfig
