import StaticConfig.Evaluation.Evaluate
import StaticConfig.Project.Basic

/-!
# Name resolution

`Project.candidates` finds the declarations that a name may refer to: the top-level declarations of
its file, and through imports the exports of other files. Exports may lead on to further files, in
circles too, so a search marks every export that it has looked up and looks it up only once.
Statements and specifiers of types never count.
-/

namespace StaticConfig

/-- An export of a file: the path and the exported name. -/
abbrev Export := Path × String

/-- A search that marks the exports it has looked up. -/
abbrev Search (α : Type) : Type := StateM (List Export) α

/-- What a search finds for each of some things, one after the other. -/
def Search.gather {α : Type} (things : List α) (search : α → Search (List Node)) :
    Search (List Node) :=
  return (← things.mapM search).flatten

/-- What is found comes in the order of the things, and each search goes on from the marks that
the ones before it left. -/
theorem Search.gather_cons {α : Type} (thing : α) (rest : List α)
    (search : α → Search (List Node)) (seen : List Export) :
    gather (thing :: rest) search seen =
      let first := search thing seen
      (first.1 ++ (gather rest search first.2).1, (gather rest search first.2).2) := by
  unfold gather
  rw [List.mapM_cons]
  rfl

/-- The declarators of a name, as nodes. -/
def declaratorsOf (name : String) (declarators : List Declarator) : List Node :=
  (declarators.filter (·.binds name)).map .declarator

/-- A statement that declares a name without a value in the sub-language. -/
def unevaluableOf (name : String) : Stmt → List Node
  | .declaration span kind (some binds) => if binds = name then [.unevaluable span kind] else []
  | _ => []

namespace Project

section Rules

variable (project : Project) (follow : SourceFile → String → Search (List Node))

/-- Looks up an export of the file that a specifier means. -/
def followTo (file : SourceFile) (specifier name : String) : Search (List Node) :=
  match project.target? file specifier with
  | some target => follow target name
  | none => return []

/-- The declarations of a name by an import specifier. -/
def importCandidates (file : SourceFile) (source name : String) :
    ImportSpecifier → Search (List Node)
  | .named typeOnly imported binds =>
    if !typeOnly && binds == name then project.followTo follow file source imported else return []
  | .defaultExport binds =>
    if binds = name then project.followTo follow file source "default" else return []
  | .star span binds => return if binds = name then [.unevaluable span .namespaceImport] else []

/-- The declarations of a name by a top-level item. -/
def itemCandidates (file : SourceFile) (name : String) : ModuleItem → Search (List Node)
  | .statement (.declares _ declarators) | .exported (.declares _ declarators) =>
    return declaratorsOf name declarators
  | .statement statement | .exported statement => return unevaluableOf name statement
  | .imports false source specifiers =>
    .gather specifiers (project.importCandidates follow file source name)
  | _ => return []

/-- The declarations of a name in the top-level scope of a file, in source order. -/
def localCandidates (file : SourceFile) (name : String) : Search (List Node) :=
  .gather file.module.items (project.itemCandidates follow file name)

/-- The declarations behind an exported name by an export specifier. -/
def specifierCandidates (file : SourceFile) (source : Option String) (name : String) :
    ExportSpecifier → Search (List Node)
  | .named typeOnly given exported =>
    if !typeOnly && exported == name then
      match source with
      | some source => project.followTo follow file source given
      | none => project.localCandidates follow file given
    else return []
  | .star span exported =>
    return if exported = name then [.unevaluable span .namespaceExport] else []

/-- The declarations behind an exported name by a top-level item. A default export does not pass
through an export of everything. -/
def exportedByItem (file : SourceFile) (name : String) : ModuleItem → Search (List Node)
  | .exported (.declares _ declarators) => return declaratorsOf name declarators
  | .exported statement => return unevaluableOf name statement
  | .exports false source specifiers =>
    .gather specifiers (project.specifierCandidates follow file source name)
  | .defaultValue value => return if name = "default" then [.expr value] else []
  | .defaultDeclaration span =>
    return if name = "default" then [.unevaluable span .defaultDeclaration] else []
  | .exportAll false source =>
    if name = "default" then return [] else project.followTo follow file source name
  | _ => return []

end Rules

/-- The declarations behind an exported name of a file, unless the search has been there; `bound`
bounds how many exports may lead on to each other. -/
def exportCandidates (project : Project) :
    (bound : Nat) → SourceFile → String → Search (List Node)
  | 0, _, _ => return []
  | bound + 1, file, name => do
    if (← get).contains (file.path, name) then return []
    modify ((file.path, name) :: ·)
    .gather file.module.items (project.exportedByItem (project.exportCandidates bound) file name)

/-- An export is looked up after it has been marked, and only if it was not. -/
theorem exportCandidates_succ (project : Project) (bound : Nat) (file : SourceFile)
    (name : String) (seen : List Export) :
    project.exportCandidates (bound + 1) file name seen =
      if (file.path, name) ∈ seen then ([], seen)
      else Search.gather file.module.items
        (project.exportedByItem (project.exportCandidates bound) file name)
        ((file.path, name) :: seen) := by
  rw [exportCandidates]
  show (if seen.contains (file.path, name) = true then (pure [] : Search (List Node)) else _) seen
    = _
  by_cases h : (file.path, name) ∈ seen
  · rw [if_pos h, if_pos (List.contains_iff_mem.2 h)]
    rfl
  · rw [if_neg h, if_neg (mt List.contains_iff_mem.1 h)]
    rfl

/-- The names under which an item may ask another file for an export. -/
def namesAsked : ModuleItem → List String
  | .imports _ _ specifiers => specifiers.map fun
    | .named _ imported _ => imported
    | _ => "default"
  | .exports _ _ specifiers => specifiers.map fun
    | .named _ given _ => given
    | .star _ exported => exported
  | _ => []

/-- How many exports a search can mark at most: every file can be asked for every name. -/
def searchBound (project : Project) : Nat :=
  project.files.length * (project.files.flatMap fun file =>
    file.module.items.flatMap namesAsked).length + 1

/-- The declarations that an occurrence of a name may refer to, the best first. -/
def candidates (project : Project) (ident : Ident) : List Node :=
  match project.fileAt? ident.span.file with
  | some file =>
    (project.localCandidates (project.exportCandidates project.searchBound) file ident.name []).1
  | none => []

/-- What evaluation asks of a project. -/
def definitions (project : Project) : Definitions := ⟨project.candidates, project.textAt?⟩

/-- The evaluator of a project under a limit. -/
def evaluator (project : Project) (limit : Nat) : Evaluator := ⟨project.definitions, limit⟩

end Project

end StaticConfig
