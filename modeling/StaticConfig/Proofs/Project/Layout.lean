import StaticConfig.Proofs.Evaluation.Traceback
import StaticConfig.Proofs.Project.Search

/-!
# The nodes of a project

Which nodes stand in the modules of a project, and that evaluation never leaves them: what a name
refers to stands in a module, and so does the body of every function that is made.

- `Project.Contains`: the nodes in the modules of a project;
- `Project.closed`: evaluation stays among them;
- `Project.LaidOut`: how the text of the modules is laid out, as it is in every project that is
  loaded (`Project.laidOut_of_load`).
-/

namespace StaticConfig

namespace Project

variable (project : Project)

/-- Whether a node stands in a module of the project, at the top level or anywhere in it. -/
def Contains (node : Node) : Prop :=
  ∃ file ∈ project.files, ∃ item ∈ file.module.items, ∃ root ∈ item.nodes, root.Holds node

variable {project}

theorem Contains.child {node inner : Node} (h : project.Contains node)
    (hinner : inner ∈ node.children) : project.Contains inner := by
  obtain ⟨file, hfile, item, hitem, root, hroot, hholds⟩ := h
  exact ⟨file, hfile, item, hitem, root, hroot, hholds.child hinner⟩

/-- What a name may refer to in an item stands in the project. -/
theorem contains_of_mem_declarations {file : SourceFile} (hfile : file ∈ project.files)
    {item : ModuleItem} (hitem : item ∈ file.module.items) {node : Node}
    (h : node ∈ item.declarations) : project.Contains node :=
  ⟨file, hfile, item, hitem, ModuleItem.exists_root_of_mem_declarations h⟩

/-- The item that holds what a name may refer to. -/
theorem exists_item_of_mem_candidates {ident : Ident} {node : Node}
    (h : node ∈ project.candidates ident) :
    ∃ file ∈ project.files, ∃ item ∈ file.module.items, node ∈ item.declarations := by
  obtain ⟨file, hfile, item, hitem, finding, hrule, hder⟩ := mem_candidates.1 h
  have htargets (file : SourceFile) (_ : file ∈ project.files) (specifier : String)
      (target : SourceFile) (htarget : project.target? file specifier = some target) :
      target ∈ project.files := mem_files_of_fileAt? (fileAt?_of_target? htarget)
  exact hder.foundFrom htargets file (mem_files_of_fileAt? hfile) (hrule.foundFrom hitem)

/-- Evaluation stays among the nodes of a project. -/
theorem closed (project : Project) : project.definitions.Closed project.Contains where
  part hnode hpiece := hnode.child (Node.child_of_part hpiece)
  function hnode hpiece := hnode.child (Node.child_of_function hpiece)
  candidate _ _ hcandidate := by
    obtain ⟨file, hfile, item, hitem, hmem⟩ := exists_item_of_mem_candidates hcandidate
    exact contains_of_mem_declarations hfile hitem hmem

/-- What a name refers to is no expression that stands as a statement. -/
theorem isExpressionStatement_of_mem_candidates {ident : Ident} {node : Node}
    (h : node ∈ project.candidates ident) : node.isExpressionStatement = false := by
  obtain ⟨_, _, item, _, hmem⟩ := exists_item_of_mem_candidates h
  have hstatement {s : Stmt} (h : node ∈ (Node.stmt s).declarations) :
      node.isExpressionStatement = false := by
    cases s with
    | declares span declarators =>
      rcases List.mem_cons.1 h with rfl | h
      · rfl
      · obtain ⟨declarator, -, rfl⟩ := List.mem_map.1 h
        rfl
    | declaration => exact List.mem_singleton.1 h ▸ rfl
    | _ => cases h
  cases item with
  | statement | exported => exact hstatement hmem
  | defaultValue | defaultDeclaration => exact List.mem_singleton.1 hmem ▸ rfl
  | imports _ _ specifiers | exports _ _ specifiers =>
    obtain ⟨specifier, -, hnode⟩ := List.mem_flatMap.1 hmem
    cases specifier with
    | star => exact List.mem_singleton.1 hnode ▸ rfl
    | _ => cases hnode
  | exportAll | other => cases hmem

/-! ### Layout -/

/-- How the modules of a project are laid out. -/
structure LaidOut (project : Project) : Prop where
  /-- A form lies in the form around it. -/
  within : ∀ node, project.Contains node → ∀ span ∈ node.inside, span.Within node.span
  /-- All but an expression that stands as a statement have a character of their own. -/
  proper : ∀ node, project.Contains node → node.isExpressionStatement = false →
    node.span ∉ node.inside
  /-- No name is looked up where a declaration stands that it refers to, if the declaration as a
  whole is no form to be evaluated. -/
  apart : ∀ node inner ident, project.Contains node → .name ident ∈ node.pieces →
    inner ∈ project.candidates ident → inner.rejection?.isSome = true → inner.span ≠ node.span

end Project

end StaticConfig
