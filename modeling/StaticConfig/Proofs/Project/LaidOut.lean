import StaticConfig.Proofs.Project.Layout
import StaticConfig.Proofs.Project.Locality
import StaticConfig.Proofs.Source.Layout.Module

/-!
# Loaded projects are laid out well

What is assumed of the text of a project holds of every project that is loaded. Two nodes that do
not contain each other have no character in common, and each place where a name is looked up has
one, so that it cannot be where something else is declared.

- `Node.Laid.span_within`, `Node.Laid.span_ne`: nodes inside a node that is laid out well;
- `ModuleItem.name_apart`: no name of an item stands where that item declares something;
- `Project.laidOut_of_load`: the layout of what is loaded.
-/

namespace StaticConfig

/-! ### Nodes inside a node -/

theorem Span.Within.antisymm {inner outer : Span} (h : inner.Within outer)
    (h' : outer.Within inner) :
    inner = outer := by
  obtain ⟨file, start, stop⟩ := inner
  obtain ⟨file', start', stop'⟩ := outer
  obtain ⟨hfile, hstart, hstop⟩ := h
  cases hfile
  exact congrArg₂ _ (Nat.le_antisymm h'.2.1 hstart) (Nat.le_antisymm hstop h'.2.2)

namespace Node

variable {file : Path} {root node inner : Node}

theorem Laid.span_within (h : root.Laid file) (hholds : root.Holds node) :
    node.span.Within root.span := by
  induction hholds with
  | self => exact Span.within_refl _
  | child hholds hinner ih => exact ((h _ hholds).children _ hinner).trans ih

/-- What stands in a part of a form is smaller than the form. -/
theorem Laid.span_ne (h : root.Laid file) (hstatement : root.isExpressionStatement = false)
    (hpart : .part inner ∈ root.pieces) (hholds : inner.Holds node) : node.span ≠ root.span := by
  have hinner := h.child (child_of_part hpart)
  have hnode := hinner.span_within hholds
  have hroot := (h root .self).children inner (child_of_part hpart)
  intro heq
  rw [heq] at hnode
  exact (h root .self).proper hstatement (hroot.antisymm hnode ▸ span_mem_inside hpart)

/-- Where a form consists of parts alone, no name in it stands in its place. -/
theorem Laid.name_apart (h : root.Laid file) (hstatement : root.isExpressionStatement = false)
    (hparts : ∀ piece ∈ root.pieces, ∃ inner, piece = .part inner)
    (hdeclares : root.declarations = [])
    (hholds : root.Holds node) {ident : Ident} (hname : .name ident ∈ node.pieces) :
    node.span ≠ root.span := by
  rcases hholds.child_or_self with rfl | ⟨inner, hinner, hholds⟩
  · obtain ⟨inner, heq⟩ := hparts _ hname
    cases heq
  · rcases List.mem_append.1 hinner with hinner | hinner
    · obtain ⟨piece, hpiece, heq⟩ := List.mem_filterMap.1 hinner
      obtain ⟨part, rfl⟩ := hparts piece hpiece
      cases heq
      exact h.span_ne hstatement hpiece hholds
    · rw [hdeclares] at hinner
      cases hinner

/-- Nothing stands in what is kept only as a place where evaluation stops. -/
theorem not_name_of_unevaluable {span : Span} {kind : Kind} (h : (unevaluable span kind).Holds node)
    (ident : Ident) : .name ident ∉ node.pieces := by
  rcases h.child_or_self with rfl | ⟨inner, hinner, -⟩
  · nofun
  · cases hinner

end Node

/-! ### Names in items -/

theorem part_of_mem_arguments {args : List Argument} {piece : Piece}
    (h : piece ∈ args.flatMap Argument.pieces) : ∃ inner, piece = .part inner := by
  obtain ⟨argument, -, hpiece⟩ := List.mem_flatMap.1 h
  cases argument <;> exact ⟨_, List.mem_singleton.1 hpiece⟩

theorem part_of_mem_body {body : ArrowBody} {piece : Piece} (h : piece ∈ body.pieces) :
    ∃ inner, piece = .part inner := by
  cases body with
  | value => exact ⟨_, List.mem_singleton.1 h⟩
  | block statements =>
    obtain ⟨statement, -, rfl⟩ := List.mem_map.1 h
    exact ⟨_, rfl⟩

/-- Where an expression as a whole is no form to be evaluated, the names in it stand elsewhere. -/
theorem Expr.name_apart {file : Path} {e : Expr} (h : (Node.expr e).Laid file)
    (hrejected : (Node.expr e).rejection?.isSome = true) {node : Node}
    (hholds : (Node.expr e).Holds node) {ident : Ident} (hname : .name ident ∈ node.pieces) :
    node.span ≠ e.span := by
  cases e with
  | other => exact h.name_apart rfl nofun rfl hholds hname
  | call _ callee =>
    cases callee with
    | value => cases hrejected
    | super | module => exact h.name_apart rfl (fun _ => part_of_mem_arguments) rfl hholds hname
  | arrow span isAsync params body =>
    have hparams {piece : Piece} (hpiece : piece ∈ params.flatMap Param.pieces) :
        ∃ kind span, piece = .stop kind span := by
      obtain ⟨param, -, hpiece⟩ := List.mem_flatMap.1 hpiece
      cases param with
      | name => cases hpiece
      | pattern => exact ⟨_, _, List.mem_singleton.1 hpiece⟩
    rcases hholds.child_or_self with rfl | ⟨inner, hinner, hholds⟩
    · rcases List.mem_cons.1 hname with heq | hname
      · cases heq
      · obtain ⟨_, _, heq⟩ := hparams hname
        cases heq
    · -- The body has the place of the whole function.
      have hlaid := h.child hinner
      obtain ⟨piece, hpiece, heq⟩ := List.mem_filterMap.1
        (List.mem_append.1 hinner |>.resolve_right nofun)
      rcases List.mem_cons.1 hpiece with rfl | hpiece
      · cases heq
        exact hlaid.name_apart rfl (fun _ => part_of_mem_body) rfl hholds hname
      · obtain ⟨_, _, rfl⟩ := hparams hpiece
        cases heq
  | _ => cases hrejected

namespace ModuleItem

variable {file : Path} {item : ModuleItem} {root node inner : Node} {ident : Ident}

/-- No name of an item stands where the item declares something that is no form to be evaluated. -/
theorem name_apart (hlaid : ∀ root ∈ item.nodes, root.Laid file) (hroot : root ∈ item.nodes)
    (hholds : root.Holds node) (hname : .name ident ∈ node.pieces)
    (hinner : inner ∈ item.declarations)
    (hrejected : inner.rejection?.isSome = true) : inner.span ≠ node.span := by
  have hstatement {s : Stmt} (hholds : (Node.stmt s).Holds node)
      (hinner : inner ∈ (Node.stmt s).declarations) : False := by
    cases s with
    | declares span declarators =>
      rcases List.mem_cons.1 hinner with rfl | hinner
      · cases hrejected
      · obtain ⟨declarator, -, rfl⟩ := List.mem_map.1 hinner
        cases hrejected
    | declaration span kind binds =>
      rcases hholds.child_or_self with rfl | ⟨child, hchild, hholds⟩
      · cases hname
      · cases List.mem_singleton.1 hchild
        exact Node.not_name_of_unevaluable hholds ident hname
    | _ => cases hinner
  have hunevaluable {span : Span} {kind : Kind} (heq : root = .unevaluable span kind) : False :=
    Node.not_name_of_unevaluable (heq ▸ hholds) ident hname
  cases item with
  | statement s | exported s => exact (hstatement (List.mem_singleton.1 hroot ▸ hholds) hinner).elim
  | imports _ _ specifiers | exports _ _ specifiers =>
    obtain ⟨specifier, -, hnode⟩ := List.mem_flatMap.1 hroot
    cases specifier with
    | star => exact (hunevaluable (List.mem_singleton.1 hnode)).elim
    | _ => cases hnode
  | defaultDeclaration => exact (hunevaluable (List.mem_singleton.1 hroot)).elim
  | defaultValue value =>
    cases List.mem_singleton.1 hroot
    cases List.mem_singleton.1 hinner
    exact (Expr.name_apart (hlaid _ hroot) hrejected hholds hname).symm
  | exportAll | other => cases hroot

/-- No name of an item stands where another item declares something. -/
theorem Separate.name_apart {declaring : ModuleItem} (h : item.Separate declaring)
    (hlaid : ∀ root ∈ item.nodes, root.Laid file)
    (hdeclaring : ∀ root ∈ declaring.nodes, root.Laid file) (hroot : root ∈ item.nodes)
    (hholds : root.Holds node) (hname : .name ident ∈ node.pieces)
    (hinner : inner ∈ declaring.declarations) : inner.span ≠ node.span := by
  obtain ⟨other, hother, hinner⟩ := exists_root_of_mem_declarations hinner
  have hlt := (hlaid root hroot node hholds).named ident hname
  obtain ⟨-, hstart, hstop⟩ := (hlaid root hroot).span_within hholds
  obtain ⟨-, hstart', hstop'⟩ := (hdeclaring other hother).span_within hinner
  intro heq
  rw [heq] at hstart' hstop'
  rcases h root hroot other hother with hle | hle <;> omega

end ModuleItem

/-! ### Names in projects -/

namespace Project

variable {project : Project} {node inner : Node}

/-- A project is laid out well if every file of it is. -/
theorem laidOut_of_files
    (h : ∀ file ∈ project.files, file.module.Laid file.path) : project.LaidOut := by
  have htidy (node : Node) (hnode : project.Contains node) : ∃ path, node.Tidy path := by
    obtain ⟨file, hfile, item, hitem, root, hroot, hholds⟩ := hnode
    exact ⟨_, (h file hfile).nodes item hitem root hroot node hholds⟩
  refine ⟨fun node hnode => ?_, fun node hnode => ?_, ?_⟩
  · obtain ⟨path, htidy⟩ := htidy node hnode
    exact htidy.inside
  · obtain ⟨path, htidy⟩ := htidy node hnode
    exact htidy.proper
  rintro node inner ident ⟨file, hfile, item, hitem, root, hroot, hholds⟩ hname hinner hrejected
  obtain ⟨file', hfile', item', hitem', hinner⟩ := exists_item_of_mem_candidates hinner
  have hlaid := (h file hfile).nodes
  have hlaid' := (h file' hfile').nodes
  obtain ⟨root', hroot', hholds'⟩ := ModuleItem.exists_root_of_mem_declarations hinner
  intro heq
  -- Both are in the file of their place.
  have hpath : file'.path = file.path := by
    rw [← (hlaid' item' hitem' root' hroot' inner hholds').file,
      ← (hlaid item hitem root hroot node hholds).file, heq]
  have hsame : file' = file := Option.some.inj
    ((fileAt?_eq_some_iff.2 ⟨hfile', hpath⟩).symm.trans (fileAt?_eq_some_iff.2 ⟨hfile, rfl⟩))
  subst hsame
  by_cases hitems : item = item'
  · subst hitems
    exact ModuleItem.name_apart (hlaid item hitem) hroot hholds hname hinner hrejected heq
  · have hseparate := (h file' hfile).separate.forall hitem hitem' hitems
    exact hseparate.name_apart (hlaid item hitem) (hlaid item' hitem') hroot hholds hname hinner heq

/-- **Every project that is loaded is laid out well.** A form lies in the form around it and is
smaller, and no name stands where something else is declared. -/
theorem laidOut_of_load {sources : Sources} {entries : List String}
    (h : load sources entries = .ok project) : project.LaidOut :=
  laidOut_of_files fun file hfile => parseSource_laid ((loaded_of_load h).1.parsed file hfile)

end Project

end StaticConfig
