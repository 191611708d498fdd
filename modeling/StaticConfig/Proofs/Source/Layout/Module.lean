import StaticConfig.Proofs.Source.Layout.Statement
import StaticConfig.Source.Parser

/-!
# Modules are laid out well

The rules of imports, exports and items, and with them the grammar as a whole: the nodes of an item
are laid out well, and the items of a module follow one another.

- `ModuleItem.Separate`: items whose nodes have no character in common;
- `parseModule_laid`: every module that is parsed is laid out well (`Module.Laid`).
-/

namespace StaticConfig

open Parse

/-- The nodes of an item as pieces. -/
def ModuleItem.pieces (item : ModuleItem) : List Piece := item.nodes.map .part

/-- The nodes of a specifier as pieces. -/
def ImportSpecifier.pieces (specifier : ImportSpecifier) : List Piece := specifier.nodes.map .part

/-- The nodes of a specifier as pieces. -/
def ExportSpecifier.pieces (specifier : ExportSpecifier) : List Piece := specifier.nodes.map .part

theorem ModuleItem.pieces_imports (typeOnly : Bool) (source : String)
    (specifiers : List ImportSpecifier) : (ModuleItem.imports typeOnly source specifiers).pieces =
      specifiers.flatMap ImportSpecifier.pieces := List.map_flatMap

theorem ModuleItem.pieces_exports (typeOnly : Bool) (source : Option String)
    (specifiers : List ExportSpecifier) : (ModuleItem.exports typeOnly source specifiers).pieces =
      specifiers.flatMap ExportSpecifier.pieces := List.map_flatMap

/-- What is kept only as a place where evaluation stops is laid out well. -/
theorem unevaluable_in {file : Path} {lo pos hi hi' : Nat} (kind : Kind) (hlo : lo ≤ pos)
    (hhi : hi ≤ hi') : AllIn file lo hi' [.part (.unevaluable ⟨file, pos, hi⟩ kind)] :=
  List.forall_mem_singleton.2 ⟨⟨rfl, hlo, hhi⟩,
    AllFit.laid (.unevaluable ⟨file, pos, hi⟩ kind) .nil nofun nofun⟩

namespace Grammar

theorem require_moves {passes : Parse Bool} (h : Moves passes) :
    Moves (Grammar.require passes) := by
  refine h.bind fun _ => .branch (.pure _) (.peek .atEnd fun _ => .branch ?_ .unexpected)
  exact .peek .lastStart fun _ => .stopAt _

/-! ### Specifiers -/

theorem exportName_moves : Moves exportName := by
  refine .peek .lexeme fun lexeme => ?_
  split
  · exact Moves.advance.bind fun _ => .pure _
  · exact Moves.advance.bind fun _ => .pure _
  · exact .unexpected

theorem atWord_peeks : Peeks atWord := by
  refine Peeks.lexeme.bind fun lexeme => ?_
  split <;> exact .pure _

theorem renaming?_moves {rename : Parse String} (h : Moves rename) : Moves (renaming? rename) :=
  (Moves.eatWord _).bind fun _ => .branch (h.bind fun _ => .pure _) (.pure _)

theorem specifier_moves {rename : Parse String} (h : Moves rename) : Moves (specifier rename) := by
  have hrenaming : Moves (renaming? rename) := renaming?_moves h
  refine .peek .start fun pos => exportName_moves.bind fun (first, quoted) =>
    .peek atWord_peeks fun _ => ?_
  refine .branch (hrenaming.bind fun _ => .pure _) (.peek .start fun _ => ?_)
  refine Passes.word.moves.bind fun second => .branch (hrenaming.bind fun _ => .pure _) ?_
  refine .peek atWord_peeks fun _ => .branch (.pure _) (Passes.word.moves.bind fun third => ?_)
  refine .branch (.pure _) (.peek atWord_peeks fun _ => .branch (.pure _) ?_)
  exact h.bind fun _ => .pure _

theorem specifiers_moves {rename : Parse String} (h : Moves rename) :
    Moves (specifiers rename) := by
  refine (require_moves (.eatSign _)).bind fun _ => .untilSign _ ?_
  refine (require_moves (.peek .atEnd fun _ => .pure _)).bind fun _ =>
    (specifier_moves h).bind fun _ => ?_
  exact .peek (.isSign _) fun _ => .guard (require_moves (.eatSign _)) fun _ => .pure _

variable {g : Grammar} (hg : g.Laying)

include hg

theorem source_moves (s : Setting) : Moves (g.source s) := by
  refine .peek .lexeme fun lexeme => ?_
  split
  · refine Moves.advance.bind fun _ => .peek (.isAnyWord _) fun _ => .peek .afterLine fun _ => ?_
    extract_lets close
    have hclose (u : Unit) : Moves (close u) := Moves.semicolon.bind fun _ => .pure _
    refine .branch (Moves.advance.bind fun _ => ?_) (hclose ())
    exact (object_covers hg s).moves.bind fun _ => hclose ()
  · exact .unexpected

theorem fromSource_moves (s : Setting) : Moves (g.fromSource s) :=
  (require_moves (.eatWord _)).bind fun _ => source_moves hg s

/-! ### Imports -/

omit hg in
theorem importsTypes_peeks : Peeks importsTypes := by
  refine (Peeks.isWord _).bind fun _ => .branch (Peeks.peek.bind fun next => ?_) (.pure _)
  split
  · exact .pure _
  · exact .wouldParse _
  · exact .pure _
  · exact .pure _

omit hg in
theorem importSpecifier_stands (file : Path) (pos : Nat) (s : Specifier) :
    Stands file pos ImportSpecifier.pieces (importSpecifier s) := by
  unfold importSpecifier
  split
  · exact .empty rfl
  · exact .check .unexpected fun _ => .guard (.stopAt _) fun _ => .empty rfl

omit hg in
theorem importedNames_stands (s : Setting) (pos : Nat) : Stands s.file pos
    (fun specifiers : List ImportSpecifier => specifiers.flatMap ImportSpecifier.pieces)
    (importedNames s) := by
  refine fun st hst hpos => .start (.eat hst (.sign _) (fun star hstar => .yes ?_) (.no ?_))
  · refine .step hstar.sound (require_moves (.eatWord _)) fun _ word hword => ?_
    refine .step hword.sound Passes.boundName.moves fun binds named hnamed => .spanFrom (.pure ?_)
    refine ⟨hstar.toBefore.trans (hword.trans hnamed), ?_⟩
    exact unevaluable_in _ hpos (Nat.le_refl _)
  · have hnames : Stands s.file pos
        (fun specifiers : List ImportSpecifier => specifiers.flatMap ImportSpecifier.pieces)
        (do (← specifiers boundName).mapM importSpecifier) :=
      .after (specifiers_moves Passes.boundName.moves) fun found =>
        .mapM (importSpecifier_stands s.file pos) found
    exact hnames st hst hpos

theorem importAlias_stands (file : Path) (pos : Nat) (s : Setting) :
    Stands file pos ModuleItem.pieces (g.importAlias s) := by
  refine .after (.expectSign _) fun _ => .peek (.isWord _) fun _ => .peek .peek fun _ => ?_
  extract_lets after
  have hafter (u : Unit) : Stands file pos ModuleItem.pieces (after u) :=
    .after .semicolon fun _ => .empty rfl
  refine .branch (.after .advance fun _ => ?_) (.after entityName_moves hafter)
  exact .after (callArguments_lays hg s).moves fun _ => hafter ()

theorem importItem_stands (s : Setting) (pos : Nat) :
    Stands s.file pos ModuleItem.pieces (g.importItem s) := by
  unfold importItem
  refine .after (.expectWord _) fun _ => .peek .lexeme fun lexeme => ?_
  split
  · exact .after (source_moves hg s) fun _ => .empty rfl
  · refine .peek importsTypes_peeks fun typeOnly => .check .advance fun _ =>
      .peek .isName fun isName => ?_
    extract_lets after
    -- Past the main name, the names in braces are the only part that holds nodes.
    have hafter (main : List ImportSpecifier) (hmain : main.flatMap ImportSpecifier.pieces = []) :
        Stands s.file pos ModuleItem.pieces (after main) := by
      unfold after
      extract_lets finish
      have hnames : Stands s.file pos ModuleItem.pieces (importedNames s >>= finish) := by
        refine (importedNames_stands s pos).bind fun named st hst _ hnamed => ?_
        refine .step hst (fromSource_moves hg s) fun source after hafter => .pure ⟨hafter, ?_⟩
        rw [ModuleItem.pieces_imports, List.flatMap_append, hmain]
        exact hnamed.widen (Nat.le_refl _) hafter.lastStop
      have hnone : Stands s.file pos ModuleItem.pieces (pure [] >>= finish) :=
        .given (.after (fromSource_moves hg s) fun source => .empty (by
          rw [ModuleItem.pieces_imports, List.append_nil, hmain]))
      refine .branch (.peek (.isSign _) fun _ => .peek (.isSign _) fun _ => .branch hnames hnone) ?_
      exact .after (.eatSign _) fun _ => .branch hnames hnone
    refine .branch (.after Passes.boundName.moves fun binds => .peek (.isSign _) fun _ =>
      .branch ?_ ?_) ?_
    · exact importAlias_stands hg s.file pos s
    · exact .given (hafter _ rfl)
    · exact .given (hafter [] rfl)

/-! ### Exports -/

theorem defaultExport_stands (s : Setting) (pos : Nat) :
    Stands s.file pos ModuleItem.pieces (g.defaultExport s pos) := by
  have hdeclared {declare : Parse Unit} (h : Stands s.file pos (fun _ => []) declare) :
      Stands s.file pos ModuleItem.pieces (defaultExport.classOrFunction s pos declare) :=
    .past h fun _ st hst _ => .spanFrom
      (.pure ⟨hst.before, unevaluable_in _ (Nat.le_refl _) (Nat.le_refl _)⟩)
  have hclass : Moves (do let _ ← classRest g s false) :=
    (classRest_passes hg.moving s false).moves.bind fun _ => .pure _
  have hinterface : Stands s.file pos (fun _ => []) (do let _ ← interfaceDeclaration g s pos) :=
    .past (interfaceDeclaration_forms hg s pos) fun _ => .empty rfl
  have hfunction (isAsync : Bool) : Moves (defaultExport.function g s isAsync) := by
    refine (Moves.expectWord _).bind fun _ => (Moves.eatSign _).bind fun _ =>
      .peek .isName fun _ => ?_
    extract_lets rest
    have hrest (u : Unit) : Moves (rest u) := functionRest_moves hg.moving _ _ _ _
    exact .branch (Passes.boundName.moves.bind fun _ => hrest ()) (hrest ())
  have hvalue : Stands s.file pos ModuleItem.pieces (defaultExport.value g s) := by
    refine Stands.bind (Stands.of_lays (hg.assignment s).allIn) fun c st hst _ hin => ?_
    exact .step hst .semicolon fun _ after hafter =>
      .pure ⟨hafter, hin.widen (Nat.le_refl _) hafter.lastStop⟩
  refine .peek .peek fun next => .peek .lexeme fun lexeme => ?_
  split
  · exact hdeclared (.of_moves hclass)
  · exact .branch (.after .advance fun _ => hdeclared (.of_moves hclass)) hvalue
  · exact hdeclared hinterface
  · exact hdeclared (.of_moves (hfunction false))
  · refine .peek atAsyncFunction_peeks fun _ => .branch (.after .advance fun _ => ?_) hvalue
    exact hdeclared (.of_moves (hfunction true))
  · exact hvalue

theorem exportedNames_stands (s : Setting) (typeOnly : Bool) (pos : Nat) :
    Stands s.file pos ModuleItem.pieces (g.exportedNames s typeOnly) := by
  have hnames (found : List Specifier) (source : Option String) :
      (ModuleItem.exports typeOnly source (found.map exportSpecifier)).pieces = [] := by
    rw [ModuleItem.pieces_exports]
    refine List.flatMap_eq_nil_iff.2 fun specifier hmem => ?_
    obtain ⟨given, -, rfl⟩ := List.mem_map.1 hmem
    rfl
  refine .after (specifiers_moves (exportName_moves.bind fun _ => .pure _)) fun found => ?_
  refine .peek (.isWord _) fun _ => .branch (.after (fromSource_moves hg s) fun _ =>
    .empty (hnames _ _)) ?_
  refine .after (.forIn _ _ fun specifier _ => .branch ?_ (.pure _)) fun _ => ?_
  · exact (Moves.report _).bind fun _ => .pure _
  · exact .after .semicolon fun _ => .empty (hnames _ _)

theorem exportedStar_stands (s : Setting) (typeOnly : Bool) (pos : Nat) :
    Stands s.file pos ModuleItem.pieces (g.exportedStar s typeOnly pos) := by
  refine .after (.expectSign _) fun _ => .after (.eatWord _) fun _ => .branch ?_ ?_
  · refine .after exportName_moves fun _ st hst _ => .spanFrom ?_
    refine .step hst (fromSource_moves hg s) fun source after hafter => .pure ⟨hafter, ?_⟩
    exact unevaluable_in _ (Nat.le_refl _) hafter.lastStop
  · exact .after (fromSource_moves hg s) fun _ => .empty rfl

theorem exportItem_lays (s : Setting) :
    Lays (g.exportItem s) fun lo hi item => AllIn s.file lo hi item.pieces := by
  refine fun st hst => .start ?_
  -- Each form of export is measured from the word `export`.
  have hstands {p : Parse ModuleItem} (hp : Stands s.file st.here ModuleItem.pieces p) :=
    hp st hst (Nat.le_refl _)
  refine hstands (.after (.expectWord _) fun _ => .after (.eatWord _) fun _ => ?_)
  refine .branch (defaultExport_stands hg s st.here) (.peek (.isWord _) fun _ => .branch ?_ ?_)
  · refine .after .advance fun _ => .peek importsTypes_peeks fun _ => .check .advance fun _ => ?_
    exact .after Passes.boundName.moves fun _ => importAlias_stands hg s.file st.here s
  refine .after (.eatSign _) fun _ => .branch ?_ (.after (.eatWord _) fun _ => .branch ?_ ?_)
  · exact .after (expression_moves hg.moving s) fun _ => .after .semicolon fun _ => .empty rfl
  · exact .after (.expectWord _) fun _ => .after Passes.name.moves fun _ =>
      .after .semicolon fun _ => .empty rfl
  refine (Stands.of_lays (declaration?_lays hg s)).bind fun declared? next hnext hpos hin => ?_
  cases declared? with
  | some declaration => exact .pure ⟨hnext.before, hin⟩
  | none =>
    refine .start (.step hnext (.eatWord _) fun typeOnly word hword =>
      .peek (.isSign _) fun _ => ?_)
    refine .branch (fun _ => ?_) fun _ => .peek (.isSign _) fun _ =>
      .branch (fun _ => ?_) fun _ => ?_
    · refine ((exportedStar_stands hg s typeOnly next.here).reaches hword (Nat.le_refl _)).mono ?_
      exact fun item after ⟨hafter, hin⟩ => ⟨hafter, hin.widen hpos (Nat.le_refl _)⟩
    · exact (exportedNames_stands hg s typeOnly st.here).reaches hword hpos
    · exact .unexpected

theorem itemRule_lays (s : Setting) :
    Lays (g.itemRule s) fun lo hi item => AllIn s.file lo hi item.pieces := by
  have hstatement : Lays (do return .statement (← g.statement s true))
      fun lo hi (item : ModuleItem) =>
      AllIn s.file lo hi item.pieces := fun st hst =>
    (hg.statement s true st hst).bind fun _ _ h => .pure h
  refine fun st hst => .peek .peek fun next => .lexeme fun lexeme _ => ?_
  split
  · split
    · exact hstatement st hst
    · exact hstatement st hst
    · exact importItem_stands hg s st.here st hst (Nat.le_refl _)
  · exact exportItem_lays hg s st hst
  · exact hstatement st hst

end Grammar

/-! ### Whole texts -/

/-- However deep forms are nested, they are laid out well. -/
theorem laying_grammar (depth : Nat) : (grammar depth).Laying := by
  induction depth with
  | zero =>
    exact ⟨fun _ _ _ => .unexpected, fun _ _ _ => .unexpected, fun _ _ _ _ _ _ _ => .unexpected,
      fun _ _ _ => .unexpected, fun _ _ _ _ => .unexpected, fun _ _ _ => .unexpected,
      fun _ _ _ => .unexpected, fun _ _ _ _ => .unexpected, fun _ _ _ => .unexpected⟩
  | succ depth ih =>
    exact ⟨fun s => Grammar.assignmentRule_covers ih s, fun s => Grammar.unaryRule_covers ih s,
      fun s bound => Grammar.operatorsRule_continues ih s bound,
      fun s => Grammar.newTargetRule_covers ih s,
      fun s conditional => Grammar.typeRule_moves ih.moving s conditional,
      fun s => Grammar.patternRule_moves ih.moving s,
      fun s => Grammar.elementRule_passes ih.moving s,
      fun s declarations => Grammar.statementRule_lays ih s declarations,
      fun s => Grammar.itemRule_lays ih s⟩

/-- Whether the nodes of one item end before those of the other one begin. -/
def ModuleItem.Separate (a b : ModuleItem) : Prop :=
  ∀ node ∈ a.nodes, ∀ other ∈ b.nodes,
    node.span.stop ≤ other.span.start ∨ other.span.stop ≤ node.span.start

instance : Std.Symm ModuleItem.Separate :=
  ⟨fun _ _ h node hnode other hother => (h other hother node hnode).symm⟩

/-- Whether the nodes of a module are laid out well, and its items do not overlap. -/
structure Module.Laid (file : Path) (m : Module) : Prop where
  nodes : ∀ item ∈ m.items, ∀ node ∈ item.nodes, node.Laid file
  separate : m.items.Pairwise ModuleItem.Separate

theorem moduleItems_reaches {g : Grammar} (hg : g.Laying) (s : Setting) {st : ParseState}
    (hst : st.Sound) : Reaches (moduleItems g s) st fun items after =>
      (∀ item ∈ items, AllIn s.file st.here after.lastStop item.pieces) ∧
        items.Pairwise ModuleItem.Separate := by
  refine Reaches.bind (Reaches.loop (I := fun (items : List ModuleItem) after => st.Before after ∧
    (∀ item ∈ items, AllIn s.file st.here after.lastStop item.pieces) ∧
      items.Pairwise ModuleItem.Separate)
    ⟨hst.before, nofun, .nil⟩ fun items between ⟨hbetween, hin, hseparate⟩ => ?_)
    fun items after ⟨_, hin, hseparate⟩ =>
      .pure ⟨fun item hmem => hin item (List.mem_reverse.1 hmem), ?_⟩
  · refine .peek .atEnd fun _ => .branch (fun _ => .pure ⟨hbetween, hin, hseparate⟩) fun _ => ?_
    refine (hg.item s between hbetween.sound).bind fun item after ⟨hafter, hitem⟩ => .pure ?_
    refine ⟨hbetween.trans hafter, List.forall_mem_cons.2 ⟨?_, fun earlier hmem => ?_⟩,
      List.pairwise_cons.2 ⟨fun earlier hmem node hnode other hother => .inr ?_, hseparate⟩⟩
    · exact AllIn.widen hitem hbetween.here (Nat.le_refl _)
    · exact (hin earlier hmem).widen (Nat.le_refl _) hafter.lastStop
    · -- An earlier item ends at the last token, or before it.
      have hnode := (hitem (.part node) (List.mem_map.2 ⟨node, hnode, rfl⟩)).1
      have hother := (hin earlier hmem (.part other) (List.mem_map.2 ⟨other, hother, rfl⟩)).1
      exact Nat.le_trans hother.2.2 (Nat.le_trans hbetween.sound.order hnode.2.1)
  · exact List.pairwise_reverse.2 (hseparate.imp fun h => Std.Symm.symm _ _ h)

/-- Every module that is parsed is laid out well in the file that its text was parsed for. -/
theorem parseModule_laid {file : Path} {elements : Bool} {text : String} {m : Module}
    (h : parseModule file elements text = .ok m) : m.Laid file := by
  unfold parseModule at h
  extract_lets c first at h
  obtain ⟨hfull, hstart⟩ := Lexer.readToken_full c
  have hfirst : first.Sound := ⟨hstart, hfull⟩
  split at h
  · cases h
  split at h
  · cases h
  · rename_i items state hrun
    split at h
    · cases h
    · cases h
      obtain ⟨hin, hseparate⟩ :=
        moduleItems_reaches (laying_grammar _) (.ofModule file elements) hfirst
        _ _ hrun
      refine ⟨fun item hitem node hnode => ?_, hseparate⟩
      exact (hin item hitem (.part node) (List.mem_map.2 ⟨node, hnode, rfl⟩)).2

/-- Everything in what a name may refer to in a module stands in the file of the module. -/
theorem Module.Laid.file_of_mem_declarations {file : Path} {m : Module} (h : m.Laid file)
    {item : ModuleItem} (hitem : item ∈ m.items) {node : Node} (hnode : node ∈ item.declarations) :
    ∀ mark ∈ node.marks, mark.span.file = file := by
  obtain ⟨root, hroot, hholds⟩ := ModuleItem.exists_root_of_mem_declarations hnode
  exact (h.nodes item hitem root hroot node hholds).marks

end StaticConfig
