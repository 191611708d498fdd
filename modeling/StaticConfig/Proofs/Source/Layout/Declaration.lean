import StaticConfig.Proofs.Source.Layout.Expression
import StaticConfig.Source.Parser.Declaration

/-!
# Declarations are laid out well

Where the text of a declaration starts is decided by the words before it, so the statement about a
rule is made for every place that is not behind the current token.

- `Stands`, `Forms`: parsers of what stands from a place on;
- `Declarator.In`: a variable that stands between two places, its initializer behind its beginning.
-/

namespace StaticConfig

open Parse

/-! ### From a place on -/

section

variable {α β : Type} {file : Path} {pos : Nat} {pieces : α → List Piece}

/-- Whether the pieces of what a parser yields stand between a place that is not behind the current
token and the end of the last one. -/
def Stands (file : Path) (pos : Nat) (pieces : α → List Piece) (p : Parse α) : Prop :=
  ∀ st, st.Sound → pos ≤ st.here → Reaches p st fun a after =>
    st.Before after ∧ AllIn file pos after.lastStop (pieces a)

/-- Whether a parser yields a statement that stands from a place on. -/
abbrev Forms (file : Path) (pos : Nat) (p : Parse Stmt) : Prop :=
  Stands file pos (fun statement => [statement.piece]) p

namespace Stands

variable {p q : Parse α}

theorem of_lays (h : Lays p fun lo hi a => AllIn file lo hi (pieces a)) :
    Stands file pos pieces p :=
  fun st hst hpos => (h st hst).mono fun _ _ ⟨hafter, hin⟩ =>
    ⟨hafter, hin.widen hpos (Nat.le_refl _)⟩

theorem of_moves (h : Moves p) : Stands file pos (fun _ => []) p :=
  fun st hst _ => (h st hst).mono fun _ _ hafter => ⟨hafter, .nil⟩

/-- What is read after a state that the place is not behind. -/
theorem reaches (h : Stands file pos pieces p) {first st : ParseState} (hst : first.Before st)
    (hpos : pos ≤ first.here) : Reaches p st fun a after =>
      first.Before after ∧ AllIn file pos after.lastStop (pieces a) :=
  (h st hst.sound (Nat.le_trans hpos hst.here)).mono fun _ _ ⟨hafter, hin⟩ =>
    ⟨hst.trans hafter, hin⟩

/-- What comes after a parser that moves forward. -/
theorem after {p : Parse β} {next : β → Parse α} (h : Moves p)
    (hnext : ∀ b, Stands file pos pieces (next b)) : Stands file pos pieces (p >>= next) :=
  fun _ hst hpos => .step hst h fun b _ hbefore => (hnext b).reaches hbefore hpos

theorem peek {p : Parse β} {next : β → Parse α} (h : Peeks p)
    (hnext : ∀ b, Stands file pos pieces (next b)) : Stands file pos pieces (p >>= next) :=
  .after h.moves hnext

/-- What comes after a value that is known. -/
theorem given {b : β} {next : β → Parse α} (h : Stands file pos pieces (next b)) :
    Stands file pos pieces (Pure.pure b >>= next) := h

/-- What has no pieces stands anywhere. -/
theorem empty {a : α} (h : pieces a = []) : Stands file pos pieces (Pure.pure a) := by
  refine fun st hst _ => .pure ⟨hst.before, ?_⟩
  rw [h]
  exact .nil

/-- What comes after something that stands from the same place on. -/
theorem bind {p : Parse β} {next : β → Parse α} {others : β → List Piece}
    (h : Stands file pos others p) (hnext : ∀ b st, st.Sound → pos ≤ st.here →
      AllIn file pos st.lastStop (others b) → Reaches (next b) st fun a after =>
        st.Before after ∧ AllIn file pos after.lastStop (pieces a)) :
    Stands file pos pieces (p >>= next) :=
  fun st hst hpos => (h st hst hpos).bind fun b between ⟨hbefore, hin⟩ =>
    (hnext b between hbefore.sound (Nat.le_trans hpos hbefore.here) hin).mono
      fun _ _ ⟨hafter, hin⟩ => ⟨hbefore.trans hafter, hin⟩

/-- What comes after something that is passed. -/
theorem past {p : Parse β} {next : β → Parse α} {others : β → List Piece}
    (h : Stands file pos others p) (hnext : ∀ b, Stands file pos pieces (next b)) :
    Stands file pos pieces (p >>= next) := h.bind fun b st hst hpos _ => hnext b st hst hpos

/-- What becomes a part of something else stands where that does. -/
theorem map {others : β → List Piece} {f : α → β} (h : Stands file pos pieces p)
    (hpieces : ∀ a, others (f a) = pieces a) :
    Stands file pos others (do return f (← p)) :=
  h.bind fun _ _ hst _ hin => .pure ⟨hst.before, by rw [hpieces]; exact hin⟩

/-- Where a parser is run for each of some things, the pieces of all results are those of the
results. -/
theorem mapM {item : β → Parse α} (h : ∀ b, Stands file pos pieces (item b)) (found : List β) :
    Stands file pos (fun results => results.flatMap pieces) (found.mapM item) := by
  rw [← List.mapM'_eq_mapM]
  induction found with
  | nil => exact .empty rfl
  | cons b rest ih =>
    refine (h b).bind fun a next hnext hpos hin => (ih next hnext hpos).bind ?_
    exact fun results after ⟨hafter, hrest⟩ =>
      .pure ⟨hafter, (hin.widen (Nat.le_refl _) hafter.lastStop).append hrest⟩

section

variable {c : Prop} [Decidable c]

theorem branch (hp : Stands file pos pieces p) (hq : Stands file pos pieces q) :
    Stands file pos pieces (if c then p else q) := by
  split
  · exact hp
  · exact hq

/-- What comes after a step that is taken unless something holds. -/
theorem guard {p : Parse Unit} {rest : Unit → Parse α} (hp : Moves p)
    (h : ∀ u, Stands file pos pieces (rest u)) :
    Stands file pos pieces (have after := rest; if c then after () else p >>= after) :=
  branch (h ()) (.after hp h)

/-- What comes after a step that is taken if something holds. -/
theorem check {p : Parse Unit} {rest : Unit → Parse α} (hp : Moves p)
    (h : ∀ u, Stands file pos pieces (rest u)) :
    Stands file pos pieces (have after := rest; if c then p >>= after else after ()) :=
  branch (.after hp h) (h ())

end

/-- What may be absent. -/
theorem some (h : Stands file pos pieces p) :
    Stands file pos (fun found : Option α => found.elim [] pieces) (do return Option.some (← p)) :=
  h.map fun _ => rfl

end Stands

end

/-! ### Variables -/

/-- Whether a variable stands between two places, its initializer behind its beginning. -/
structure Declarator.In (file : Path) (lo hi : Nat) (d : Declarator) : Prop where
  span : d.span.In file lo hi
  laid : (Node.declarator d).Laid file
  pieces : AllIn file (lo + 1) hi d.pieces

theorem widens_declarator (file : Path) : Widens fun lo hi (d : Declarator) => d.In file lo hi := by
  intro lo lo' hi hi' d h hlo hhi
  refine ⟨?_, h.laid, h.pieces.widen (Nat.succ_le_succ hlo) hhi⟩
  exact ⟨h.span.1, Nat.le_trans hlo h.span.2.1, Nat.le_trans h.span.2.2 hhi⟩

/-- An initializer is a form. -/
theorem name_not_mem_pieces (ident : Ident) (init : Option Expr) :
    .name ident ∉ piecesOfInit init := by
  intro h
  obtain ⟨e, -, heq⟩ := List.mem_map.1 h
  cases heq

/-- A statement of variables is laid out well if the variables are. -/
theorem declares_in {file : Path} {lo hi : Nat} {found : List Declarator}
    (h : ∀ d ∈ found, d.In file lo hi) :
    (Stmt.declares ⟨file, lo, hi⟩ found).piece.In file lo hi := by
  have hfit : AllFit ⟨file, lo, hi⟩ (found.flatMap Declarator.pieces) :=
    AllIn.fit_start (.flatMap fun d hd => (h d hd).pieces) (Nat.lt_succ_self _) (Nat.le_refl _)
  have hnamed (ident : Ident) : .name ident ∉ found.flatMap Declarator.pieces := by
    intro hmem
    obtain ⟨d, -, hmem⟩ := List.mem_flatMap.1 hmem
    exact name_not_mem_pieces ident d.init? hmem
  have hwhole : Span.In file lo hi ⟨file, lo, hi⟩ := ⟨rfl, Nat.le_refl _, Nat.le_refl _⟩
  have hinner : ∀ inner ∈ found.map Node.declarator,
      inner.span.Within ⟨file, lo, hi⟩ ∧ inner.Laid file := by
    intro inner hinner
    obtain ⟨d, hd, rfl⟩ := List.mem_map.1 hinner
    exact ⟨(h d hd).span, (h d hd).laid⟩
  have hdeclares : (Node.declares ⟨file, lo, hi⟩ found).Laid file :=
    AllFit.laid (.declares ⟨file, lo, hi⟩ found) hfit hinner
      fun ident hmem => absurd hmem (hnamed ident)
  refine ⟨hwhole, AllFit.laid (.stmt (.declares ⟨file, lo, hi⟩ found)) hfit
    (List.forall_mem_cons.2 ⟨⟨hwhole, hdeclares⟩, hinner⟩) fun ident hmem =>
      absurd hmem (hnamed ident)⟩

/-- A declaration of which only the place, the kind and the name are kept is laid out well. -/
theorem declaration_in (file : Path) (lo hi : Nat) (kind : Kind) (name? : Option String) :
    (Stmt.declaration ⟨file, lo, hi⟩ kind name?).piece.In file lo hi := by
  have hwhole : Span.In file lo hi ⟨file, lo, hi⟩ := ⟨rfl, Nat.le_refl _, Nat.le_refl _⟩
  have hinner : (Node.unevaluable ⟨file, lo, hi⟩ kind).Laid file :=
    AllFit.laid (.unevaluable ⟨file, lo, hi⟩ kind) .nil nofun nofun
  exact ⟨hwhole, AllFit.laid (.stmt (.declaration ⟨file, lo, hi⟩ kind name?)) .nil
    (List.forall_mem_singleton.2 ⟨hwhole, hinner⟩) nofun⟩

namespace Grammar

theorem declaration_forms (s : Setting) (pos : Nat) (kind : Kind) (name? : Option String) :
    Forms s.file pos (do return .declaration (← spanFrom s pos) kind name?) :=
  fun _ hst _ => .spanFrom (.pure ⟨hst.before,
    List.forall_mem_singleton.2 (declaration_in _ _ _ _ _)⟩)

variable {g : Grammar} (hg : g.Laying)

include hg

theorem declarator_lays (s : Setting) (initialized : Initialized) :
    Lays (g.declarator s initialized) fun lo hi d => d.In s.file lo hi := by
  refine fun st hst => .start (.step hst (hg.pattern s) fun pattern named hnamed => ?_)
  refine .peek .afterLine fun _ => ?_
  extract_lets required close after
  -- What was read last ends the declarator; a missing initializer is at most reported.
  have hclose (init : Option Expr) (read : ParseState) (hread : st.Before read)
      (hinit : AllIn s.file (st.here + 1) read.lastStop (piecesOfInit init)) :
      Reaches (close init) read fun d last =>
        st.Before last ∧ d.In s.file st.here last.lastStop := by
    refine .check hread.sound (.report _) fun _ last hlast =>
      .spanFrom (.pure ⟨hread.trans hlast, ?_⟩)
    have hinit := hinit.widen (Nat.le_refl _) hlast.lastStop
    have hfit : AllFit ⟨s.file, st.here, last.lastStop⟩ (piecesOfInit init) :=
      hinit.fit_start (Nat.lt_succ_self _) (Nat.le_refl _)
    refine ⟨⟨rfl, Nat.le_refl _, Nat.le_refl _⟩, ?_, hinit⟩
    exact AllFit.laid (.declarator
      (.mk ⟨s.file, st.here, last.lastStop⟩ pattern.name? init)) hfit
      nofun fun ident hmem => absurd hmem (name_not_mem_pieces ident init)
  have hafter (next : ParseState) (hnext : st.Before next) : Reaches (after ()) next fun d last =>
      st.Before last ∧ d.In s.file st.here last.lastStop := by
    refine .step hnext.sound (annotatedType_moves hg.moving s) fun _ typed htyped => ?_
    have htyped := hnext.trans htyped
    refine .eat htyped.sound (.sign _) (fun sign hsign => .yes ?_)
      (.no (hclose none typed htyped .nil))
    refine (hg.assignment s sign hsign.sound).bind fun c read ⟨hread, hc⟩ => ?_
    refine hclose (some c.expr) read (htyped.trans (hsign.toBefore.trans hread)) ?_
    exact hc.allIn.widen (Nat.lt_of_le_of_lt htyped.here hsign.here_lt) (Nat.le_refl _)
  refine .branch (fun _ => ?_) fun _ => hafter named hnamed
  exact .step hnamed.sound (.eatSign _) fun _ next hnext => hafter next (hnamed.trans hnext)

theorem declarators_lays (s : Setting) (initialized : Initialized) :
    Lays (g.declarators s initialized) fun lo hi found => ∀ d ∈ found, d.In s.file lo hi := by
  have hitem : Lays (g.declarator s initialized) fun lo hi d => d.In s.file lo hi :=
    declarator_lays hg s initialized
  refine fun st hst => .lastStop (Lays.commaSeparated (widens_declarator s.file) ?_ st hst)
  intro st hst
  refine .peek (.isSign _) fun _ => .peek .atEnd fun _ => .branch (fun _ => ?_) fun _ =>
    hitem st hst
  -- With nothing behind the word or a comma the parser stops.
  refine .lastStop (.branch (fun _ => .stopped) fun _ => ?_)
  exact .peek .lastStart fun _ => .stopped

theorem variableStatement_forms (s : Setting) (pos : Nat) :
    Forms s.file pos (g.variableStatement s pos) := by
  intro st hst hpos
  refine .peek (.isWord _) fun isConst => .step hst .advance fun _ next hnext => ?_
  refine (declarators_lays hg s _ next hnext.sound).bind fun found read ⟨hread, hfound⟩ => ?_
  refine .step hread.sound .semicolon fun _ after hafter => .spanFrom (.pure ?_)
  refine ⟨hnext.trans (hread.trans hafter),
    List.forall_mem_singleton.2 (declares_in fun d hd => ?_)⟩
  exact widens_declarator s.file (hfound d hd) (Nat.le_trans hpos hnext.here) hafter.lastStop

theorem resourceDeclaration_lays (s : Setting) (initialized : Initialized) :
    Lays (g.resourceDeclaration s initialized) fun lo hi statement =>
      AllIn s.file lo hi [statement.piece] :=
  fun st hst => .start (Stands.after (.eatWord _) (fun _ => .after (.expectWord _) fun _ =>
    .after (declarators_lays hg s _).moves fun _ =>
      declaration_forms s st.here _ _) st hst (Nat.le_refl _))

/-! ### Functions, classes and types -/

theorem functionDeclaration_forms (s : Setting) (pos : Nat) (isAsync : Bool) :
    Forms s.file pos (g.functionDeclaration s pos isAsync) :=
  .after (.expectWord _) fun _ => .after (.eatSign _) fun _ =>
    .after Passes.boundName.moves fun _ =>
    .after (functionRest_moves hg.moving _ _ _ _) fun _ => declaration_forms s pos _ _

theorem classDeclaration_forms (s : Setting) (pos : Nat) :
    Forms s.file pos (g.classDeclaration s pos) :=
  .after (classRest_passes hg.moving s _).moves fun _ => declaration_forms s pos _ _

theorem enumMember_moves (s : Setting) : Moves (g.enumMember s) := by
  refine .peek .lexeme fun lexeme => ?_
  extract_lets after
  have hafter (u : Unit) : Moves (after u) := defaultHere_moves hg.moving s
  split
  · exact Moves.advance.bind hafter
  · exact Moves.advance.bind hafter
  · exact (computedKey_moves hg.moving s).bind fun _ => hafter ()
  · exact Moves.unexpected.bind hafter

theorem enumDeclaration_forms (s : Setting) (pos : Nat) :
    Forms s.file pos (g.enumDeclaration s pos) :=
  .after (.expectWord _) fun _ => .after Passes.boundName.moves fun _ =>
    .after (.expectSign _) fun _ =>
    .after (.commaList _ (enumMember_moves hg _)) fun _ => declaration_forms s pos _ _

theorem aliasDeclaration_forms (s : Setting) (pos : Nat) :
    Forms s.file pos (g.aliasDeclaration s pos) :=
  .after (.expectWord _) fun _ => .after Passes.name.moves fun _ =>
    .after (typeParametersHere_moves hg.moving s) fun _ => .after (.expectSign _) fun _ =>
    .after (hg.type s true) fun _ => .after .semicolon fun _ => declaration_forms s pos _ _

theorem interfaceDeclaration_forms (s : Setting) (pos : Nat) :
    Forms s.file pos (g.interfaceDeclaration s pos) := by
  refine .after (.expectWord _) fun _ => .after Passes.name.moves fun _ => ?_
  refine .after (typeParametersHere_moves hg.moving s) fun _ => .after (.eatWord _) fun _ => ?_
  extract_lets rest
  have hrest (u : Unit) : Forms s.file pos (rest u) :=
    .after (typeMembers_moves hg.moving s) fun _ => declaration_forms s pos _ _
  refine .branch (.after (.commaSeparated ?_) fun _ => hrest ()) (hrest ())
  exact entityName_moves.bind fun _ => typeArgumentsHere_moves hg.moving s

theorem namespaceBody_moves (s : Setting) : Moves (g.namespaceBody s) :=
  (Moves.expectSign _).bind fun _ => (Moves.untilSign _ (hg.item s).moves).bind fun _ => .pure _

omit hg in
theorem qualifiedName_moves : Moves namespaceDeclaration.qualifiedName := by
  refine Passes.name.moves.bind fun _ => .loop _ fun _ => (Moves.eatSign _).bind fun _ => ?_
  exact .branch (Passes.name.moves.bind fun _ => .pure _) (.pure _)

theorem namespaceDeclaration_forms (s : Setting) (pos : Nat) :
    Forms s.file pos (g.namespaceDeclaration s pos) := by
  refine .peek (.isWord _) fun _ => .peek (.isWord _) fun _ => .guard .advance fun _ => ?_
  refine .peek .lexeme fun lexeme => ?_
  extract_lets after
  have hafter (u : Unit) : Forms s.file pos (after u) := declaration_forms s pos _ _
  split
  · refine .guard .unexpected fun _ => .after .advance fun _ => .peek (.isSign _) fun _ => ?_
    exact .branch (.after (namespaceBody_moves hg s) hafter) (.after .semicolon hafter)
  · exact .after qualifiedName_moves fun _ => .after (namespaceBody_moves hg s) hafter

theorem typeDeclaration_forms (s : Setting) (pos : Nat) :
    Forms s.file pos (g.typeDeclaration s pos) := by
  refine .peek .lexeme fun lexeme => ?_
  split
  · exact aliasDeclaration_forms hg s pos
  · exact interfaceDeclaration_forms hg s pos
  · exact .after .advance fun _ => classDeclaration_forms hg s pos
  · exact enumDeclaration_forms hg s pos
  · exact .after .advance fun _ => enumDeclaration_forms hg s pos
  · exact namespaceDeclaration_forms hg s pos

/-! ### Declarations that start with a name -/

omit hg in
theorem atTypeDeclaration_peeks : Peeks atTypeDeclaration := by
  refine Peeks.peek.bind fun next => Peeks.lexeme.bind fun lexeme => ?_
  split
  case h_4 => split <;> exact .pure _
  all_goals exact .pure _

omit hg in
theorem atAsyncFunction_peeks : Peeks atAsyncFunction :=
  Peeks.peek.bind fun _ => (Peeks.isWord _).bind fun _ => .pure _

theorem description_forms (s : Setting) (pos : Nat) :
    Forms s.file pos (g.description s pos) := by
  let inner : Setting := { s with ambient := true }
  refine .peek atTypeDeclaration_peeks fun _ => .branch (typeDeclaration_forms hg inner pos) ?_
  refine .peek .lexeme fun lexeme => ?_
  split
  · exact functionDeclaration_forms hg inner pos _
  · exact .after .advance fun _ => functionDeclaration_forms hg inner pos _
  · exact classDeclaration_forms hg inner pos
  · exact variableStatement_forms hg inner pos

/-- A declaration that may be absent. -/
theorem declaration?_lays (s : Setting) : Lays (g.declaration? s) fun lo hi found =>
    AllIn s.file lo hi (found.elim [] fun statement => [statement.piece]) := by
  intro st hst
  have hstands {p : Parse (Option Stmt)} (hp : Stands s.file st.here
      (fun found => found.elim [] fun statement => [statement.piece]) p) :=
        hp st hst (Nat.le_refl _)
  have hnone : Stands s.file st.here (fun found : Option Stmt => found.elim [] fun statement =>
      [statement.piece]) (pure none) := .empty rfl
  refine .start (hstands (.peek atTypeDeclaration_peeks fun _ => .branch ?_ ?_))
  · exact (typeDeclaration_forms hg s st.here).some
  refine .peek .peek fun next => .peek .lexeme fun lexeme => ?_
  split
  · exact (functionDeclaration_forms hg s st.here _).some
  · exact (classDeclaration_forms hg s st.here).some
  · exact (variableStatement_forms hg s st.here).some
  · exact (variableStatement_forms hg s st.here).some
  · exact .branch (variableStatement_forms hg s st.here).some hnone
  · refine .peek atAsyncFunction_peeks fun _ => .branch (.after .advance fun _ => ?_) hnone
    exact (functionDeclaration_forms hg s st.here _).some
  · refine .peek (.wouldParse _) fun _ => .branch (.after .advance fun _ => ?_) hnone
    exact (description_forms hg s st.here).some
  · exact hnone

end Grammar

end StaticConfig
