import StaticConfig.Proofs.Source.Layout.Declaration
import StaticConfig.Source.Parser.Statement

/-!
# Statements are laid out well

The rules of branches, loops, jumps and of all statements. Only blocks, returned values,
expressions, switches and variables have other forms in them; what is read within other statements
is passed.
-/

namespace StaticConfig

open Parse

/-- A statement that declares nothing is laid out well if its pieces fit in it. -/
theorem statement_in {file : Path} {lo hi : Nat} {statement : Stmt}
    (hspan : statement.span = ⟨file, lo, hi⟩) (h : AllFit ⟨file, lo, hi⟩ statement.pieces)
    (hdeclares : (Node.stmt statement).declarations = [])
    (hnamed : ∀ ident, .name ident ∈ statement.pieces → lo < hi) :
    statement.piece.In file lo hi := by
  have hlaid : (Node.stmt statement).Laid statement.span.file := by
    refine AllFit.laid (.stmt statement) (by rw [← hspan] at h; exact h) ?_ ?_
    · rw [hdeclares]
      nofun
    · show ∀ ident, .name ident ∈ statement.pieces → statement.span.start < statement.span.stop
      rw [hspan]
      exact hnamed
  rw [hspan] at hlaid
  refine ⟨?_, hlaid⟩
  show statement.span.In file lo hi
  rw [hspan]
  exact ⟨rfl, Nat.le_refl _, Nat.le_refl _⟩

namespace Grammar

/-- A statement that is only named. -/
theorem otherStatement_forms (s : Setting) (pos : Nat) (kind : Kind) :
    Forms s.file pos (otherStatement s pos kind) :=
  fun _ hst _ => .spanFrom (.pure ⟨hst.before,
    List.forall_mem_singleton.2 (statement_in rfl .nil rfl nofun)⟩)

variable {g : Grammar} (hg : g.Laying)

include hg

/-! ### Branches -/

theorem body_moves (s : Setting) : Moves (g.body s) :=
  (hg.statement s false).moves.bind fun _ => .pure _

/-- An expression in parentheses stands behind the opening one. -/
theorem condition_lays (s : Setting) :
    Lays (g.condition s) fun lo hi test => lo < hi ∧ AllIn s.file (lo + 1) hi [test.piece] := by
  refine fun st hst => .pass hst (.expectSign _) fun _ opened hopened => ?_
  refine (expression_covers hg s opened hopened.sound).bind fun c read ⟨hread, hc⟩ => ?_
  refine .step hread.sound (.expectSign _) fun _ after hafter => .pure ?_
  have hpast := hopened.before (hread.trans hafter)
  exact ⟨hpast.toBefore, hpast.passed, hc.allIn.widen hopened.here_lt hafter.lastStop⟩

theorem ifStatement_forms (s : Setting) (pos : Nat) : Forms s.file pos (g.ifStatement s pos) := by
  refine .after .advance fun _ => .after (condition_lays hg s).moves fun _ => ?_
  refine .after (body_moves hg s) fun _ => .after (.eatWord _) fun _ => ?_
  exact .check (body_moves hg s) fun _ => otherStatement_forms s pos _

theorem clauseBody_lays (s : Setting) : Lays (g.clauseBody s) fun lo hi statements =>
    AllIn s.file lo hi (statements.map Stmt.piece) := by
  intro st hst
  refine Reaches.bind (Reaches.loop (I := fun statements after => st.Before after ∧
    ∀ statement ∈ statements, AllIn s.file st.here after.lastStop [Stmt.piece statement])
    ⟨hst.before, nofun⟩ fun statements between ⟨hbetween, h⟩ => ?_)
    fun statements after ⟨hafter, h⟩ => .pure ⟨hafter, .map fun statement hmem =>
      h statement (List.mem_reverse.1 hmem)⟩
  refine .peek (.isAnyWord _) fun _ => .peek (.isSign _) fun _ => ?_
  refine .branch (fun _ => .pure ⟨hbetween, h⟩) fun _ => ?_
  refine (hg.statement s true between hbetween.sound).bind fun next after ⟨hafter, hnext⟩ =>
    .pure ?_
  refine ⟨hbetween.trans hafter, List.forall_mem_cons.2 ⟨?_, fun statement hmem => ?_⟩⟩
  · exact hnext.widen hbetween.here (Nat.le_refl _)
  · exact (h statement hmem).widen (Nat.le_refl _) hafter.lastStop

theorem clauses_lays (s : Setting) :
    Lays (g.clauses s) fun lo hi found => AllIn s.file lo hi (found.flatMap Clause.pieces) := by
  intro st hst
  refine Reaches.bind (Reaches.loop (I := fun found after => st.Before after ∧
    ∀ clause ∈ found.1, AllIn s.file st.here after.lastStop (Clause.pieces clause))
    ⟨hst.before, nofun⟩ fun (found, hasDefault) between ⟨hbetween, h⟩ => ?_)
    fun (found, _) after ⟨hafter, h⟩ => .pure ⟨hafter, .flatMap fun clause hmem =>
      h clause (List.mem_reverse.1 hmem)⟩
  have hkeep {after : ParseState} (hafter : between.lastStop ≤ after.lastStop) :
      ∀ clause ∈ found, AllIn s.file st.here after.lastStop clause.pieces := fun clause hmem =>
    (h clause hmem).widen (Nat.le_refl _) hafter
  -- The statements of a clause, whatever its head was.
  have hbody (test : Option Expr) (isDefault : Bool) {next : ParseState}
      (hnext : between.Before next)
      (htest : AllIn s.file st.here next.lastStop (piecesOfInit test)) : Reaches (do
        return ((.mk test (← clauseBody g s) :: found, isDefault), true)) next fun more after =>
          st.Before after ∧ ∀ clause ∈ more.1.1,
            AllIn s.file st.here after.lastStop clause.pieces := by
    refine (clauseBody_lays hg s next hnext.sound).bind fun statements after ⟨hafter, hin⟩ =>
      .pure ?_
    have hbefore := hnext.trans hafter
    refine ⟨hbetween.trans hbefore, List.forall_mem_cons.2 ⟨?_, hkeep hbefore.lastStop⟩⟩
    refine .append (htest.widen (Nat.le_refl _) hafter.lastStop) ?_
    exact hin.widen (hbetween.trans hnext).here (Nat.le_refl _)
  refine .eat hbetween.sound (.sign _) (fun after hclosed => .yes (.pure ?_)) (.no ?_)
  · exact ⟨hbetween.trans hclosed.toBefore, hkeep hclosed.lastStop⟩
  refine .eat hbetween.sound (.word _) (fun word hword => .yes ?_)
    (.no (.peek (.isWord _) fun _ => ?_))
  · refine (expression_covers hg s word hword.sound).bind fun test read ⟨hread, htest⟩ => ?_
    refine .step hread.sound (.expectSign _) fun _ colon hcolon => ?_
    refine hbody (some test.expr) hasDefault (hword.toBefore.trans (hread.trans hcolon)) ?_
    exact htest.allIn.widen (hbetween.trans hword.toBefore).here hcolon.lastStop
  · extract_lets rest
    have hrest (next : ParseState) (hnext : between.Before next) : Reaches (rest ()) next
        fun more after => st.Before after ∧
          ∀ clause ∈ more.1.1, AllIn s.file st.here after.lastStop clause.pieces := by
      refine .step hnext.sound (.expectWord _) fun _ word hword => ?_
      refine .step hword.sound (.expectSign _) fun _ colon hcolon => ?_
      exact hbody none true (hnext.trans (hword.trans hcolon)) .nil
    refine .branch (fun _ => .start ?_) fun _ => hrest between hbetween.sound.before
    exact .step hbetween.sound (.report _) fun _ next hnext => hrest next hnext

theorem switchStatement_forms (s : Setting) (pos : Nat) :
    Forms s.file pos (g.switchStatement s pos) := by
  refine fun st hst hpos => .step hst .advance fun _ word hword => ?_
  refine (condition_lays hg s word hword.sound).bind fun test opened ⟨hopened, hlt, htest⟩ => ?_
  refine .step hopened.sound (.expectSign _) fun _ next hnext => ?_
  refine (clauses_lays hg _ next hnext.sound).bind fun found after ⟨hafter, hfound⟩ => ?_
  refine .spanFrom (.pure ⟨hword.trans (hopened.trans (hnext.trans hafter)), ?_⟩)
  have hpos : pos ≤ word.here := Nat.le_trans hpos hword.here
  have hbehind : pos < next.here :=
    Nat.lt_of_le_of_lt hpos (Nat.lt_of_lt_of_le hlt (Nat.le_trans hopened.sound.order hnext.here))
  refine List.forall_mem_singleton.2 (statement_in rfl (.cons ?_ ?_) rfl fun _ _ => ?_)
  · have htest := htest.fit_start (Nat.lt_succ_of_le hpos) (hnext.trans hafter).lastStop
    exact htest _ List.mem_cons_self
  · exact hfound.fit_start hbehind (Nat.le_refl _)
  · exact Nat.lt_of_le_of_lt hpos (Nat.lt_of_lt_of_le hlt (hnext.trans hafter).lastStop)

/-! ### Loops and jumps -/

theorem forHead_moves (s : Setting) : Moves (g.forHead s) := by
  -- Nothing of the head is kept, so each way through it only has to go forward.
  have hexpression (s : Setting) : Moves (g.expression s) := expression_moves hg.moving s
  have hover (declared : Nat) : Moves (forHead.overItems declared) :=
    .peek (.isAnyWord _) fun _ => .pure _
  refine .peek (.isAnyWord _) fun _ => ?_
  extract_lets close update test declared
  have hclose (u : Unit) : Moves (close u) := .expectSign _
  have hupdate (u : Unit) : Moves (update u) := (Moves.expectSign _).bind fun _ =>
    .peek (.isSign _) fun _ => .branch (hclose ()) ((hexpression s).bind fun _ => hclose ())
  have htest (u : Unit) : Moves (test u) := (Moves.expectSign _).bind fun _ =>
    .peek (.isSign _) fun _ => .branch (hupdate ()) ((hexpression s).bind fun _ => hupdate ())
  have hdeclared (declares : Bool) : Moves (declared declares) := by
    refine .peek .start fun _ => .peek (.isSign _) fun _ => .peek (.wouldParse _) fun _ => ?_
    extract_lets head
    have hhead (isOver : Bool) : Moves (head isOver) := by
      refine .branch (.peek (.isWord _) fun _ => .branch ?_ ?_) ?_
      · exact Moves.advance.bind fun _ => (hexpression s).bind fun _ => hclose ()
      · exact Moves.advance.bind fun _ => (hg.assignment s).moves.bind fun _ => hclose ()
      · exact .peek (.isWord _) fun _ => .peek (.isWord _) fun _ => .check (.stopAt _) htest
    refine .branch ((Moves.pure _).bind hhead) (.branch ?_ (.branch ?_ ?_))
    · exact Moves.advance.bind fun _ => (declarators_lays hg _ _).moves.bind fun _ =>
        (hover _).bind hhead
    · exact (resourceDeclaration_lays hg _ _).moves.bind fun _ => (hover _).bind hhead
    · refine (hexpression _).bind fun _ => (hover _).bind fun isOver => ?_
      exact .check (.reportAny _) fun _ => (Moves.pure isOver).bind hhead
  refine .peek (.isWord _) fun _ => .branch ((Moves.pure _).bind hdeclared) (.branch ?_ ?_)
  · exact .peek .peek fun _ => (Moves.pure _).bind hdeclared
  · exact (Moves.pure _).bind hdeclared

theorem forStatement_forms (s : Setting) (pos : Nat) : Forms s.file pos (g.forStatement s pos) := by
  refine .after .advance fun _ => .peek (.isWord _) fun _ => ?_
  extract_lets loop await
  have hloop (u : Unit) : Forms s.file pos (loop u) :=
    .after (.expectSign _) fun _ => .after (forHead_moves hg s) fun _ =>
      .after (body_moves hg _) fun _ => otherStatement_forms s pos _
  have hawait (u : Unit) : Forms s.file pos (await u) := .after .advance hloop
  refine .branch (.branch (.peek .start fun _ => ?_) (hawait ())) (hloop ())
  exact .after (.report _) hawait

theorem whileStatement_forms (s : Setting) (pos : Nat) :
    Forms s.file pos (g.whileStatement s pos) :=
  .after .advance fun _ => .after (condition_lays hg s).moves fun _ =>
    .after (body_moves hg _) fun _ =>
    otherStatement_forms s pos _

theorem doStatement_forms (s : Setting) (pos : Nat) : Forms s.file pos (g.doStatement s pos) :=
  .after .advance fun _ => .after (body_moves hg _) fun _ => .after (.expectWord _) fun _ =>
    .after (condition_lays hg s).moves fun _ => .after (.eatSign _) fun _ =>
      otherStatement_forms s pos _

omit hg in
theorem jump_forms (s : Setting) (pos : Nat) (kind : Kind) (allowed : Bool) :
    Forms s.file pos (jump s pos kind allowed) := by
  refine .after .advance fun _ => .peek .isName fun _ => .peek .afterLine fun _ => ?_
  extract_lets _ leave
  have hleave (fits : Bool) : Forms s.file pos (leave fits) :=
    .after .semicolon fun _ => .guard (.report _) fun _ => otherStatement_forms s pos _
  exact .branch (.after Passes.name.moves fun _ => .after (.pure _) hleave)
    (.after (.pure _) hleave)

/-- At the word `return`, behind which the value begins. -/
theorem returnStatement_reaches (s : Setting) {st : ParseState} (hst : st.Sound)
    (htoken : st.current.token.lexeme.isToken = true) :
    Reaches (g.returnStatement s st.here) st fun statement after =>
      st.Before after ∧ AllIn s.file st.here after.lastStop [statement.piece] := by
  have hword : st.Past st.next := hst.past_next htoken
  refine .advance (.peek (.isSign _) fun _ => .peek (.isSign _) fun _ => .peek .atEnd fun _ => ?_)
  refine .peek .afterLine fun _ => ?_
  extract_lets after
  have hafter (value : Option Expr) (read : ParseState) (hread : st.next.Before read)
      (hvalue : AllIn s.file st.next.here read.lastStop (piecesOfInit value)) :
      Reaches (after value) read fun statement last =>
        st.Before last ∧ AllIn s.file st.here last.lastStop [statement.piece] := by
    refine .step hread.sound .semicolon fun _ next hnext => .guard hnext.sound (.report _) ?_
    intro _ last hlast
    have hbehind := hnext.trans hlast
    have hpast := hword.before (hread.trans hbehind)
    refine .spanFrom (.pure ⟨hpast.toBefore, List.forall_mem_singleton.2 ?_⟩)
    exact statement_in rfl (hvalue.fit_start hword.here_lt hbehind.lastStop) rfl fun _ _ =>
      hpast.passed
  refine .branch (fun _ => hafter none _ hword.sound.before .nil) fun _ => ?_
  refine (expression_covers hg s st.next hword.sound).bind fun c read ⟨hread, hc⟩ => ?_
  exact hafter (some c.expr) read hread hc.allIn

theorem throwStatement_forms (s : Setting) (pos : Nat) :
    Forms s.file pos (g.throwStatement s pos) := by
  refine .after .advance fun _ => .peek .afterLine fun _ => .check .unexpected fun _ => ?_
  refine .after (expression_moves hg.moving s) fun _ => .after .semicolon fun _ => ?_
  exact otherStatement_forms s pos _

theorem tryStatement_forms (s : Setting) (pos : Nat) : Forms s.file pos (g.tryStatement s pos) := by
  refine .after .advance fun _ => .after (block_moves hg.moving s) fun _ => .peek .start fun _ => ?_
  refine .after (.eatWord _) fun handles => ?_
  extract_lets after final handled
  have hfinal (u : Unit) : Forms s.file pos (final u) := by
    refine .after (.eatWord _) fun _ => ?_
    extract_lets finished
    have hfinished (u : Unit) : Forms s.file pos (finished u) :=
      .guard (.report _) fun _ => otherStatement_forms s pos _
    exact .branch (.after (block_moves hg.moving s) fun _ => hfinished ()) (hfinished ())
  have hhandled (u : Unit) : Forms s.file pos (handled u) :=
    .after (block_moves hg.moving s) fun _ => hfinal ()
  refine .branch (.after (.eatSign _) fun _ => .branch ?_ (hhandled ())) (hfinal ())
  refine .after (hg.pattern s) fun _ => .after (annotatedType_moves hg.moving s) fun _ => ?_
  exact .after (.expectSign _) hhandled

theorem withStatement_forms (s : Setting) (pos : Nat) : Forms s.file pos (g.withStatement s pos) :=
  .after (.report _) fun _ => .after .advance fun _ => .after (condition_lays hg s).moves fun _ =>
    .after (body_moves hg s) fun _ => otherStatement_forms s pos _

/-! ### All statements -/

theorem expressionStatement_forms (s : Setting) (pos : Nat) :
    Forms s.file pos (g.expressionStatement s pos) := by
  refine fun st hst hpos => (expression_covers hg s st hst).bind fun c read ⟨hread, hc⟩ => ?_
  have hc := hc.widen hpos
  extract_lets after
  have hafter (next : ParseState) (hnext : read.Before next) : Reaches (after ()) next
      fun statement last => st.Before last ∧ AllIn s.file pos last.lastStop [statement.piece] := by
    refine .spanFrom (.pure ⟨hread.trans hnext, List.forall_mem_singleton.2 ⟨?_, ?_⟩⟩)
    · exact ⟨rfl, Nat.le_refl _, Nat.le_refl _⟩
    · exact AllIn.laid (.stmt (.expression ⟨s.file, pos, next.lastStop⟩ c.expr))
        (hc.allIn.widen (Nat.le_refl _) hnext.lastStop) nofun nofun fun _ _ =>
          Nat.lt_of_le_of_lt hc.start (Nat.lt_of_lt_of_le hc.solid hnext.lastStop)
  split
  · refine .eat hread.sound (.sign _) (fun colon hcolon => .yes ?_) (.no ?_)
    · have hlabel := hread.trans hcolon.toBefore
      refine .check hlabel.sound (.report _) fun _ next hnext => ?_
      refine .step hnext.sound (hg.statement _ true).moves fun _ last hlast => ?_
      have hlast := hlabel.trans (hnext.trans hlast)
      exact (otherStatement_forms s pos _).reaches hlast hpos
    · exact .step hread.sound .semicolon fun _ next hnext => hafter next hnext
  · exact .step hread.sound .semicolon fun _ next hnext => hafter next hnext

theorem statementRule_lays (s : Setting) (declarations : Bool) :
    Lays (g.statementRule s declarations) fun lo hi statement =>
      AllIn s.file lo hi [statement.piece] := by
  intro st hst
  have hforms {p : Parse Stmt} (hp : Forms s.file st.here p) := hp st hst (Nat.le_refl _)
  have hnext : st.Before st.next := hst.before_next
  unfold statementRule
  refine .start (.lexeme fun lexeme hlexeme => ?_)
  split
  · refine (block_lays hg s st hst).bind fun statements after ⟨hafter, hlt, hin⟩ =>
      .spanFrom (.pure ?_)
    refine ⟨hafter, List.forall_mem_singleton.2 (statement_in rfl ?_ rfl fun _ _ => hlt)⟩
    exact hin.fit_start (Nat.lt_succ_self _) (Nat.le_refl _)
  · refine .advance (.spanFrom (.pure ⟨hnext, List.forall_mem_singleton.2 ?_⟩))
    exact statement_in rfl .nil rfl nofun
  · exact hforms (ifStatement_forms hg s st.here)
  · exact hforms (switchStatement_forms hg s st.here)
  · exact hforms (forStatement_forms hg s st.here)
  · exact hforms (whileStatement_forms hg s st.here)
  · exact hforms (doStatement_forms hg s st.here)
  · exact hforms (jump_forms s st.here _ _)
  · exact hforms (jump_forms s st.here _ _)
  · exact returnStatement_reaches hg s hst (hlexeme ▸ rfl)
  · exact hforms (throwStatement_forms hg s st.here)
  · exact hforms (tryStatement_forms hg s st.here)
  · exact hforms (withStatement_forms hg s st.here)
  · exact hforms (.after .advance fun _ => .after .semicolon fun _ =>
      otherStatement_forms s st.here _)
  · refine .peek .peek fun next => ?_
    split
    · exact hforms (expressionStatement_forms hg s st.here)
    · exact hforms (expressionStatement_forms hg s st.here)
    · exact .unexpected
  · refine .peek (.wouldParse _) fun _ => .branch (fun _ => ?_) fun _ => ?_
    · exact resourceDeclaration_lays hg s _ st hst
    refine (declaration?_lays hg s st hst).bind fun declared? after ⟨hafter, hdeclared⟩ => ?_
    cases declared? with
    | some declaration =>
      refine .check hafter.sound (.report _) fun _ last hlast => .pure ⟨hafter.trans hlast, ?_⟩
      exact hdeclared.widen (Nat.le_refl _) hlast.lastStop
    | none => exact (expressionStatement_forms hg s st.here).reaches hafter (Nat.le_refl _)

end Grammar

end StaticConfig
