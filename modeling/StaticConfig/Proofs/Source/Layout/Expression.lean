import StaticConfig.Proofs.Source.Layout.Operand
import StaticConfig.Source.Parser.Expression

/-!
# Expressions are laid out well

The rules of accesses, calls, operators and assignments. What is appended to an expression begins
behind it, so that the expression ends before what it becomes a part of.
-/

namespace StaticConfig

open Parse

namespace Grammar

/-- A form that may start earlier than where it is read and of which only the kind is kept. -/
theorem otherAt_reaches (s : Setting) {pos : Nat} {st : ParseState} (hst : st.Sound)
    (hpos : pos < st.lastStop) (kind : Kind) :
    Reaches (otherFrom s pos kind) st fun c after =>
      st.Before after ∧ c.Spans s.file pos after.lastStop :=
  .spanFrom (.pure ⟨hst.before, .of_fit rfl hpos .nil⟩)

theorem startsExpression_peeks : Peeks startsExpression := by
  refine Peeks.lexeme.bind fun lexeme => ?_
  split <;> exact .pure _

variable {g : Grammar} (hg : g.Laying)

/-! ### Accesses and calls -/

theorem chainOr_spans {file : Path} {lo hi : Nat} {c : Cover} (isChain : Bool)
    (h : c.Spans file lo hi) : (chainOr isChain c).Spans file lo hi := by
  cases isChain with
  | true =>
    refine (Cover.Spans.of_fit ?_ h.solid .nil).widen h.start
    show c.expr.span = _
    rw [← h.span_file, ← h.stop]
    rfl
  | false => exact h

theorem memberKey_reaches (s : Setting) {st : ParseState} (hst : st.Sound) :
    Reaches (memberKey s) st fun key after =>
      st.Past after ∧ AllIn s.file st.here after.lastStop key.pieces := by
  unfold memberKey
  refine .start (.lexeme fun lexeme hlexeme => ?_)
  split
  · exact .advance (.pure ⟨hst.past_next (hlexeme ▸ rfl), .nil⟩)
  · exact .advance (.spanFrom (.pure ⟨hst.past_next (hlexeme ▸ rfl), stop_in _ (Nat.le_refl _)⟩))
  · exact .unexpected

/-- What is appended to an expression makes a form that starts where the expression does. -/
theorem appended_spans {file : Path} {lo mid behind hi : Nat} {c next : Cover}
    (hc : c.Spans file lo mid) (hmid : mid ≤ behind) (hlt : behind < hi)
    (hspan : next.expr.span = ⟨file, c.start, hi⟩)
    (hpieces : ∀ piece ∈ next.expr.pieces, piece = c.expr.piece ∨ piece.In file behind hi) :
    next.Spans file lo hi := by
  have hstop : mid < hi := Nat.lt_of_le_of_lt hmid hlt
  refine (Cover.Spans.of_fit hspan (Nat.lt_trans hc.solid hstop) ?_).widen hc.start
  intro piece hpiece
  rcases hpieces piece hpiece with rfl | hin
  · exact hc.fits_stop (Nat.le_refl _) hstop
  · exact hin.fits_start (Nat.lt_of_lt_of_le hc.solid hmid) (Nat.le_refl _)

include hg

theorem computedMember_reaches (s : Setting) {lo : Nat} {target : Cover} {st : ParseState}
    (hst : st.Sound) (htarget : target.Spans s.file lo st.lastStop) :
    Reaches (g.computedMember s target.start target.expr) st fun c after =>
      st.Past after ∧ c.Spans s.file lo after.lastStop := by
  refine .pass hst (.expectSign _) fun _ opened hopened => ?_
  refine (expression_covers hg s.bracketed opened hopened.sound).bind fun key read
    ⟨hread, hkey⟩ => ?_
  refine .step hread.sound (.expectSign _) fun _ closed hclosed => .spanFrom (.pure ?_)
  have hpast := hopened.before (hread.trans hclosed)
  have hin := hkey.allIn.widen hopened.here hclosed.lastStop
  refine ⟨hpast, appended_spans htarget hst.order hpast.passed rfl ?_⟩
  exact List.forall_mem_cons.2 ⟨.inl rfl, fun piece hpiece => .inr (hin piece hpiece)⟩

theorem computedMember_moves (s : Setting) (pos : Nat) (target : Expr) :
    Moves (g.computedMember s pos target) :=
  (Moves.expectSign _).bind fun _ => (expression_moves hg.moving _).bind fun _ =>
    (Moves.expectSign _).bind fun _ => .peek (.spanFrom _ _) fun _ => .pure _

theorem taggedTemplate_passes (s : Setting) : Passes (g.taggedTemplate s) := by
  intro st hst
  refine (Lays.templatePieces (widens_allIn _ _)
    (expression_covers hg s.bracketed).allIn st hst).bind ?_
  exact fun _ after ⟨hafter, hlt, _⟩ => .pure ⟨hafter, hlt⟩

theorem loneTypeArguments_moves (s : Setting) : Moves (g.loneTypeArguments s) := by
  have hoperator : Peeks isOperator := by
    refine Peeks.lexeme.bind fun lexeme => ?_
    split <;> exact .pure _
  refine (typeArguments_moves hg.moving s).bind fun _ => .peek (.isAnySign _) fun _ => ?_
  refine .check .unexpected fun _ => .peek .afterLine fun _ => ?_
  exact .peek hoperator fun _ => .peek startsExpression_peeks fun _ => .branch (.pure _) .unexpected

/-- A call of an expression that type arguments may come after. -/
theorem call_reaches (s : Setting) {lo mid : Nat} {c : Cover} {st : ParseState} (hst : st.Sound)
    (hmid : mid ≤ st.here) (hc : c.Spans s.file lo mid) :
    Reaches (g.callArguments s) st fun arguments after => st.Before after ∧
      Cover.Spans s.file lo after.lastStop
        (.value (.call ⟨s.file, c.start, after.lastStop⟩ (.value c.expr) arguments)) := by
  refine (callArguments_lays hg s st hst).mono fun arguments after ⟨hafter, hlt, hin⟩ => ?_
  have hin := hin.widen (Nat.le_succ _) (Nat.le_refl _)
  refine ⟨hafter, appended_spans hc hmid hlt rfl ?_⟩
  refine List.forall_mem_cons.2 ⟨.inr trivial, List.forall_mem_cons.2 ⟨.inl rfl, ?_⟩⟩
  exact fun piece hpiece => .inr (hin piece hpiece)

theorem suffix_reaches (s : Setting) (noCall : Bool) {lo : Nat} {c : Cover} {st : ParseState}
    (hst : st.Sound) (hc : c.Spans s.file lo st.lastStop) :
    Reaches (g.suffix s noCall c) st fun form after => (form = none → after = st) ∧
      ∀ next, form = some next → st.Before after ∧ next.Spans s.file lo after.lastStop := by
  have hsome {next : Cover} {after : ParseState}
      (h : st.Before after ∧ next.Spans s.file lo after.lastStop) :
      (some next = none → after = st) ∧
      ∀ form, some next = some form → st.Before after ∧ form.Spans s.file lo after.lastStop :=
    ⟨nofun, fun form heq => Option.some.inj heq ▸ h⟩
  have hother {after : ParseState} (hafter : st.Before after) (kind : Kind) :
      Reaches (otherFrom s c.start kind) after fun next last =>
        st.Before last ∧ next.Spans s.file lo last.lastStop := by
    have hpos : c.start < after.lastStop := Nat.lt_of_lt_of_le hc.solid hafter.lastStop
    refine (otherAt_reaches s hafter.sound hpos kind).mono fun next last ⟨hlast, hnext⟩ => ?_
    exact ⟨hafter.trans hlast, hnext.widen hc.start⟩
  have hchain {after : ParseState} (hafter : st.Before after) :
      Reaches (do return some (chainOr true (← otherFrom s c.start .optionalChain))) after
        fun form last => (form = none → last = st) ∧
          ∀ next, form = some next → st.Before last ∧ next.Spans s.file lo last.lastStop :=
    (hother hafter _).bind fun next last ⟨hlast, hnext⟩ =>
      .pure (hsome ⟨hlast, chainOr_spans true hnext⟩)
  refine .isSign (.peek .afterLine fun _ => .branch (fun hsign => ?_) fun _ => ?_)
  · -- An assertion that something is there.
    have hlexeme := eq_of_beq (Bool.and_eq_true_iff.1 hsign).1
    have hpast : st.Past st.next := hst.past_next (hlexeme ▸ rfl)
    refine .advance (.spanFrom (.pure (hsome ⟨hpast.toBefore, ?_⟩)))
    exact appended_spans hc hst.order hpast.passed rfl (List.forall_mem_singleton.2 (.inl rfl))
  refine .peek (.isSign _) fun _ => .branch (fun _ => ?_) fun _ => ?_
  · -- Type arguments.
    refine Reaches.bind (Reaches.attempt (R := fun next after =>
      st.Before after ∧ next.Spans s.file lo after.lastStop) ?_) fun generic between
        ⟨h, hnone⟩ => ?_
    · refine .step hst (typeArguments_moves hg.moving s) fun _ typed htyped => ?_
      refine .peek (.isSign _) fun _ => .branch (fun _ => ?_) fun _ => ?_
      · refine (call_reaches hg s htyped.sound (Nat.le_trans hst.order htyped.here) hc).bind ?_
        intro arguments after ⟨hafter, hcall⟩
        exact .spanFrom (.pure ⟨htyped.trans hafter, chainOr_spans _ hcall⟩)
      refine .peek (.isSign _) fun _ => .branch (fun _ => ?_) fun _ => .unexpected
      exact .step htyped.sound (taggedTemplate_passes hg s).moves fun _ read hread =>
        hother (htyped.trans hread) _
    cases generic with
    | some next => exact .pure (hsome (h next rfl))
    | none =>
      cases hnone rfl
      refine (Reaches.attempt (loneTypeArguments_moves hg s st hst)).bind fun lone after
        ⟨h, hnone⟩ => ?_
      cases lone with
      | some u => exact (hother (h u rfl) _).bind fun next last hnext => .pure (hsome hnext)
      | none => exact .pure ⟨fun _ => hnone rfl, fun _ => nofun⟩
  refine .peek (.isSign _) fun _ => .branch (fun _ => ?_) fun _ => ?_
  · -- An optional chain.
    have hargs := (Lays.moves (callArguments_lays hg s))
    refine .peek .peek fun next => .branch (fun _ => .stuck) fun _ => ?_
    refine .step hst .advance fun _ point hpoint => .peek (.isSign _) fun _ => ?_
    refine .branch (fun _ => ?_) fun _ => .peek (.isSign _) fun _ =>
      .branch (fun _ => ?_) fun _ => ?_
    · exact .step hpoint.sound hargs fun _ _ hafter => hchain (hpoint.trans hafter)
    · exact .step hpoint.sound (computedMember_moves hg s _ _) fun _ _ hafter =>
        hchain (hpoint.trans hafter)
    refine .peek (.isSign _) fun _ => .branch (fun _ => ?_) fun _ => .peek (.isSign _) fun _ => ?_
    · refine .step hpoint.sound (typeArguments_moves hg.moving s) fun _ typed htyped => ?_
      have htyped := hpoint.trans htyped
      exact .step htyped.sound hargs fun _ _ hafter => hchain (htyped.trans hafter)
    · refine .branch (fun _ => .stuck) fun _ => ?_
      refine (memberKey_reaches s hpoint.sound).bind fun _ _ ⟨hafter, _⟩ => ?_
      exact hchain (hpoint.trans hafter.toBefore)
  refine .peek (.isSign _) fun _ => .branch (fun _ => ?_) fun _ => ?_
  · -- A computed member.
    refine (computedMember_reaches hg s hst hc).bind fun next after ⟨hafter, hnext⟩ => ?_
    exact .pure (hsome ⟨hafter.toBefore, chainOr_spans _ hnext⟩)
  refine .peek (.isSign _) fun _ => .branch (fun _ => ?_) fun _ => ?_
  · -- A call.
    refine (call_reaches hg s hst hst.order hc).bind fun arguments after ⟨hafter, hcall⟩ => ?_
    exact .spanFrom (.pure (hsome ⟨hafter, chainOr_spans _ hcall⟩))
  refine .eat hst (.sign _) (fun between hpoint => .yes ?_) (.no ?_)
  · -- A named member.
    refine (memberKey_reaches s hpoint.sound).bind fun key after ⟨hafter, hkey⟩ => ?_
    have hlt := (hpoint.before hafter.toBefore).passed
    have hin := hkey.widen hpoint.here (Nat.le_refl _)
    refine .spanFrom (.pure (hsome ⟨hpoint.toBefore.trans hafter.toBefore, chainOr_spans _ ?_⟩))
    refine appended_spans hc hst.order hlt rfl ?_
    exact List.forall_mem_cons.2 ⟨.inl rfl, fun piece hpiece => .inr (hin piece hpiece)⟩
  refine .peek (.isSign _) fun _ => .branch (fun _ => ?_) fun _ =>
    .pure ⟨fun _ => rfl, fun _ => nofun⟩
  -- A template.
  refine .branch (fun _ => .stuck) fun _ => ?_
  refine .step hst (taggedTemplate_passes hg s).moves fun _ read hread => ?_
  exact (hother hread _).bind fun next last hnext => .pure (hsome hnext)

theorem suffixes_continues (s : Setting) (noCall : Bool) :
    Continues s.file (g.suffixes s noCall) := by
  intro st lo first hst hfirst
  refine .branch (fun _ => .pure ⟨hst.before, hfirst⟩) fun _ => ?_
  refine .loop ⟨hst.before, hfirst⟩ fun c between ⟨hbetween, hc⟩ => ?_
  refine (suffix_reaches hg s noCall hbetween.sound hc).bind fun form after ⟨hnone, hsome⟩ => ?_
  cases form with
  | some next => exact .pure ⟨hbetween.trans (hsome next rfl).1, (hsome next rfl).2⟩
  | none =>
    cases hnone rfl
    exact .pure ⟨hbetween, hc⟩

/-- A form of which only the kind and the place are kept, with everything appended to it. -/
theorem otherSuffixed_reaches (s : Setting) (noCall : Bool) {first st : ParseState}
    (h : first.Past st) (kind : Kind) :
    Reaches (otherFrom s first.here kind >>= g.suffixes s noCall) st fun c after =>
      first.Before after ∧ c.Spans s.file first.here after.lastStop :=
  (otherFrom_reaches s h kind).bind fun _ _ ⟨hbefore, hc⟩ =>
    (suffixes_continues hg s noCall).reaches hbefore hc

theorem superForm_covers (s : Setting) (noCall : Bool) : Covers s.file (g.superForm s noCall) := by
  refine fun st hst => .start (.pass hst (.expectWord _) fun _ named hnamed => ?_)
  refine .peek (.isSign _) fun _ => .branch (fun _ => ?_) fun _ => ?_
  · refine (callArguments_lays hg s named hnamed.sound).bind fun arguments after
      ⟨hafter, _, hin⟩ => ?_
    have hpast := hnamed.before hafter
    refine .spanFrom (.pure ⟨hpast.toBefore, .of_fit rfl hpast.passed ?_⟩)
    exact .append .nil (hin.fit_start (Nat.lt_succ_of_lt hnamed.here_lt) (Nat.le_refl _))
  · extract_lets after
    have hafter (next : ParseState) (hnext : st.Past next) : Reaches (after ()) next fun c last =>
        st.Before last ∧ c.Spans s.file st.here last.lastStop :=
      .spanFrom (.pure ⟨hnext.toBefore, .of_fit rfl hnext.passed .nil⟩)
    refine .eat hnamed.sound (.sign _) (fun point hpoint => .yes ?_) (.no ?_)
    · have hpoint := hnamed.before hpoint.toBefore
      refine (memberKey_reaches s hpoint.sound).bind fun _ next ⟨hnext, _⟩ => ?_
      exact hafter next (hpoint.before hnext.toBefore)
    refine .eat hnamed.sound (.sign _) (fun opened hopened => .yes ?_) (.no .stopped)
    have hopened := hnamed.before hopened.toBefore
    refine .step hopened.sound (expression_moves hg.moving _) fun _ read hread => ?_
    refine .step hread.sound (.expectSign _) fun _ next hnext => ?_
    exact hafter next (hopened.before (hread.trans hnext))

theorem importForm_covers (s : Setting) (noCall : Bool) :
    Covers s.file (g.importForm s noCall) := by
  refine fun st hst => .start (.pass hst (.expectWord _) fun _ named hnamed => ?_)
  refine .eat hnamed.sound (.sign _) (fun point hpoint => .yes ?_) (.no ?_)
  · refine .step hpoint.sound (.expectWord _) fun _ after hafter => ?_
    have hpast := hnamed.before (hpoint.toBefore.trans hafter)
    exact otherFrom_reaches s hpast _
  · refine .branch (fun _ => .stopAt _) fun _ => ?_
    refine (callArguments_lays hg s named hnamed.sound).bind fun arguments after
      ⟨hafter, _, hin⟩ => ?_
    have hpast := hnamed.before hafter
    refine .branch (fun _ => .lastStop .stopped) fun _ => ?_
    refine .spanFrom (.pure ⟨hpast.toBefore, .of_fit rfl hpast.passed ?_⟩)
    exact .append .nil (hin.fit_start (Nat.lt_succ_of_lt hnamed.here_lt) (Nat.le_refl _))

/-- What a word and everything appended to it make. -/
theorem newTargetRule_covers (s : Setting) : Covers s.file (g.newTargetRule s) := by
  intro st hst
  have hsuffixes : Continues s.file (g.suffixes s true) := suffixes_continues hg s true
  refine .start (.isWord (.branch (fun hword => ?_) fun _ => ?_))
  · have hnew : st.Past st.next := hst.past_next (eq_of_beq hword ▸ rfl)
    refine .advance (.eat hnew.sound (.sign _) (fun point hpoint => .yes ?_) (.no ?_))
    · refine .step hpoint.sound (.expectWord _) fun _ target htarget => ?_
      refine .guard htarget.sound (.report _) fun _ next hnext => ?_
      have hpast := hnew.before (hpoint.toBefore.trans (htarget.trans hnext))
      exact otherSuffixed_reaches hg s true hpast _
    refine .step hnew.sound (hg.newTarget s).moves fun target read hread => ?_
    refine .check hread.sound (.report _) fun _ found hfound => ?_
    have hgeneric : Moves (Parse.attempt do
        typeArguments g s
        unless ← isSign "(" do unexpected) :=
      .attempt ((typeArguments_moves hg.moving s).bind fun _ =>
        .peek (.isSign _) fun _ => .branch (.pure _) .unexpected)
    refine .step hfound.sound hgeneric fun generic typed htyped => .peek (.isSign _) fun _ => ?_
    have htyped := hnew.before (hread.trans (hfound.trans htyped))
    extract_lets after
    have hafter (next : ParseState) (hnext : st.Past next) : Reaches (after ()) next fun c last =>
        st.Before last ∧ c.Spans s.file st.here last.lastStop := by
      refine .peek (.isSign _) fun _ => .branch (fun _ => ?_) fun _ => otherFrom_reaches s hnext _
      exact .step hnext.sound (callArguments_lays hg s).moves fun _ _ hargs =>
        otherSuffixed_reaches hg s true (hnext.before hargs) _
    refine .branch (fun _ => ?_) fun _ => hafter typed htyped
    exact .step htyped.sound (.attempt (loneTypeArguments_moves hg s)) fun _ next hnext =>
      hafter next (htyped.before hnext)
  refine .peek (.isWord _) fun _ => .branch (fun _ => ?_) fun _ => ?_
  · exact (superForm_covers hg s true).bind hsuffixes st hst
  refine .peek (.isWord _) fun _ => .branch (fun _ => ?_) fun _ => ?_
  · exact (importForm_covers hg s true).bind hsuffixes st hst
  · exact (primary_covers hg s).bind hsuffixes st hst

theorem postfixed_covers (s : Setting) : Covers s.file (g.postfixed s) := by
  intro st hst
  have hsuffixes : Continues s.file (g.suffixes s false) := suffixes_continues hg s false
  refine .peek (.isSign _) fun _ => .branch (fun _ => .start ?_) fun _ => ?_
  · exact .pass hst (hg.element s) fun _ _ helement => otherSuffixed_reaches hg s false helement _
  refine .peek (.isWord _) fun _ => .branch (fun _ => ?_) fun _ => ?_
  · exact (hg.newTarget s).bind hsuffixes st hst
  refine .peek (.isWord _) fun _ => .branch (fun _ => ?_) fun _ => ?_
  · exact (superForm_covers hg s false).bind hsuffixes st hst
  refine .peek (.isWord _) fun _ => .branch (fun _ => ?_) fun _ => ?_
  · exact (importForm_covers hg s false).bind hsuffixes st hst
  · exact (primary_covers hg s).bind hsuffixes st hst

/-! ### Operators -/

omit hg in
theorem updated_continues (s : Setting) : Continues s.file (updated s) := by
  intro st lo c hst hc
  refine .branch (fun _ => .pure ⟨hst.before, hc⟩) fun _ => ?_
  refine .peek (.isAnySign _) fun _ => .peek .afterLine fun _ => ?_
  refine .branch (fun _ => ?_) fun _ => .pure ⟨hst.before, hc⟩
  refine .step hst (.reportAny _) fun _ next hnext =>
    .step hnext.sound .advance fun _ sign hsign => ?_
  have hsign := hnext.trans hsign
  have hpos : c.start < sign.lastStop := Nat.lt_of_lt_of_le hc.solid hsign.lastStop
  refine (otherAt_reaches s hsign.sound hpos _).mono fun c last ⟨hlast, h⟩ =>
    ⟨hsign.trans hlast, ?_⟩
  exact h.widen hc.start

/-- An operator before its operand, which starts where the operator does. -/
theorem operation_reaches (s : Setting) (op : UnaryOp) {first st : ParseState} (h : first.Past st) :
    Reaches (unaryRule.operation g s first.here op) st fun c after =>
      first.Before after ∧ c.Spans s.file first.here after.lastStop := by
  refine (hg.unary s st h.sound).bind fun operand read ⟨hread, hoperand⟩ => ?_
  extract_lets deleted
  refine .check hread.sound (.report _) fun _ after hafter => .spanFrom (.pure ?_)
  have hpast := h.before (hread.trans hafter)
  refine ⟨hpast.toBefore, .of_fit rfl hpast.passed
    (.cons (hoperand.fits_start ?_ hafter.lastStop) .nil)⟩
  exact Nat.lt_of_lt_of_le h.here_lt hoperand.start

theorem operandForm_covers (s : Setting) : Covers s.file (unaryRule.operandForm g s) :=
  (postfixed_covers hg s).bind (updated_continues s)

theorem unaryRule_covers (s : Setting) : Covers s.file (g.unaryRule s) := by
  have hform : Covers s.file (unaryRule.operandForm g s) := operandForm_covers hg s
  intro st hst
  have hunary := (hg.unary s).moves
  unfold unaryRule
  -- What an angle bracket opens ends where its operand ends.
  have hwrapped (wrapper : Wrapper) (asTarget : Cover → Option Nat) {opened : ParseState}
      (hopened : st.Past opened) : Reaches (do
        let inner ← g.unary s
        let span ← spanFrom s st.here
        return (⟨.wrapped span wrapper inner.expr, some st.here, asTarget inner, false⟩ : Cover))
      opened fun c last => st.Before last ∧ c.Spans s.file st.here last.lastStop := by
    refine (hg.unary s opened hopened.sound).bind fun inner after ⟨hafter, hinner⟩ => ?_
    have hpast := hopened.before hafter
    refine .spanFrom (.pure ⟨hpast.toBefore, .of_fit rfl hpast.passed (.cons ?_ .nil)⟩)
    exact hinner.fits_start (Nat.lt_of_lt_of_le hopened.here_lt hinner.start) (Nat.le_refl _)
  refine .start (.lexeme fun lexeme hlexeme => ?_)
  have hpast (htoken : lexeme.isToken = true) : st.Past st.next := hst.past_next (hlexeme ▸ htoken)
  split
  · refine .branch (fun _ => hform st hst) fun _ =>
      .advance (.isWord (.branch (fun _ => ?_) fun _ => ?_))
    · refine .step (hpast rfl).sound .advance fun _ word hword => ?_
      refine .step hword.sound (.expectSign _) fun _ closed hclosed => ?_
      exact hwrapped .asConst (fun _ => some st.here) ((hpast rfl).before (hword.trans hclosed))
    · refine .step (hpast rfl).sound (hg.type s true) fun _ typed htyped => ?_
      refine .step htyped.sound (.expectSign _) fun _ closed hclosed => ?_
      exact hwrapped .typeAssertion Cover.asTarget ((hpast rfl).before (htyped.trans hclosed))
  · refine .advance (.step (hpast rfl).sound hunary fun operand read hread => ?_)
    refine .step hread.sound (.reportAny _) fun _ after hafter => ?_
    exact otherFrom_reaches s ((hpast rfl).before (hread.trans hafter)) _
  · refine .advance (.step (hpast rfl).sound hunary fun operand read hread => ?_)
    refine .step hread.sound (.reportAny _) fun _ after hafter => ?_
    exact otherFrom_reaches s ((hpast rfl).before (hread.trans hafter)) _
  · split
    · exact .advance (operation_reaches hg s _ (hpast rfl))
    · exact hform st hst
  · exact .advance (operation_reaches hg s .typeOf (hpast rfl))
  · exact .advance (operation_reaches hg s .void (hpast rfl))
  · exact .advance (operation_reaches hg s .delete (hpast rfl))
  · -- An `await` may be reported, but is read in the same way.
    refine .advance ?_
    extract_lets _ after
    have hafter (next : ParseState) (hnext : st.Past next) : Reaches (after ()) next fun c last =>
        st.Before last ∧ c.Spans s.file st.here last.lastStop := by
      refine .peek (.isAnySign _) fun _ => .branch (fun _ => .stopped) fun _ => ?_
      exact .step hnext.sound hunary fun _ _ hread => otherFrom_reaches s (hnext.before hread) _
    refine .branch (fun _ => ?_) fun _ => hafter _ (hpast rfl)
    refine .start (.step (hpast rfl).sound (.report _) fun _ next hnext => ?_)
    exact hafter next ((hpast rfl).before hnext)
  · exact hform st hst

omit hg in
theorem operatorHere?_peeks (s : Setting) : Peeks (operatorHere? s) := by
  refine Peeks.lexeme.bind fun lexeme => ?_
  split
  · exact .pure _
  · exact .pure _
  · exact Peeks.get.bind fun _ => .pure _
  · exact .pure _
  · exact .pure _

theorem operatorStep_reaches (s : Setting) (bound : Nat) {lo : Nat} {left : Cover} {st : ParseState}
    (hst : st.Sound) (hleft : left.Spans s.file lo st.lastStop) :
    Reaches (g.operatorStep s bound left) st fun next after =>
      st.Before after ∧ next.1.Spans s.file lo after.lastStop := by
  have hsame : st.Before st ∧ left.Spans s.file lo st.lastStop := ⟨hst.before, hleft⟩
  refine .isAnyWord fun isAny htoken => .peek .afterLine fun _ =>
    .branch (fun hany => ?_) fun _ => ?_
  · -- An assertion.
    have hword : st.Past st.next := hst.past_next (htoken (Bool.and_eq_true_iff.1 hany).1)
    have hwrapped (wrapper : Wrapper) (asTarget : Option Nat) {next : ParseState}
        (hnext : st.Past next) : Reaches (do
          let span ← spanFrom s left.start
          let next : Cover := ⟨.wrapped span wrapper left.expr, some left.start, asTarget, false⟩
          return (next, true))
        next fun next after => st.Before after ∧ next.1.Spans s.file lo after.lastStop := by
      refine .spanFrom (.pure ⟨hnext.toBefore, appended_spans hleft hst.order hnext.passed rfl ?_⟩)
      exact List.forall_mem_singleton.2 (.inl rfl)
    refine .peek (.isWord _) fun isAs => .advance (.peek (.isWord _) fun _ => ?_)
    refine .branch (fun _ => ?_) fun _ => ?_
    · exact .step hword.sound .advance fun _ next hnext => hwrapped _ _ (hword.before hnext)
    · exact .step hword.sound (hg.type s true) fun _ next hnext => hwrapped _ _ (hword.before hnext)
  refine .peek (operatorHere?_peeks s) fun operator? => ?_
  cases operator? with
  | none => exact .pure hsame
  | some found =>
    obtain ⟨op, length⟩ := found
    refine .branch (fun _ => .pure hsame) fun _ => ?_
    extract_lets after
    -- Past the operator come its operand and all that binds tighter, up to where the span ends.
    have hafter : Reaches (after ()) st fun next after =>
        st.Before after ∧ next.1.Spans s.file lo after.lastStop := by
      have hsign :=
        hst.before_rejoined { st.current.token with stop := st.here + length } length rfl
      refine .get (.reread (.advance ?_))
      refine (hg.unary s _ hsign.sound).bind fun operand read ⟨hread, hoperand⟩ => ?_
      refine ((hg.operators s _).reaches hread hoperand).bind fun right last ⟨hlast, hright⟩ => ?_
      refine .modify (.pure ?_)
      have hbehind := hsign.trans hlast
      have hstart : st.here ≤ right.start := Nat.le_trans hsign.here hright.start
      have hlt : st.here < last.lastStop := Nat.lt_of_le_of_lt hstart hright.solid
      refine ⟨⟨⟨hlast.sound.order, hlast.sound.current⟩, hbehind.lastStop, hbehind.here⟩, ?_⟩
      refine appended_spans hleft hst.order hlt (by rw [← hright.stop]; rfl) ?_
      refine List.forall_mem_cons.2 ⟨.inl rfl, List.forall_mem_singleton.2 (.inr ?_)⟩
      exact hright.piece_in hstart (Nat.le_refl _)
    refine .branch (fun _ => ?_) fun _ => hafter
    split
    · exact .stuck
    · exact .stuck
    · exact hafter

theorem operatorsRule_continues (s : Setting) (bound : Nat) :
    Continues s.file fun left => g.operatorsRule s left bound := by
  intro st lo left hst hleft
  refine .branch (fun _ => .pure ⟨hst.before, hleft⟩) fun _ => ?_
  refine .loop ⟨hst.before, hleft⟩ fun c between ⟨hbetween, hc⟩ => ?_
  refine (operatorStep_reaches hg s bound hbetween.sound hc).mono fun next after
    ⟨hafter, hnext⟩ => ?_
  exact ⟨hbetween.trans hafter, hnext⟩

/-! ### Assignments -/

theorem yieldForm_covers (s : Setting) : Covers s.file (g.yieldForm s) := by
  refine fun st hst => .start (.pass hst (.expectWord _) fun _ word hword => ?_)
  have hother {after : ParseState} (hafter : word.Before after) :
      Reaches (otherFrom s st.here .yieldExpression) after fun c last =>
        st.Before last ∧ c.Spans s.file st.here last.lastStop :=
    otherFrom_reaches s (hword.before hafter) _
  refine .peek .afterLine fun _ => .peek startsExpression_peeks fun _ =>
    .peek (.isSign _) fun _ => ?_
  refine .branch (fun _ => hother hword.sound.before) fun _ => ?_
  refine .step hword.sound (.eatSign _) fun _ star hstar => ?_
  exact .step hstar.sound (hg.assignment s).moves fun _ _ hafter => hother (hstar.trans hafter)

theorem elementOperand_covers (s : Setting) : Covers s.file (g.elementOperand s) := by
  intro st hst
  refine .start ((Reaches.attempt (hg.element s st hst)).bind fun found between
    ⟨hsome, hnone⟩ => ?_)
  cases found with
  | some u => exact otherSuffixed_reaches hg s false (hsome u rfl) _
  | none =>
    cases hnone rfl
    refine (Reaches.attempt (genericArrow_covers hg s st hst)).bind fun arrow? after
      ⟨hsome, hnone⟩ => ?_
    cases arrow? with
    | some arrow => exact .pure (hsome arrow rfl)
    | none => exact hnone rfl ▸ hg.unary s st hst

theorem angledOperand_covers (s : Setting) : Covers s.file (g.angledOperand s) := by
  refine fun st hst => .start (.peek (.wouldParse _) fun _ => ?_)
  refine .branch (fun _ => .peek (.wouldParse _) fun _ => ?_) fun _ => hg.unary s st hst
  refine .pass hst (typeParameters_passes hg.moving s) fun _ next hnext => .start ?_
  refine (bareParentheses_reaches hg _ hnext.sound).bind fun c read ⟨hread, hc⟩ => ?_
  have hread := hnext.before hread.toBefore
  refine .branch (fun _ => .pure ⟨hread.toBefore, startingAt_spans hc hnext.here⟩) fun _ => ?_
  refine .require fun _ => ?_
  have hsuffixed := (suffixes_continues hg s false).bind (updated_continues s)
  refine (hsuffixed.reaches hread.sound.before hc).bind fun inner after ⟨hafter, hinner⟩ => ?_
  have hpast := hread.before hafter
  refine .spanFrom (.pure ⟨hpast.toBefore, .of_fit rfl hpast.passed (.cons ?_ .nil)⟩)
  exact hinner.fits_start (Nat.lt_of_lt_of_le hnext.here_lt hinner.start) (Nat.le_refl _)

theorem assignmentRule_covers (s : Setting) : Covers s.file (g.assignmentRule s) := by
  refine fun st hst => .start (.peek (.isWord _) fun _ => ?_)
  refine .branch (fun _ => yieldForm_covers hg _ st hst) fun _ => .peek (.isSign _) fun _ => ?_
  extract_lets assigned after
  have hassigned (c : Cover) (between : ParseState) (hbetween : st.Before between)
      (hc : c.Spans s.file st.here between.lastStop) : Reaches (assigned c) between fun c last =>
        st.Before last ∧ c.Spans s.file st.here last.lastStop := by
    refine .branch (fun _ => ?_) fun _ => .pure ⟨hbetween, hc⟩
    exact (assignmentRest_continues hg { s with arrowAt := st.here }).reaches hbetween hc
  have hafter (operand : Cover) (read : ParseState) (hread : st.Before read)
      (hoperand : operand.Spans s.file st.here read.lastStop) :
      Reaches (after operand) read fun c last =>
        st.Before last ∧ c.Spans s.file st.here last.lastStop := by
    have hoperators := hg.operators { s with arrowAt := st.here } 0
    refine (hoperators.reaches hread hoperand).bind fun test next ⟨hnext, htest⟩ => ?_
    refine .branch (fun _ => .pure ⟨hnext, htest⟩) fun _ => ?_
    refine .eat hnext.sound (.sign _) (fun sign hsign => .yes ?_)
      (.no (hassigned test next hnext htest))
    refine (branches_reaches hg _ htest hsign.toBefore).bind fun c last ⟨hlast, hc⟩ => ?_
    exact hassigned c last (hnext.trans hlast) hc
  refine .branch (fun _ => .branch (fun _ => ?_) fun _ => ?_) fun _ => ?_
  · exact (elementOperand_covers hg _ st hst).bind fun c read ⟨hread, hc⟩ => hafter c read hread hc
  · exact (angledOperand_covers hg _ st hst).bind fun c read ⟨hread, hc⟩ => hafter c read hread hc
  · exact (hg.unary _ st hst).bind fun c read ⟨hread, hc⟩ => hafter c read hread hc

end Grammar

end StaticConfig
