import StaticConfig.Proofs.Source.Layout.Literal

/-!
# Operands are laid out well

The rules of arrow functions and parentheses, and of all expressions that nothing is appended to
yet. Whether parentheses hold parameters is decided behind them, so where an arrow function starts
is a place before the current token.
-/

namespace StaticConfig

open Parse

namespace Grammar

variable {g : Grammar} (hg : g.Laying)

include hg

/-! ### Blocks and arrow functions -/

omit hg in
theorem body_laid {file : Path} {lo hi : Nat} {body : ArrowBody} (hlt : lo < hi)
    (h : AllFit ⟨file, lo, hi⟩ body.pieces) : (Node.body ⟨file, lo, hi⟩ body).Laid file :=
  AllFit.laid (.body ⟨file, lo, hi⟩ body) h nofun fun _ _ => hlt

omit hg in
/-- An arrow function whose body and parameters are where they belong. -/
theorem arrow_spans {file : Path} {lo hi : Nat} (isAsync : Bool) {params : List Param}
    {body : ArrowBody} (hlt : lo < hi) (hbody : AllFit ⟨file, lo, hi⟩ body.pieces)
    (hparams : AllFit ⟨file, lo, hi⟩ (params.flatMap Param.pieces)) :
    (Cover.value (.arrow ⟨file, lo, hi⟩ isAsync params body)).Spans file lo hi := by
  refine .of_fit rfl hlt (.cons ⟨⟨?_, body_laid hlt hbody⟩, nofun⟩ hparams)
  exact ⟨rfl, Nat.le_refl _, Nat.le_refl _⟩

/-- Statements in braces stand behind the opening one. -/
theorem block_lays (s : Setting) : Lays (g.block s) fun lo hi statements =>
    lo < hi ∧ AllIn s.file (lo + 1) hi (statements.map Stmt.piece) := by
  refine fun st hst => .pass hst (.expectSign _) fun _ opened hopened => ?_
  refine (Lays.untilSign (widens_allIn s.file fun statement => [Stmt.piece statement])
    (hg.statement s true) _ opened hopened.sound).mono fun statements after ⟨hafter, h⟩ => ?_
  have hpast := hopened.before hafter
  exact ⟨hpast.toBefore, hpast.passed, (AllIn.map h).widen hopened.here_lt (Nat.le_refl _)⟩

theorem arrowBody_lays (s : Setting) (isAsync : Bool) : Lays (g.arrowBody s isAsync)
    fun lo hi body => AllIn s.file lo hi body.pieces := by
  refine fun st hst => .peek (.isSign _) fun _ => .branch (fun _ => ?_) fun _ => ?_
  · refine (block_lays hg _ st hst).bind fun statements after ⟨hafter, _, h⟩ => .pure ⟨hafter, ?_⟩
    exact h.widen (Nat.le_succ _) (Nat.le_refl _)
  · exact (hg.assignment _ st hst).bind fun c after ⟨hafter, hc⟩ => .pure ⟨hafter, hc.allIn⟩

theorem arrowFrom_reaches (s : Setting) (isAsync : Bool) {params : List Param} {pos : Nat}
    {st : ParseState} (hst : st.Sound) (hpos : pos ≤ st.here)
    (hparams : AllIn s.file pos st.lastStop (params.flatMap Param.pieces)) :
    Reaches (g.arrowFrom s pos isAsync params) st fun c after =>
      st.Past after ∧ c.Spans s.file pos after.lastStop := by
  refine .peek .afterLine fun _ => ?_
  extract_lets rest
  refine .branch (fun _ => .stuck) fun _ => ?_
  refine .pass hst (.expectSign _) fun _ opened hopened => ?_
  refine (arrowBody_lays hg s isAsync opened hopened.sound).bind fun body after
    ⟨hafter, hbody⟩ => ?_
  have hpast := hopened.before hafter
  have hlt : pos < after.lastStop := Nat.lt_of_le_of_lt hpos hpast.passed
  refine .spanFrom (.pure ⟨hpast, arrow_spans isAsync hlt ?_ ?_⟩)
  · exact hbody.fit_start (Nat.lt_of_le_of_lt hpos hopened.here_lt) (Nat.le_refl _)
  · exact hparams.fit_stop (Nat.le_refl _) (Nat.lt_of_le_of_lt hst.order hpast.passed)

omit hg in
/-- An arrow function may start earlier than its parameters. -/
theorem startingAt_spans {file : Path} {lo hi pos : Nat} {c : Cover} (h : c.Spans file lo hi)
    (hpos : pos ≤ lo) : (c.startingAt pos).Spans file pos hi := by
  unfold Cover.startingAt
  split
  · rename_i span isAsync params body hexpr
    obtain ⟨hstart, hsolid, hstop, hlaid⟩ := h
    unfold Cover.start at hstart hsolid
    rw [hexpr] at hstart hsolid hstop hlaid
    have hle : pos ≤ span.start := Nat.le_trans hpos hstart
    cases (hlaid _ .self).file
    cases hstop
    have hfit : AllFit span (.function (.body span body) :: params.flatMap Param.pieces) :=
      hlaid.allFit rfl
    obtain ⟨hfunction, hparams⟩ := List.forall_mem_cons.1 hfit
    have hbody : AllFit span body.pieces := hfunction.1.2.allFit rfl
    exact arrow_spans isAsync (Nat.lt_of_le_of_lt hle hsolid) (hbody.widen_start hle)
      (AllFit.widen_start hparams hle)
  · exact h.widen hpos

/-! ### Parentheses -/

/-- The pieces of what stands between commas in parentheses. -/
def Parenthesized.pieces : Parenthesized → List Piece
  | .expr c _ => [c.expr.piece]
  | .param p _ _ => p.pieces

omit hg in
theorem param_allIn {file : Path} {lo hi : Nat} {c : Cover} (h : AllIn file lo hi [c.expr.piece]) :
    AllIn file lo hi c.param.pieces := by
  have hspan : c.expr.span.In file lo hi := (h _ List.mem_cons_self).1
  have hstop {span : Span} (kind : Kind) (heq : c.expr.span = span) :
      AllIn file lo hi [.stop kind span] := List.forall_mem_singleton.2 (heq ▸ hspan)
  unfold Cover.param
  split
  case h_1 => exact .nil
  case h_5 => exact hstop _ rfl
  all_goals
    rename_i hexpr
    exact hstop _ (by rw [hexpr]; rfl)

omit hg in
theorem toParam_allIn {file : Path} {lo hi : Nat} {item : Parenthesized}
    (h : AllIn file lo hi item.pieces) : AllIn file lo hi item.toParam.pieces := by
  cases item with
  | param => exact h
  | expr c isSpread =>
    cases isSpread with
    | true => exact List.forall_mem_singleton.2 (h _ List.mem_cons_self).1
    | false => exact param_allIn h

omit hg in
theorem paramsOf_reaches {file : Path} {lo hi : Nat} {items : List Parenthesized}
    (h : ∀ item ∈ items, AllIn file lo hi item.pieces) {st : ParseState} (hst : st.Sound) :
    Reaches (paramsOf items) st fun params after =>
      st.Before after ∧ AllIn file lo hi (params.flatMap Param.pieces) := by
  induction items generalizing st with
  | nil => exact .pure ⟨hst.before, .nil⟩
  | cons item rest ih =>
    obtain ⟨hitem, hrest⟩ := List.forall_mem_cons.1 h
    refine .step hst (.reportAny _) fun _ next hnext => ?_
    refine .check hnext.sound (.report _) fun _ between hbetween => ?_
    refine (ih hrest hbetween.sound).bind fun params last ⟨hlast, hparams⟩ => .pure ⟨?_, ?_⟩
    · exact hnext.trans (hbetween.trans hlast)
    · exact (toParam_allIn hitem).append hparams

omit hg in
theorem parenthesizedValues_reaches {file : Path} {lo hi : Nat} {items : List Parenthesized}
    (h : ∀ item ∈ items, AllIn file lo hi item.pieces) {st : ParseState} :
    Reaches (parenthesizedValues items) st fun values after =>
      after = st ∧ ∀ value ∈ values, AllIn file lo hi [value.1.expr.piece] := by
  induction items with
  | nil => exact .pure ⟨rfl, nofun⟩
  | cons item rest ih =>
    obtain ⟨hitem, hrest⟩ := List.forall_mem_cons.1 h
    cases item with
    | expr c isSpread =>
      refine (ih hrest).bind fun values after ⟨heq, hvalues⟩ => .pure ⟨heq, ?_⟩
      exact List.forall_mem_cons.2 ⟨hitem, hvalues⟩
    | param => exact .stopAt _

theorem branches_reaches (s : Setting) {lo : Nat} {test : Cover} {first st : ParseState}
    (htest : test.Spans s.file lo first.lastStop) (h : first.Before st) :
    Reaches (g.branches s test) st fun c after =>
      first.Before after ∧ c.Spans s.file lo after.lastStop := by
  refine (hg.assignment _ st h.sound).bind fun yes between ⟨hbetween, hyes⟩ => ?_
  refine .step hbetween.sound (.expectSign _) fun _ colon hcolon => ?_
  refine (hg.assignment _ colon hcolon.sound).bind fun no after ⟨hafter, hno⟩ => .pure ⟨?_, ?_⟩
  · exact h.trans (hbetween.trans (hcolon.trans hafter))
  have htestStop : test.start < st.here :=
    Nat.lt_of_lt_of_le htest.solid (Nat.le_trans h.lastStop h.sound.order)
  have hnoStart : st.here ≤ no.start :=
    Nat.le_trans (hbetween.trans hcolon).here hno.start
  have hlast : first.lastStop < after.lastStop :=
    Nat.lt_of_le_of_lt (Nat.le_trans h.lastStop (Nat.le_trans h.sound.order hnoStart)) hno.solid
  refine (Cover.Spans.of_fit (by rw [← hno.stop]; rfl) (Nat.lt_trans htest.solid hlast) ?_).widen
    htest.start
  refine .cons (htest.fits_stop (Nat.le_refl _) hlast) (.cons (hyes.fits_start ?_ ?_)
    (.cons (hno.fits_start (Nat.lt_of_lt_of_le htestStop hnoStart) (Nat.le_refl _)) .nil))
  · exact Nat.lt_of_lt_of_le htestStop hyes.start
  · exact (hcolon.trans hafter).lastStop

omit hg in
theorem assignmentOperator_reaches {st : ParseState} (hst : st.Sound) :
    Reaches assignmentRest.assignmentOperator st fun operator? after =>
      st.Before after ∧ (operator? = none → after = st) := by
  refine .lexeme fun lexeme _ => ?_
  split
  · refine .get ?_
    extract_lets current
    split
    · exact .reread (.advance (.pure ⟨hst.before_rejoined _ _ rfl, nofun⟩))
    · exact .pure ⟨hst.before, fun _ => rfl⟩
  · refine .branch (fun _ => .advance (.pure ⟨hst.before_next, nofun⟩)) fun _ => ?_
    exact .pure ⟨hst.before, fun _ => rfl⟩
  · exact .pure ⟨hst.before, fun _ => rfl⟩

theorem assignmentRest_continues (s : Setting) : Continues s.file (g.assignmentRest s) := by
  intro st lo target hst htarget
  refine (assignmentOperator_reaches hst).bind fun operator? next ⟨hnext, hnone⟩ => ?_
  cases operator? with
  | none => exact .pure ⟨hnext, hnone rfl ▸ htarget⟩
  | some text =>
    extract_lets destructures
    refine .join hnext.sound (.report _) (.reportAny _) fun _ between hbetween => ?_
    refine (hg.assignment s between hbetween.sound).bind fun value after ⟨hafter, hvalue⟩ => ?_
    have hbefore := hnext.trans (hbetween.trans hafter)
    have hlt : target.start < after.lastStop := Nat.lt_of_lt_of_le htarget.solid hbefore.lastStop
    refine .pure ⟨hbefore, (Cover.Spans.of_fit ?_ hlt .nil).widen htarget.start⟩
    rw [← hvalue.stop]
    rfl

theorem annotatedParam_reaches (s : Setting) (c : Cover) (isSpread : Bool) {first st : ParseState}
    (h : first.Before st) : Reaches (g.annotatedParam s first.here c isSpread) st fun item after =>
      first.Before after ∧ AllIn s.file first.here after.lastStop item.pieces := by
  refine .step h.sound (annotatedType_moves hg.moving s) fun _ typed htyped => .spanFrom ?_
  have htyped := h.trans htyped
  refine .eat htyped.sound (.sign _) (fun sign hsign => .yes ?_) (.no (.pure ⟨htyped, ?_⟩))
  · refine .step hsign.sound (hg.assignment s).moves fun _ after hafter =>
      .spanFrom (.pure ⟨?_, ?_⟩)
    · exact htyped.trans (hsign.toBefore.trans hafter)
    · exact stop_in _ (Nat.le_refl _)
  · show AllIn _ _ _ (Param.pieces (if isSpread then _ else _))
    split
    · exact stop_in _ (Nat.le_refl _)
    · split
      · exact .nil
      · exact stop_in _ (Nat.le_refl _)

/-- Only a name before a question mark can be a parameter. -/
theorem optionalParam_reaches {α : Type} (s : Setting) (c : Cover) (isSpread : Bool)
    (rest : α → Parse Parenthesized) {first st : ParseState} (h : first.Before st) :
    Reaches (do
      advance
      match c.expr with
      | .identifier _ => g.annotatedParam s first.here c isSpread
      | _ => stopAt c.start >>= rest) st fun item after =>
        first.Before after ∧ AllIn s.file first.here after.lastStop item.pieces := by
  refine .step h.sound .advance fun _ next hnext => ?_
  split
  · exact annotatedParam_reaches hg s c isSpread (h.trans hnext)
  · exact .stopped

/-- A parameter or value: whatever is read first decides what may follow. -/
theorem parenthesized_lays (s : Setting) : Lays (g.parenthesized s) fun lo hi item =>
    AllIn s.file lo hi item.pieces := by
  intro st hst
  refine .step hst idleModifiers_moves fun modifier passed hpassed => ?_
  refine .step hpassed.sound (.reportAny _) fun _ first hfirst => .start ?_
  have hfirst := hpassed.trans hfirst
  have hwiden {item : Parenthesized} {after : ParseState} (h : first.Before after ∧
      AllIn s.file first.here after.lastStop item.pieces) :
      st.Before after ∧ AllIn s.file st.here after.lastStop item.pieces :=
    ⟨hfirst.trans h.1, h.2.widen hfirst.here (Nat.le_refl _)⟩
  refine .mono ?_ fun _ _ => hwiden
  refine .step hfirst.sound (.eatSign _) fun isSpread named hnamed => .peek .isName fun isName => ?_
  extract_lets after inner
  -- A question mark or a colon may follow, and both may belong to a parameter.
  have hafter (c : Cover) (between : ParseState) (hbetween : first.Before between)
      (hc : c.Spans s.file first.here between.lastStop) :
      Reaches (after c) between fun item last =>
        first.Before last ∧ AllIn s.file first.here last.lastStop item.pieces := by
    refine .branch (fun _ => .pure ⟨hbetween, hc.allIn⟩) fun _ => .peek (.isSign _) fun _ => ?_
    extract_lets typed
    have htyped : Reaches (typed ()) between fun item last =>
        first.Before last ∧ AllIn s.file first.here last.lastStop item.pieces :=
      .peek (.isSign _) fun _ => .branch
        (fun _ => annotatedParam_reaches hg s c isSpread hbetween)
        fun _ => .pure ⟨hbetween, hc.allIn⟩
    have hoptional := optionalParam_reaches hg s c isSpread typed hbetween
    refine .branch (fun _ => .peek .peek fun next => ?_) fun _ => htyped
    split
    · exact hoptional
    · exact hoptional
    · exact hoptional
    · exact hoptional
    · refine .branch (fun _ => .stuck) fun _ => ?_
      refine .step hbetween.sound .advance fun _ sign hsign => ?_
      refine (branches_reaches hg s hc hsign).bind fun c last ⟨hlast, hc⟩ => .pure ⟨?_, hc.allIn⟩
      exact hbetween.trans hlast
  refine .branch (fun _ => ?_) fun _ => ?_
  · -- A name first: it may begin an arrow function, and then nothing more belongs to the item.
    refine (hg.unary inner named hnamed.sound).bind fun operand read ⟨hread, hoperand⟩ => ?_
    have hread := hnamed.trans hread
    have hoperand : operand.Spans s.file first.here read.lastStop := hoperand.widen hnamed.here
    refine .branch (fun _ => hafter operand read hread hoperand) fun _ => ?_
    refine ((hg.operators inner 0).reaches hread hoperand).bind fun operation read' ⟨hread',
      hoperation⟩ => ?_
    refine .branch (fun _ => hafter operation read' hread' hoperation) fun _ => ?_
    refine ((assignmentRest_continues hg s).reaches hread' hoperation).bind ?_
    exact fun c last ⟨hlast, hc⟩ => hafter c last hlast hc
  · refine (hg.assignment s named hnamed.sound).bind fun c last ⟨hlast, hc⟩ => ?_
    exact hafter c last (hnamed.trans hlast) (hc.widen hnamed.here)

/-- Items in parentheses become the parameters of an arrow function that starts before them. -/
theorem arrowOf_reaches (s : Setting) (isAsync : Bool) {items : List Parenthesized} {pos hi : Nat}
    {st : ParseState} (hst : st.Sound) (hpos : pos ≤ st.here) (hhi : hi ≤ st.lastStop)
    (hitems : ∀ item ∈ items, AllIn s.file pos hi item.pieces) :
    Reaches (do arrowFrom g s pos isAsync (← paramsOf items)) st fun c after =>
      st.Past after ∧ c.Spans s.file pos after.lastStop := by
  refine (paramsOf_reaches hitems hst).bind fun params next ⟨hnext, hparams⟩ => ?_
  refine (arrowFrom_reaches hg s isAsync hnext.sound (Nat.le_trans hpos hnext.here)
    (hparams.widen (Nat.le_refl _) (Nat.le_trans hhi hnext.lastStop))).mono ?_
  exact fun _ _ ⟨hafter, hc⟩ => ⟨hnext.past hafter, hc⟩

theorem arrowBeforeColon_reaches (s : Setting) (isAsync : Bool) {items : List Parenthesized}
    {pos hi : Nat} {st : ParseState} (hst : st.Sound) (hpos : pos ≤ st.here)
    (hhi : hi ≤ st.lastStop)
    (hitems : ∀ item ∈ items, AllIn s.file pos hi item.pieces) :
    Reaches (g.arrowBeforeColon s pos isAsync items) st fun c after =>
      st.Past after ∧ c.Spans s.file pos after.lastStop := by
  refine .step hst (.expectSign _) fun _ colon hcolon => ?_
  refine .step hcolon.sound (returnType_moves hg.moving s) fun _ typed htyped => ?_
  have htyped := hcolon.trans htyped
  refine .peek (.isSign _) fun _ => .require fun _ => ?_
  refine (paramsOf_reaches hitems htyped.sound).bind fun params next ⟨hnext, hparams⟩ => ?_
  have hnext := htyped.trans hnext
  refine (arrowFrom_reaches hg s isAsync hnext.sound (Nat.le_trans hpos hnext.here)
    (hparams.widen (Nat.le_refl _) (Nat.le_trans hhi hnext.lastStop))).bind ?_
  intro arrow after ⟨hafter, harrow⟩
  exact .peek (.isSign _) fun _ => .require fun _ => .pure ⟨hnext.past hafter, harrow⟩

omit hg in
theorem other_laid (span : Span) (kind : Kind) : (Node.expr (.other span kind)).Laid span.file :=
  AllFit.laid (.expr (.other span kind)) .nil nofun nofun

omit hg in
theorem identifier_in (file : Path) (text : String) {lo hi : Nat} (h : lo < hi) :
    (Expr.identifier ⟨text, ⟨file, lo, hi⟩⟩).piece.In file lo hi :=
  ⟨⟨rfl, Nat.le_refl _, Nat.le_refl _⟩,
    Expr.laid_of_fit h (List.forall_mem_singleton.2 ⟨rfl, nofun⟩)⟩

omit hg in
/-- Values between commas stand between the places around all of them. -/
theorem sequence_in {file : Path} {lo hi : Nat} {first : Cover} {rest : List (Cover × Bool)}
    (hfirst : AllIn file lo hi [first.expr.piece])
    (hrest : ∀ value ∈ rest, AllIn file lo hi [value.1.expr.piece]) :
    let stop := (rest.getLast?.map (·.1.expr.span.stop)).getD first.expr.span.stop
    (Expr.other ⟨file, first.start, stop⟩ .commaExpression).piece.In file lo hi := by
  have hstop : (rest.getLast?.map (·.1.expr.span.stop)).getD first.expr.span.stop ≤ hi := by
    cases hlast : rest.getLast? with
    | none => exact (hfirst _ List.mem_cons_self).1.2.2
    | some last => exact (hrest last (List.mem_of_getLast? hlast) _ List.mem_cons_self).1.2.2
  exact ⟨⟨rfl, (hfirst _ List.mem_cons_self).1.2.1, hstop⟩, other_laid _ _⟩

/-- What stands between the parentheses, read item by item up to the closing one. -/
theorem parenthesizedItems_reaches (s : Setting) {opened : ParseState} (hopened : opened.Sound) :
    Reaches (loop ([], none) fun (items, _) => do
      if ← isSign ")" then return ((items, none), false)
      let item ← g.parenthesized s
      if ← isSign ")" then return ((item :: items, none), false)
      let commaAt ← start
      expectSign ","
      if ← isSign ")" then return ((item :: items, some commaAt), false)
      return ((item :: items, none), true)) opened fun found after =>
        opened.Before after ∧
          ∀ item ∈ found.1, AllIn s.file opened.here after.lastStop item.pieces := by
  refine Reaches.loop (I := fun (found : List Parenthesized × Option Nat) after =>
    opened.Before after ∧ ∀ item ∈ found.1, AllIn s.file opened.here after.lastStop item.pieces)
    ⟨hopened.before, nofun⟩ fun (items, _) between ⟨hbetween, hitems⟩ => ?_
  refine .peek (.isSign _) fun _ => .branch (fun _ => .pure ⟨hbetween, hitems⟩) fun _ => ?_
  refine (parenthesized_lays hg s between hbetween.sound).bind fun item read ⟨hread, hitem⟩ => ?_
  have hmore {after : ParseState} (hafter : read.lastStop ≤ after.lastStop) :
      ∀ other ∈ item :: items, AllIn s.file opened.here after.lastStop other.pieces := by
    refine List.forall_mem_cons.2 ⟨hitem.widen hbetween.here hafter, fun other hother => ?_⟩
    exact (hitems other hother).widen (Nat.le_refl _) (Nat.le_trans hread.lastStop hafter)
  have hread' := hbetween.trans hread
  refine .peek (.isSign _) fun _ => .branch
    (fun _ => .pure ⟨hread', hmore (Nat.le_refl _)⟩) fun _ => ?_
  refine .start (.step hread.sound (.expectSign _) fun _ after hafter => ?_)
  have hdone := And.intro (hread'.trans hafter) (hmore hafter.lastStop)
  exact .peek (.isSign _) fun _ => .branch (fun _ => .pure hdone) fun _ => .pure hdone

omit hg in
/-- A call of the name `async`, which ends before the arguments begin. -/
theorem asyncCall_spans {file : Path} {pos lo hi stop : Nat} {values : List (Cover × Bool)}
    (hvalues : ∀ value ∈ values, AllIn file lo hi [value.1.expr.piece]) (hword : pos + 5 < stop)
    (hlo : pos < lo) (hhi : hi ≤ stop) :
    (Cover.value (.call ⟨file, pos, stop⟩
      (.value (.identifier ⟨"async", ⟨file, pos, pos + 5⟩⟩)) (values.map argumentOf))).Spans
        file pos stop := by
  have hcallee := (identifier_in file "async"
    (Nat.lt_add_of_pos_right (Nat.succ_pos 4) : pos < pos + 5)).fits_stop (Nat.le_refl _) hword
  have hargs := (arguments_allIn fun value hvalue =>
    (argumentOf_pieces value).symm ▸ hvalues value hvalue).fit_start hlo hhi
  have hlt : pos < stop := Nat.lt_of_le_of_lt (Nat.le_add_right pos 5) hword
  refine .of_fit rfl hlt ?_
  have hcall : AllFit ⟨file, pos, stop⟩ [.call] := .cons ⟨trivial, nofun⟩ .nil
  exact hcall.append (.cons hcallee hargs)

theorem parentheses_reaches (s : Setting) {asyncAt : Option Nat} {st : ParseState} (hst : st.Sound)
    (hasync : ∀ pos, asyncAt = some pos → pos + 5 ≤ st.lastStop) :
    Reaches (g.parentheses s asyncAt) st fun c after =>
      st.Past after ∧ c.Spans s.file (asyncAt.getD st.here) after.lastStop := by
  have hpos : asyncAt.getD st.here ≤ st.here := by
    cases asyncAt with
    | none => exact Nat.le_refl _
    | some pos =>
      exact Nat.le_trans (Nat.le_add_right pos 5) (Nat.le_trans (hasync pos rfl) hst.order)
  refine .start ?_
  extract_lets pos isAsync canBeArrow inner
  refine .pass hst (.expectSign _) fun _ opened hopened => ?_
  refine (parenthesizedItems_reaches hg inner hopened.sound).bind
    fun (found, comma) last ⟨hlast, hfound⟩ => ?_
  have hitems : ∀ item ∈ found.reverse, AllIn s.file opened.here last.lastStop item.pieces :=
    fun item hmem => hfound item (List.mem_reverse.1 hmem)
  refine .step hlast.sound (.expectSign _) fun _ closed hclosed => ?_
  have hpast : st.Past closed := hopened.before (hlast.trans hclosed)
  have hopen : pos < opened.here := Nat.lt_of_le_of_lt hpos hopened.here_lt
  have hparams : ∀ item ∈ found.reverse, AllIn s.file pos last.lastStop item.pieces :=
    fun item hmem => (hitems item hmem).widen (Nat.le_of_lt hopen) (Nat.le_refl _)
  have hplace {after : ParseState} (h : closed.Before after) :
      pos ≤ after.here ∧ last.lastStop ≤ after.lastStop :=
    ⟨Nat.le_trans hpos (hpast.before h).here, Nat.le_trans hclosed.lastStop h.lastStop⟩
  refine .peek (.isSign _) fun _ => ?_
  -- Only the last continuation is shared: it reads what follows the closing parenthesis.
  extract_lets _ _ _ _ later
  have hlater : Reaches (later ()) closed fun c after =>
      st.Past after ∧ c.Spans s.file pos after.lastStop := by
    refine .peek (.isSign _) fun _ => ?_
    refine .join hclosed.sound (.attempt ?_) (.pure _) fun returns after hafter => ?_
    · exact (Moves.expectSign _).bind fun _ => (returnType_moves hg.moving s).bind fun _ =>
        .peek (.isSign _) fun _ => .branch (.pure _) .unexpected
    refine .peek (.isSign _) fun _ => .branch (fun _ => ?_) fun _ => ?_
    · -- The parameters of an arrow function.
      refine .peek .afterLine fun _ => .branch (fun _ => .stuck) fun _ => ?_
      refine .branch (fun _ => ?_) fun _ => .stopped
      refine .peek (.isSign _) fun _ => .require fun _ => ?_
      refine (arrowOf_reaches hg s _ hafter.sound (hplace hafter).1
        (hplace hafter).2 hparams).mono ?_
      exact fun c last ⟨hlast, hc⟩ => ⟨(hpast.before hafter).before hlast.toBefore, hc⟩
    · -- The arguments of a call, or a value in parentheses.
      refine (parenthesizedValues_reaches hitems).bind fun values next ⟨heq, hvalues⟩ => ?_
      rw [heq]
      have hpast := hpast.before hafter
      have hlt : pos < after.lastStop := Nat.lt_of_le_of_lt hpos hpast.passed
      have hstop : last.lastStop ≤ after.lastStop := Nat.le_trans hclosed.lastStop hafter.lastStop
      split
      · have hword := hasync _ rfl
        have hsolid := Nat.lt_of_le_of_lt hword (Nat.lt_of_le_of_lt hst.order hpast.passed)
        exact .spanFrom (.pure ⟨hpast, asyncCall_spans hvalues hsolid hopen hstop⟩)
      · extract_lets inside afterSpread
        have hinside : Reaches (inside ()) after fun c after =>
            st.Past after ∧ c.Spans s.file pos after.lastStop := by
          refine .spanFrom ?_
          split
          · exact .stopAt _
          · have hvalue := (hvalues _ List.mem_cons_self).fit_start hopen hstop
            exact .pure ⟨hpast, .of_fit rfl hlt hvalue⟩
          · obtain ⟨hfirst, hrest⟩ := List.forall_mem_cons.1 hvalues
            have hsequence := (sequence_in hfirst hrest).fits_start hopen hstop
            exact .pure ⟨hpast, .of_fit rfl hlt (.cons hsequence .nil)⟩
        have hafterSpread : Reaches (afterSpread ()) after fun c after =>
            st.Past after ∧ c.Spans s.file pos after.lastStop :=
          .branch (fun _ => .lastStop .stopped) fun _ => hinside
        split
        · exact .stopped
        · exact hafterSpread
  refine .branch (fun _ => ?_) fun _ => hlater
  have hbefore := hclosed.sound.before
  refine (Reaches.attempt (arrowBeforeColon_reaches hg s _ hclosed.sound (hplace hbefore).1
    (hplace hbefore).2 hparams)).bind fun arrow? after ⟨hsome, hnone⟩ => ?_
  cases arrow? with
  | some arrow =>
    obtain ⟨hafter, hc⟩ := hsome arrow rfl
    exact .pure ⟨hpast.before hafter.toBefore, hc⟩
  | none =>
    cases hnone rfl
    exact hlater

/-- Parentheses that no name comes before. -/
theorem bareParentheses_reaches (s : Setting) {st : ParseState} (hst : st.Sound) :
    Reaches (g.parentheses s none) st fun c after =>
      st.Past after ∧ c.Spans s.file st.here after.lastStop :=
  parentheses_reaches hg s hst fun _ h => nomatch h

theorem genericArrow_covers (s : Setting) : Covers s.file (g.genericArrow s) := by
  refine fun st hst => .start (.step hst (typeParameters_passes hg.moving s).moves
    fun _ next hnext => ?_)
  refine .peek (.isSign _) fun _ => .require fun _ => .start ?_
  refine (bareParentheses_reaches hg _ hnext.sound).bind fun arrow after ⟨hafter, harrow⟩ => ?_
  exact .require fun _ => .pure ⟨hnext.trans hafter.toBefore, startingAt_spans harrow hnext.here⟩

/-! ### Functions, names and primary expressions -/

/-- A function expression may start before the word `function`. -/
theorem functionExpression_reaches (s : Setting) (isAsync : Bool) {first st : ParseState}
    (h : first.Before st) : Reaches (g.functionExpression s first.here isAsync) st fun c after =>
      first.Past after ∧ c.Spans s.file first.here after.lastStop := by
  refine .pass h.sound (.expectWord _) fun _ opened hopened => ?_
  refine .step hopened.sound (.eatSign _) fun isGenerator named hnamed => .peek .isName fun _ => ?_
  have hnamed := (h.past hopened).before hnamed
  extract_lets rest
  have hrest (next : ParseState) (hnext : first.Past next) : Reaches (rest ()) next fun c after =>
      first.Past after ∧ c.Spans s.file first.here after.lastStop :=
    .step hnext.sound (functionRest_moves hg.moving s _ _ _) fun _ _ hlast =>
      otherFrom_past s (hnext.before hlast) _
  refine .branch (fun _ => ?_) fun _ => hrest named hnamed
  exact .step hnamed.sound Passes.boundName.moves fun _ next hnext =>
    hrest next (hnamed.before hnext)

theorem nameOrArrow_covers (s : Setting) : Covers s.file (g.nameOrArrow s) := by
  refine fun st hst => .start ?_
  extract_lets canBeArrow
  refine .pass hst .name fun text named hnamed => .spanFrom (.peek (.isSign _) fun _ => ?_)
  refine .peek .afterLine fun _ => .branch (fun _ => ?_) fun _ => .pure ⟨hnamed.toBefore, ?_⟩
  · refine .check hnamed.sound (.report _) fun _ next hnext => ?_
    have hnext := hnamed.before hnext
    refine (arrowFrom_reaches hg s false hnext.sound hnext.here .nil).mono fun c after
      ⟨hafter, hc⟩ => ?_
    exact ⟨(hnext.before hafter.toBefore).toBefore, hc⟩
  · exact .of_fit rfl hnamed.passed (List.forall_mem_singleton.2 ⟨rfl, nofun⟩)

/-- At the word `async`. -/
theorem asyncForm?_reaches (s : Setting) {st : ParseState} (hst : st.Sound)
    (hasync : st.current.token.lexeme = .name "async") :
    Reaches (g.asyncForm? s) st fun form after => (form = none → after = st) ∧
      ∀ c, form = some c → st.Past after ∧ c.Spans s.file st.here after.lastStop := by
  have hadvance : st.Past st.next := hst.past_next (by rw [hasync]; rfl)
  have hword : st.here + 5 ≤ st.next.lastStop := hst.current.word _ hasync
  have hnone {after : ParseState} (heq : after = st) : ((none : Option Cover) = none → after = st) ∧
      ∀ c : Cover, none = some c → st.Past after ∧ c.Spans s.file st.here after.lastStop :=
    ⟨fun _ => heq, fun _ => nofun⟩
  have hsome {c : Cover} {after : ParseState}
      (h : st.Past after ∧ c.Spans s.file st.here after.lastStop) : (some c = none → after = st) ∧
      ∀ form, some c = some form → st.Past after ∧ form.Spans s.file st.here after.lastStop :=
    ⟨nofun, fun form heq => Option.some.inj heq ▸ h⟩
  refine .start ?_
  extract_lets canBeArrow
  refine .peek .peek fun next => .branch (fun _ => .pure (hnone rfl)) fun _ => ?_
  split
  · -- An asynchronous function.
    refine .advance ((functionExpression_reaches hg s true hadvance.toBefore).bind ?_)
    exact fun c after h => .pure (hsome h)
  · -- One parameter without parentheses.
    refine .peek (.wouldParse _) fun isArrow => .branch (fun _ => ?_) fun _ => .pure (hnone rfl)
    refine .advance (.pass hadvance.sound .boundName fun param named hnamed => ?_)
    have hnamed := hadvance.before hnamed.toBefore
    refine (arrowFrom_reaches hg s true hnamed.sound hnamed.here .nil).bind fun c after
      ⟨hafter, hc⟩ => ?_
    exact .pure (hsome ⟨hnamed.before hafter.toBefore, hc⟩)
  · -- Parameters, or the arguments of a call of something named `async`.
    refine .branch (fun _ => .advance ?_) fun _ => .pure (hnone rfl)
    refine (parentheses_reaches hg s hadvance.sound fun pos heq => ?_).bind
      fun c after ⟨hafter, hc⟩ => ?_
    · exact Option.some.inj heq ▸ hword
    · exact .pure (hsome ⟨hadvance.before hafter.toBefore, hc⟩)
  · -- Type parameters: only an arrow function may have them, else nothing was read.
    refine .branch (fun _ => ?_) fun _ => .pure (hnone rfl)
    refine .mono (.attempt (.advance ?_)) fun form after ⟨hsome, hnone⟩ => ⟨hnone, hsome⟩
    refine .step hadvance.sound (typeParameters_passes hg.moving s).moves fun _ next hnext => ?_
    have hword' : ∀ pos, some st.here = some pos → pos + 5 ≤ next.lastStop := fun pos heq =>
      Option.some.inj heq ▸ Nat.le_trans hword hnext.lastStop
    refine (parentheses_reaches hg s hnext.sound hword').bind fun c after ⟨hafter, hc⟩ => ?_
    exact .require fun _ => .pure ⟨hadvance.before (hnext.trans hafter.toBefore), hc⟩
  · exact .pure (hnone rfl)

theorem primary_covers (s : Setting) : Covers s.file (g.primary s) := by
  intro st hst
  have hadvance {lexeme : Lexeme} (h : st.current.token.lexeme = lexeme)
      (htoken : lexeme.isToken = true) : st.Past st.next := hst.past_next (h ▸ htoken)
  -- A slash in the place of an operand is read again, as a regular expression.
  obtain ⟨hfull, hstart⟩ := Lexer.readRegex_full hst.current.start
  have hread : st.Before { st with current := Lexer.readRegex st.current } :=
    ⟨⟨Nat.le_trans hst.order hstart, hfull⟩, Nat.le_refl _, hstart⟩
  have hregex (hlexeme : (Lexer.readRegex st.current).token.lexeme = .regex) :
      Reaches (do
        advance
        otherFrom s st.here .regularExpressionLiteral)
          { st with current := Lexer.readRegex st.current }
      fun c last => st.Before last ∧ c.Spans s.file st.here last.lastStop :=
    .advance (otherFrom_reaches s (hread.past (hread.sound.past_next (hlexeme ▸ rfl))) _)
  unfold primary
  refine .start (.lexeme fun lexeme hlexeme => ?_)
  split
  · exact .advance (.spanFrom (.pure ⟨hst.before_next,
      .of_fit rfl (hadvance hlexeme rfl).passed .nil⟩))
  · exact .advance (.spanFrom (.pure ⟨hst.before_next,
      .of_fit rfl (hadvance hlexeme rfl).passed .nil⟩))
  · exact .advance (otherFrom_reaches s (hadvance hlexeme rfl) _)
  · exact .advance (.peek (.isWord _) fun _ => .require fun _ =>
      otherFrom_reaches s (hadvance hlexeme rfl) _)
  · exact .advance (.spanFrom (.pure ⟨hst.before_next,
      .of_fit rfl (hadvance hlexeme rfl).passed .nil⟩))
  · exact .advance (.spanFrom (.pure ⟨hst.before_next,
      .of_fit rfl (hadvance hlexeme rfl).passed .nil⟩))
  · exact .advance (.spanFrom (.pure ⟨hst.before_next,
      .of_fit rfl (hadvance hlexeme rfl).passed .nil⟩))
  · exact .advance (otherFrom_reaches s (hadvance hlexeme rfl) _)
  · refine (functionExpression_reaches hg s false hst.before).mono ?_
    exact fun c after ⟨hafter, hc⟩ => ⟨hafter.toBefore, hc⟩
  · exact .pass hst (classRest_passes hg.moving s false) fun _ _ hafter =>
      otherFrom_reaches s hafter _
  · refine (asyncForm?_reaches hg s hst hlexeme).bind fun form after ⟨hnone, hsome⟩ => ?_
    cases form with
    | some c => exact .pure ⟨(hsome c rfl).1.toBefore, (hsome c rfl).2⟩
    | none => exact hnone rfl ▸ nameOrArrow_covers hg s st hst
  · exact nameOrArrow_covers hg s st hst
  · exact array_covers hg s st hst
  · exact object_covers hg s st hst
  · refine (bareParentheses_reaches hg s hst).mono fun c after ⟨hafter, hc⟩ => ?_
    exact ⟨hafter.toBefore, hc⟩
  · exact template_covers hg s st hst
  · refine .get (.reread (.lexeme fun lexeme hlexeme => ?_))
    split
    · exact hregex hlexeme
    · exact .unexpected
  · refine .get (.reread (.lexeme fun lexeme hlexeme => ?_))
    split
    · exact hregex hlexeme
    · exact .unexpected
  · exact .unexpected

end Grammar

end StaticConfig
