import StaticConfig.Proofs.Source.Layout.Fit

/-!
# Literals are laid out well

The rules of templates, arrays and objects. As before the statement is made for each rule under the
assumption that it holds of the grammar that the rule uses (`Grammar.Laying`).
-/

namespace StaticConfig

open Parse

/-- The parsers of a grammar lay out what they yield between the places where they start and end. -/
structure Grammar.Laying (g : Grammar) : Prop where
  assignment : ∀ s, Covers s.file (g.assignment s)
  unary : ∀ s, Covers s.file (g.unary s)
  operators : ∀ s bound, Continues s.file fun left => g.operators s left bound
  newTarget : ∀ s, Covers s.file (g.newTarget s)
  type : ∀ s conditional, Moves (g.type s conditional)
  pattern : ∀ s, Moves (g.pattern s)
  element : ∀ s, Passes (g.element s)
  statement : ∀ s declarations, Lays (g.statement s declarations) fun lo hi statement =>
    AllIn s.file lo hi [statement.piece]
  item : ∀ s, Lays (g.item s) fun lo hi item => AllIn s.file lo hi (item.nodes.map .part)

theorem Grammar.Laying.moving {g : Grammar} (hg : g.Laying) : g.Moving where
  assignment s := (hg.assignment s).moves
  unary s := (hg.unary s).moves
  type := hg.type
  pattern := hg.pattern
  element := hg.element
  statement s declarations := (hg.statement s declarations).moves

namespace Grammar

/-- What is left of an expression of which only the kind and the place are kept. -/
theorem otherFrom_past (s : Setting) {first st : ParseState} (h : first.Past st) (kind : Kind) :
    Reaches (otherFrom s first.here kind) st fun c after =>
      first.Past after ∧ c.Spans s.file first.here after.lastStop :=
  .spanFrom (.pure ⟨h, .of_fit rfl h.passed .nil⟩)

theorem otherFrom_reaches (s : Setting) {first st : ParseState} (h : first.Past st) (kind : Kind) :
    Reaches (otherFrom s first.here kind) st fun c after =>
      first.Before after ∧ c.Spans s.file first.here after.lastStop :=
  (otherFrom_past s h kind).mono fun _ _ ⟨hafter, hc⟩ => ⟨hafter.toBefore, hc⟩

variable {g : Grammar} (hg : g.Laying)

include hg

theorem expression_covers (s : Setting) : Covers s.file (g.expression s) := by
  refine fun st hst => (hg.assignment s st hst).bind fun first next ⟨hnext, hfirst⟩ => ?_
  refine .peek (.isSign _) fun _ => .branch (fun _ => ?_) fun _ => .pure ⟨hnext, hfirst⟩
  refine Reaches.bind (Reaches.loop
    (I := fun last after => next.Before after ∧ last.expr.span.stop = after.lastStop)
    ⟨hnext.sound.before, hfirst.stop⟩ fun last between ⟨hbetween, hlast⟩ => ?_)
    fun last after ⟨hafter, hlast⟩ => .pure ⟨hnext.trans hafter, ?_⟩
  · refine .eat hbetween.sound (.sign _) (fun comma hcomma => .yes ?_)
      (.no (.pure ⟨hbetween, hlast⟩))
    refine (hg.assignment s comma hcomma.sound).bind fun c after ⟨hafter, hc⟩ => ?_
    exact .pure ⟨(hbetween.trans hcomma.toBefore).trans hafter, hc.stop⟩
  · have hlt : first.start < after.lastStop := Nat.lt_of_lt_of_le hfirst.solid hafter.lastStop
    exact (Cover.Spans.of_fit (by rw [← hlast]; rfl) hlt .nil).widen hfirst.start

/-! ### Templates, arrays and objects -/

theorem computedKey_lays (s : Setting) :
    Lays (g.computedKey s) fun lo hi key => AllIn s.file lo hi [key.piece] := by
  refine fun st hst => .pass hst (.expectSign _) fun _ opened hopened => ?_
  refine (expression_covers hg _ opened hopened.sound).bind fun c next ⟨hnext, hc⟩ => ?_
  refine .step hnext.sound (.expectSign _) fun _ after hafter => .pure ⟨?_, ?_⟩
  · exact (hopened.before (hnext.trans hafter)).toBefore
  · exact hc.allIn.widen hopened.here hafter.lastStop

omit hg in
theorem argumentOf_pieces (argument : Cover × Bool) :
    (argumentOf argument).pieces = [argument.1.expr.piece] := by
  obtain ⟨c, isSpread⟩ := argument
  cases isSpread <;> rfl

theorem argument_lays (s : Setting) : Lays (g.argument s) fun lo hi argument =>
    AllIn s.file lo hi (argumentOf argument).pieces := by
  refine fun st hst => .step hst (.eatSign _) fun isSpread next hnext => ?_
  refine (hg.assignment s next hnext.sound).bind fun c after ⟨hafter, hc⟩ => .pure ⟨?_, ?_⟩
  · exact hnext.trans hafter
  · show AllIn s.file st.here after.lastStop (argumentOf (c, isSpread)).pieces
    rw [argumentOf_pieces]
    exact hc.allIn.widen hnext.here (Nat.le_refl _)

omit hg in
theorem arguments_allIn {file : Path} {lo hi : Nat} {arguments : List (Cover × Bool)}
    (h : ∀ argument ∈ arguments, AllIn file lo hi (argumentOf argument).pieces) :
    AllIn file lo hi ((arguments.map argumentOf).flatMap Argument.pieces) := by
  refine .flatMap fun argument hmem => ?_
  obtain ⟨given, hgiven, rfl⟩ := List.mem_map.1 hmem
  exact h given hgiven

/-- Arguments stand behind their opening parenthesis. -/
theorem callArguments_lays (s : Setting) : Lays (g.callArguments s) fun lo hi arguments =>
    lo < hi ∧ AllIn s.file (lo + 1) hi (arguments.flatMap Argument.pieces) := by
  refine fun st hst => .pass hst (.expectSign _) fun _ opened hopened => ?_
  refine (Lays.commaList (widens_allIn _ _) (argument_lays hg s.bracketed) ")" opened
    hopened.sound).bind fun arguments after ⟨hafter, harguments⟩ => .pure ?_
  have hpast := hopened.before hafter
  exact ⟨hpast.toBefore, hpast.passed, (arguments_allIn harguments).widen hopened.here_lt
    (Nat.le_refl _)⟩

theorem template_covers (s : Setting) : Covers s.file (g.template s) := by
  refine fun st hst => .start ?_
  refine (Lays.templatePieces (widens_allIn _ _)
    (expression_covers hg s.bracketed).allIn st hst).bind
    fun (head, parts, bad) read ⟨hread, hlt, hparts⟩ => ?_
  refine .step hread.sound (.reportAny _) fun _ after hafter => .spanFrom (.pure ⟨?_, ?_⟩)
  · exact hread.trans hafter
  · refine .of_fit rfl (Nat.lt_of_lt_of_le hlt hafter.lastStop) ?_
    refine AllIn.fit_start (.flatMap fun chunk hchunk => ?_) (Nat.lt_succ_self _) hafter.lastStop
    obtain ⟨part, hpart, rfl⟩ := List.mem_map.1 hchunk
    exact hparts part hpart

theorem array_covers (s : Setting) : Covers s.file (g.array s) := by
  refine fun st hst => .start (.pass hst (.expectSign _) fun _ opened hopened => ?_)
  refine (Lays.untilSign (widens_allIn s.file fun item => (elementOf item).pieces) ?_ "]" opened
    hopened.sound).bind fun items after ⟨hafter, hitems⟩ => .spanFrom (.pure ?_)
  · refine fun st hst => .eat hst (.sign _) (fun after hpast => .yes (.pure ⟨?_, .nil⟩)) (.no ?_)
    · exact hpast.toBefore
    refine (argument_lays hg s.bracketed st hst).bind fun argument read ⟨hread, hargument⟩ => ?_
    refine .peek (.isSign _) fun _ => .branch (fun _ => .pure ⟨hread, hargument⟩) fun _ => ?_
    refine .step hread.sound (.expectSign _) fun _ after hafter => .pure ⟨hread.trans hafter, ?_⟩
    exact hargument.widen (Nat.le_refl _) hafter.lastStop
  · have hpast := hopened.before hafter
    refine ⟨hpast.toBefore, .of_fit rfl hpast.passed ?_⟩
    refine AllIn.fit_start (.flatMap fun element helement => ?_) hopened.here_lt (Nat.le_refl _)
    obtain ⟨item, hitem, rfl⟩ := List.mem_map.1 helement
    exact hitems item hitem

omit hg in
/-- A form of which only the kind and the place are kept stands where it is read. -/
theorem stop_in {file : Path} {lo hi : Nat} (kind : Kind) {pos : Nat} (hpos : lo ≤ pos) :
    AllIn file lo hi [.stop kind ⟨file, pos, hi⟩] :=
  List.forall_mem_singleton.2 ⟨rfl, hpos, Nat.le_refl _⟩

theorem propertyKey_lays (s : Setting) : Lays (g.propertyKey s) fun lo hi key =>
    AllIn s.file lo hi key.1.pieces := by
  refine fun st hst => .start (.lexeme fun lexeme _ => ?_)
  split
  · exact .advance (.pure ⟨hst.before_next, .nil⟩)
  · exact .advance (.pure ⟨hst.before_next, .nil⟩)
  · exact .advance (.pure ⟨hst.before_next, .nil⟩)
  · exact .advance (.spanFrom (.pure ⟨hst.before_next, stop_in _ (Nat.le_refl _)⟩))
  · exact (computedKey_lays hg s st hst).bind fun key after hkey => .pure hkey
  · exact .unexpected

omit hg in
theorem idleModifiers_moves : Moves idleModifiers := by
  refine .loop _ fun last => .peek (.isAnyWord _) fun _ =>
    .branch (.peek .peek fun next => ?_) (.pure _)
  split
  · exact .peek .start fun pos => Moves.advance.bind fun _ => .pure _
  · exact .peek .start fun pos => Moves.advance.bind fun _ => .pure _
  · exact .peek .start fun pos => Moves.advance.bind fun _ => .pure _
  · exact .pure _

omit hg in
theorem otherMember_reaches (s : Setting) {first st : ParseState} (h : first.Before st)
    (kind : Kind) :
    Reaches (otherMember s first.here kind) st fun c after =>
      first.Before after ∧ AllIn s.file first.here after.lastStop c.member.pieces :=
  .spanFrom (.pure ⟨h, stop_in _ (Nat.le_refl _)⟩)

theorem objectMember_lays (s : Setting) : Lays (g.objectMember s) fun lo hi c =>
    AllIn s.file lo hi c.member.pieces := by
  intro st hst
  have hmethod (isAsync isGenerator : Bool) (kind : Kind) (between : ParseState)
      (hbetween : st.Before between) :
      Reaches (do
          let _ ← propertyKey g s
          functionRest g s isAsync isGenerator false
          otherMember s st.here kind) between fun c after =>
        st.Before after ∧ AllIn s.file st.here after.lastStop c.member.pieces := by
    refine .step hbetween.sound (propertyKey_lays hg s).moves fun _ key hkey => ?_
    refine .step hkey.sound (functionRest_moves hg.moving s _ _ _) fun _ last hlast => ?_
    exact otherMember_reaches s (hbetween.trans (hkey.trans hlast)) kind
  refine .start (.eat hst (.sign _) (fun spread hspread => .yes ?_)
    (.no (.eat hst (.sign _) ?_ ?_)))
  · -- A spread.
    refine (hg.assignment s spread hspread.sound).bind fun c after ⟨hafter, hc⟩ => ?_
    refine .peek (.isSign _) fun _ => .pure ⟨hspread.toBefore.trans hafter, ?_⟩
    exact hc.allIn.widen hspread.here (Nat.le_refl _)
  · -- A generator.
    exact fun star hstar => .yes (hmethod _ _ _ star hstar.toBefore)
  refine .no (.step hst idleModifiers_moves fun modifier named hnamed => .start ?_)
  refine .peek .isName fun isPlain => (propertyKey_lays hg s named hnamed.sound).bind ?_
  intro (key, word?) keyed ⟨hkeyed, hkey⟩
  have hkeyed' := hnamed.trans hkeyed
  refine .eat hkeyed.sound (.sign _) (fun colon hcolon => .yes ?_) (.no ?_)
  · -- A key and its value.
    refine (hg.assignment s colon hcolon.sound).bind fun c after ⟨hafter, hc⟩ => .pure ⟨?_, ?_⟩
    · exact hkeyed'.trans (hcolon.toBefore.trans hafter)
    · refine .append (hkey.widen hnamed.here (hcolon.toBefore.trans hafter).lastStop) ?_
      exact hc.allIn.widen (hkeyed'.trans hcolon.toBefore).here (Nat.le_refl _)
  refine .peek (.isSign _) fun _ => .peek (.isSign _) fun _ => .branch (fun _ => ?_) fun _ => ?_
  · -- A method.
    refine .step hkeyed.sound (functionRest_moves hg.moving s _ _ _) fun _ last hlast => ?_
    exact otherMember_reaches s (hkeyed'.trans hlast) _
  cases word? with
  | none => exact .unexpected
  | some text =>
    refine .spanFrom (.peek (.isAnySign _) fun _ => .branch (fun _ => ?_) fun _ => ?_)
    · -- A key that names its value too, perhaps with the default of a pattern.
      refine .guard hkeyed.sound (.report _) fun _ between hbetween => ?_
      have hbetween := hkeyed'.trans hbetween
      refine .eat hbetween.sound (.sign _) (fun sign hsign => .yes ?_) (.no (.pure ⟨hbetween, ?_⟩))
      · refine .step hsign.sound (hg.assignment s).moves fun _ last hlast =>
          .spanFrom (.pure ⟨?_, ?_⟩)
        · exact hbetween.trans (hsign.toBefore.trans hlast)
        · exact stop_in _ (Nat.le_refl _)
      · exact List.forall_mem_singleton.2 rfl
    · -- What looked like the key was a modifier: the key follows.
      refine .branch (fun _ => .step hkeyed.sound (.reportAny _) fun _ last hlast => ?_)
        fun _ => .unexpected
      have hlast := hkeyed'.trans hlast
      refine .branch (fun _ => ?_) fun _ => hmethod _ _ _ last hlast
      exact .step hlast.sound (.eatSign _) fun isGenerator star hstar =>
        hmethod _ isGenerator _ star (hlast.trans hstar)

theorem object_covers (s : Setting) : Covers s.file (g.object s) := by
  refine fun st hst => .start (.pass hst (.expectSign _) fun _ opened hopened => ?_)
  refine (Lays.commaList (widens_allIn s.file fun c => c.member.pieces)
    (objectMember_lays hg s.bracketed) _ opened hopened.sound).bind
    fun members after ⟨hafter, hmembers⟩ => .spanFrom (.pure ?_)
  have hpast := hopened.before hafter
  refine ⟨hpast.toBefore, .of_fit rfl hpast.passed ?_⟩
  refine AllIn.fit_start (.flatMap fun member hmember => ?_) hopened.here_lt (Nat.le_refl _)
  obtain ⟨c, hc, rfl⟩ := List.mem_map.1 hmember
  exact hmembers c hc

end Grammar

end StaticConfig
