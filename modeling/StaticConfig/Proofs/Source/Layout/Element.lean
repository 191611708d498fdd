import StaticConfig.Proofs.Source.Layout.Passing

/-!
# Elements are passed over

Inside tags the text is read by rules of its own, under which a name may have no characters. What is
known there of a state is less than elsewhere (`ParseState.BeforeInTag`); at the end of an element
the text is read as usual again, so that an element moves forward like any other form.
-/

namespace StaticConfig

open Parse

namespace ParseState

variable {s between after : ParseState}

/-- Whether a state, maybe in a tag, is in order and not before another one. -/
structure BeforeInTag (s after : ParseState) : Prop where
  order : after.lastStop ≤ after.here
  current : after.current.Steady
  lastStop : s.lastStop ≤ after.lastStop
  here : s.here ≤ after.here

theorem Before.inTag (h : s.Before after) : s.BeforeInTag after :=
  ⟨h.sound.order, h.sound.current.toSteady, h.lastStop, h.here⟩

namespace BeforeInTag

theorem trans (h : s.BeforeInTag between) (h' : between.BeforeInTag after) :
    s.BeforeInTag after :=
  ⟨h'.order, h'.current, Nat.le_trans h.lastStop h'.lastStop, Nat.le_trans h.here h'.here⟩

theorem before (h : s.BeforeInTag between) (h' : between.Before after) : s.Before after :=
  ⟨h'.sound, Nat.le_trans h.lastStop h'.lastStop, Nat.le_trans h.here h'.here⟩

/-- A sign is always read in full. -/
theorem sound (h : s.BeforeInTag after) {text : String}
    (hsign : after.current.token.lexeme = .sign text) : after.Sound :=
  ⟨h.order, h.current, fun _ => h.current.sign text hsign⟩

/-- The current token of a tag is read again, at a place behind the last one. -/
theorem of_current {c : Cursor} (hcurrent : after.current = Lexer.readTagToken c)
    (hlast : s.lastStop ≤ after.lastStop) (hstop : after.lastStop ≤ c.pos)
    (hhere : s.here ≤ c.pos) : s.BeforeInTag after := by
  obtain ⟨hsteady, hstart⟩ := Lexer.readTagToken_steady c
  have hafter : c.pos ≤ after.here := by
    unfold ParseState.here
    rw [hcurrent]
    exact hstart
  exact ⟨Nat.le_trans hstop hafter, hcurrent ▸ hsteady, hlast, Nat.le_trans hhere hafter⟩

theorem here_le_after (h : s.BeforeInTag after) : after.here ≤ after.current.after.pos :=
  Nat.le_trans h.current.stop h.current.after

end BeforeInTag

/-- Whether a state is not before another one, and a place not before either of them. -/
def GoesOnAt (s : ParseState) (c : Cursor) (after : ParseState) : Prop :=
  s.lastStop ≤ after.lastStop ∧ after.lastStop ≤ c.pos ∧ s.here ≤ c.pos

/-- The state at the next token of a tag. -/
def nextInTag (s : ParseState) : ParseState :=
  { s with current := Lexer.readTagToken s.current.after, lastStop := s.current.token.stop }

theorem BeforeInTag.next (h : s.BeforeInTag between) : s.BeforeInTag between.nextInTag :=
  h.trans (.of_current (c := between.current.after) rfl (Nat.le_trans h.order h.current.stop)
    h.current.after h.here_le_after)

end ParseState

namespace Parse

open ParseState

variable {α β : Type}

/-- Whether a parser of tags never goes back. -/
def MovesInTag (p : Parse α) : Prop :=
  ∀ s, s.BeforeInTag s → Reaches p s fun _ after => s.BeforeInTag after

namespace MovesInTag

theorem bind {p : Parse α} {next : α → Parse β} (h : MovesInTag p)
    (hnext : ∀ a, MovesInTag (next a)) : MovesInTag (p >>= next) := by
  refine fun s hs => (h s hs).bind fun a between hbetween => ?_
  refine (hnext a between ⟨hbetween.order, hbetween.current, Nat.le_refl _, Nat.le_refl _⟩).mono ?_
  exact fun _ _ => hbetween.trans

theorem pure (a : α) : MovesInTag (Pure.pure a) := fun _ hs => .pure hs

theorem peek {p : Parse α} {next : α → Parse β} (h : Peeks p) (hnext : ∀ a, MovesInTag (next a)) :
    MovesInTag (p >>= next) := fun s hs => .peek h fun a => hnext a s hs

theorem unexpected : MovesInTag (Parse.unexpected : Parse α) := fun _ _ => .unexpected

theorem branch {c : Prop} [Decidable c] {p q : Parse α} (hp : MovesInTag p) (hq : MovesInTag q) :
    MovesInTag (if c then p else q) := by
  split
  · exact hp
  · exact hq

theorem loop {step : α → Parse (α × Bool)} (first : α) (hstep : ∀ a, MovesInTag (step a)) :
    MovesInTag (Parse.loop first step) := by
  refine fun s hs => Reaches.loop (I := fun _ after => s.BeforeInTag after) hs ?_
  intro a between hbetween
  refine (hstep a between ⟨hbetween.order, hbetween.current, Nat.le_refl _, Nat.le_refl _⟩).mono ?_
  exact fun _ _ => hbetween.trans

end MovesInTag

/-- A parser of tags comes before what goes on from a later state. -/
theorem Reaches.stepInTag {base s : ParseState} {Q : β → ParseState → Prop} {p : Parse α}
    {next : α → Parse β} (hs : base.BeforeInTag s) (h : MovesInTag p)
    (hnext : ∀ a between, base.BeforeInTag between → Reaches (next a) between Q) :
    Reaches (p >>= next) s Q :=
  (h s ⟨hs.order, hs.current, Nat.le_refl _, Nat.le_refl _⟩).bind fun a between hbetween =>
    hnext a between (hs.trans hbetween)

theorem Reaches.advanceInTag {s : ParseState} {Q : β → ParseState → Prop} {next : Unit → Parse β}
    (h : Reaches (next ()) s.nextInTag Q) : Reaches (Grammar.advanceInTag >>= next) s Q := h

/-- Even in a tag, a sign is passed with what is read as usual after it. -/
theorem Reaches.expectSignInTag {s : ParseState} (hs : s.BeforeInTag s) {text : String} :
    Reaches (expectSign text) s fun _ after => s.Past after := by
  by_cases hsign : s.current.token.lexeme = .sign text
  · exact Passes.expectSign text s (hs.sound hsign)
  · have heat : Reaches (eatSign text) s fun eaten _ => eaten = false :=
      .isSign (.branch (fun h => absurd (eq_of_beq h) hsign) fun _ => .pure rfl)
    exact heat.bind fun eaten _ heaten => heaten ▸ .no .unexpected

end Parse

namespace Grammar

open ParseState

variable {g : Grammar} (hg : g.Moving)

theorem advanceInTag_moves : MovesInTag advanceInTag := by
  intro s hs _ after hrun
  cases hrun
  exact hs.next

theorem nameInTag_moves : MovesInTag nameInTag := by
  refine .peek .lexeme fun lexeme => ?_
  split
  · exact advanceInTag_moves.bind fun _ => .pure _
  · exact .unexpected

theorem tagName_moves : MovesInTag tagName := by
  refine nameInTag_moves.bind fun first => .loop _ fun text => .peek (.isSign _) fun _ => ?_
  refine .peek (.isSign _) fun _ => .branch (advanceInTag_moves.bind fun _ => ?_) (.pure _)
  exact nameInTag_moves.bind fun _ => .pure _

include hg

/-- An expression in braces is read as usual, and so is the brace after it. -/
theorem embedded_reaches (s : Setting) (mayBeEmpty : Bool) {st : ParseState}
    (hst : st.BeforeInTag st) :
    Reaches (g.embedded s mayBeEmpty) st fun _ after => st.Past after := by
  refine Reaches.bind (Reaches.expectSignInTag hst) fun _ opened hopened => ?_
  have hinner : Moves (do
      let _ ← eatSign "..."
      let _ ← g.expression s.bracketed
      unless ← isSign "\x7d" do unexpected) :=
    (Moves.eatSign _).bind fun _ => (expression_moves hg _).bind fun _ => .peek (.isSign _) fun _ =>
      .branch (.pure _) .unexpected
  refine .peek (.isSign _) fun _ => .branch (fun _ => .pure hopened) fun _ => ?_
  exact (hinner opened hopened.sound).mono fun _ _ => hopened.before

theorem tagAttribute_moves (s : Setting) : MovesInTag (g.tagAttribute s) := by
  have hembedded : MovesInTag (do g.embedded s false; advanceInTag) :=
    MovesInTag.bind (fun st hst => (embedded_reaches hg s false hst).mono fun _ _ hpast =>
      hpast.toBefore.inTag) fun _ => advanceInTag_moves
  refine .peek (.isSign _) fun _ => .branch hembedded (nameInTag_moves.bind fun _ => ?_)
  refine .peek (.isSign _) fun _ => ?_
  extract_lets value
  have hvalue : MovesInTag (value ()) := by
    refine .peek (.isSign _) fun _ => .branch (advanceInTag_moves.bind fun _ => ?_) (.pure _)
    intro st hst
    refine .lexeme fun lexeme hlexeme => ?_
    split
    · exact advanceInTag_moves st hst
    · exact hembedded st hst
    · -- The element ends before the place from which the tag is read on.
      refine .get (Reaches.pass (hst.sound hlexeme) (hg.element s) fun _ after hpast => ?_)
      refine .lastStop fun _ _ hrun => ?_
      cases hrun
      have hstop : after.lastStop ≤ st.current.start.pos +
        (after.lastStop - st.current.start.pos) := by
        omega
      refine .of_current rfl hpast.lastStop hstop ?_
      exact Nat.le_trans (Nat.le_of_lt hpast.passed) hstop
    · exact .unexpected
  refine .branch (advanceInTag_moves.bind fun _ => nameInTag_moves.bind fun _ => hvalue) hvalue

omit hg in
/-- At the end of an element the text is read as usual again. -/
theorem closeAt_reaches {st : ParseState} {c : Cursor} (hlast : st.lastStop ≤ c.pos)
    (hhere : st.here ≤ c.pos) : Reaches (closeAt c) st fun _ after => st.Before after :=
  .modify fun _ _ hrun => by
    cases hrun
    exact before_of_current rfl hlast (Nat.le_refl _) hhere

theorem children_reaches (s : Setting) (name : String) (opening : Nat) {first : Cursor}
    {st : ParseState} (hlast : st.lastStop ≤ first.pos) (hhere : st.here ≤ first.pos) :
    Reaches (g.children s name opening first) st fun _ after => st.Before after := by
  refine Reaches.bind (Reaches.loop_of
    (I := fun _ after => st.Before after) (J := st.GoesOnAt)
    ⟨Nat.le_refl _, hlast, hhere⟩ fun c after ⟨hbefore, hafter, hc⟩ => ?_) fun _ _ h => .pure h
  -- What is known of the last child, and of the place where more of them are read.
  let AfterChild (next : Cursor × Bool) (after : ParseState) : Prop :=
    st.Before after ∧ (next.2 = true → st.GoesOnAt next.1 after)
  extract_lets text close named
  have htext : c.pos ≤ text.pos := Nat.le_add_right _ _
  have hread (between : ParseState) (heq : between.lastStop = after.lastStop) :
      st.Before { between with current := Lexer.readToken text } :=
    before_of_current rfl (heq ▸ hbefore) (by show between.lastStop ≤ _; omega) (by omega)
  split
  · exact .stopAt _
  · refine .reread (.peek (.isSign _) fun _ => .branch (fun _ => ?_) fun _ => .reread ?_)
    · -- The closing tag.
      have hstart : text.pos ≤ (text.skip 1).pos := Nat.le_succ _
      have htag : st.BeforeInTag { after with current := Lexer.readTagToken (text.skip 1) } :=
        .of_current rfl hbefore (Nat.le_trans (Nat.le_trans hafter htext) hstart)
          (Nat.le_trans (Nat.le_trans hc htext) hstart)
      have hclose (between : ParseState) (hbetween : st.BeforeInTag between) :
          Reaches (close ()) between AfterChild := by
        have hstop : between.lastStop ≤ between.current.after.pos :=
          Nat.le_trans hbetween.order hbetween.here_le_after
        refine .get ((closeAt_reaches hstop hbetween.here_le_after).bind fun _ final hfinal => ?_)
        exact .pure ⟨hbetween.before hfinal, nofun⟩
      have hnamed (between : ParseState) (hbetween : st.BeforeInTag between) :
          Reaches (named ()) between AfterChild :=
        .peek (.isSign _) fun _ => .require fun _ => hclose between hbetween
      refine Reaches.stepInTag htag advanceInTag_moves fun _ opened hopened => .start ?_
      refine .peek (.isSign _) fun _ => ?_
      extract_lets same
      have hsame (closing : String) (between : ParseState) (hbetween : st.BeforeInTag between) :
          Reaches (same closing) between AfterChild :=
        .branch (fun _ => hnamed between hbetween) fun _ => .stopped
      refine .branch (fun _ => hsame "" opened hopened) fun _ => ?_
      exact .stepInTag hopened tagName_moves fun closing between hbetween =>
        hsame closing between hbetween
    · -- An element inside.
      have hread := hread { after with current := Lexer.readTagToken (text.skip 1) } rfl
      refine .pass hread.sound (hg.element s) fun _ final hpast => .lastStop (.pure ?_)
      have hfinal := hread.trans hpast.toBefore
      have hstop : final.lastStop ≤ text.pos + (final.lastStop - text.pos) := by omega
      exact ⟨hfinal, fun _ => ⟨hfinal.lastStop, hstop, by show _ ≤ text.pos + _; omega⟩⟩
  · have hread := hread after rfl
    refine .reread ((embedded_reaches hg s true hread.sound.before.inTag).bind
      fun _ final hpast => ?_)
    have hfinal := hread.trans hpast.toBefore
    refine .get (.pure ⟨hfinal, fun _ => ⟨hfinal.lastStop, ?_, ?_⟩⟩)
    · exact Nat.le_trans hfinal.sound.order hfinal.inTag.here_le_after
    · exact Nat.le_trans hfinal.here hfinal.inTag.here_le_after

/-- An element has its opening angle bracket. -/
theorem elementRule_passes (s : Setting) : Passes (g.elementRule s) := by
  intro st hst
  refine .isSign (.require fun hsign => ?_)
  have hpassed : st.here < st.nextInTag.lastStop :=
    hst.current.token (by rw [eq_of_beq hsign]; rfl)
  have hopened : st.BeforeInTag st.nextInTag := hst.before.inTag.next
  have hpast {between after : ParseState} (hbetween : st.nextInTag.BeforeInTag between)
      (hafter : between.Before after) : st.Past after :=
    ⟨(hopened.trans hbetween).before hafter,
      Nat.lt_of_lt_of_le hpassed (Nat.le_trans hbetween.lastStop hafter.lastStop)⟩
  have hstop {between : ParseState} (hbetween : st.nextInTag.BeforeInTag between) :
      between.lastStop ≤ between.current.after.pos :=
    Nat.le_trans hbetween.order hbetween.here_le_after
  have hchildren (name : String) (between : ParseState)
      (hbetween : st.nextInTag.BeforeInTag between) :
      Reaches (g.children s name st.nextInTag.here between.current.after) between
        fun _ after => st.Past after :=
    (children_reaches hg s name _ (hstop hbetween) hbetween.here_le_after).mono fun _ _ =>
      hpast hbetween
  have hclose (between : ParseState) (hbetween : st.nextInTag.BeforeInTag between) :
      Reaches (closeAt between.current.after) between fun _ after => st.Past after :=
    (closeAt_reaches (hstop hbetween) hbetween.here_le_after).mono fun _ _ => hpast hbetween
  have hfirst : st.nextInTag.BeforeInTag st.nextInTag :=
    ⟨hopened.order, hopened.current, Nat.le_refl _, Nat.le_refl _⟩
  refine .advanceInTag (.start (.peek (.isSign _) fun _ => .branch ?_ fun _ => ?_))
  · exact fun _ => .get (hchildren _ _ hfirst)
  refine .stepInTag hfirst tagName_moves fun name named hnamed => .peek (.isSign _) fun _ => ?_
  extract_lets close attributes opened
  have hattributes (between : ParseState) (hbetween : st.nextInTag.BeforeInTag between) :
      Reaches (attributes ()) between fun _ after => st.Past after := by
    refine .stepInTag hbetween (.loop () fun _ => .peek (.isSign _) fun _ =>
      .peek (.isSign _) fun _ =>
      .branch (.pure _) ((tagAttribute_moves hg s).bind fun _ => .pure _)) fun _ last hlast => ?_
    refine .peek (.isSign _) fun _ => .branch (fun _ => ?_) fun _ => .get (hchildren _ _ hlast)
    refine .stepInTag hlast advanceInTag_moves fun _ final hfinal => .peek (.isSign _) fun _ => ?_
    exact .require fun _ => .get (hclose _ hfinal)
  refine .branch (fun _ => ?_) fun _ => hattributes named hnamed
  -- Type arguments are read as usual.
  have hsound : named.BeforeInTag named :=
    ⟨hnamed.order, hnamed.current, Nat.le_refl _, Nat.le_refl _⟩
  refine Reaches.bind (Reaches.expectSignInTag hsound) fun _ angled hangled => ?_
  refine .step hangled.sound (.commaSeparated (hg.type s true)) fun _ last hlast => ?_
  have hlast := hnamed.trans (hangled.before hlast).toBefore.inTag
  refine .peek (.isSign _) fun _ => .require fun _ => ?_
  exact .stepInTag hlast advanceInTag_moves fun _ final hfinal => hattributes final hfinal

end Grammar

end StaticConfig
