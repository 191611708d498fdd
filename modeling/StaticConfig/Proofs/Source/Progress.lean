import StaticConfig.Proofs.Source.Reading
import StaticConfig.Source.Parser.Type

/-!
# Parsers move forward

Where a parser stands when it is done, against where it stood when it began. The token that is next
never starts before the end of the last one, and neither of the two places ever moves back.

- `ParseState.Sound`: a state between two tokens, the next of which is read in full;
- `ParseState.Before`, `ParseState.Past`: a later state, and one behind the token that was next;
- `Parse.Reaches`: what holds of every outcome of a parser from a state; a proof about a rule
  follows the text of the rule;
- `Parse.Lays`: what holds of what a parser yields and of the two places between which it was found;
- `Parse.Moves`: that a parser that yields nothing of interest moves forward.
-/

namespace StaticConfig

namespace ParseState

variable {s between after : ParseState}

/-! ### Places -/

/-- Where the current token starts. -/
def here (s : ParseState) : Nat := s.current.token.start

/-- Whether the last token ends before the current one, which is read in full. -/
structure Sound (s : ParseState) : Prop where
  order : s.lastStop ≤ s.here
  current : s.current.Full

/-- Whether a state is sound and not before another one. -/
structure Before (s after : ParseState) : Prop where
  sound : after.Sound
  lastStop : s.lastStop ≤ after.lastStop
  here : s.here ≤ after.here

/-- Whether a state is behind what is the current token in another one. -/
structure Past (s after : ParseState) : Prop extends Before s after where
  passed : s.here < after.lastStop

theorem Sound.before (h : s.Sound) : s.Before s := ⟨h, Nat.le_refl _, Nat.le_refl _⟩

namespace Before

theorem trans (h : s.Before between) (h' : between.Before after) : s.Before after :=
  ⟨h'.sound, Nat.le_trans h.lastStop h'.lastStop, Nat.le_trans h.here h'.here⟩

theorem past (h : s.Before between) (h' : between.Past after) : s.Past after :=
  ⟨h.trans h'.toBefore, Nat.lt_of_le_of_lt h.here h'.passed⟩

end Before

namespace Past

theorem before (h : s.Past between) (h' : between.Before after) : s.Past after :=
  ⟨h.toBefore.trans h', Nat.lt_of_lt_of_le h.passed h'.lastStop⟩

theorem here_lt (h : s.Past after) : s.here < after.here :=
  Nat.lt_of_lt_of_le h.passed h.sound.order

end Past

/-- A state is sound if its token is read where the last one ended, or later. -/
theorem before_of_current {c : Cursor} (hcurrent : after.current = Lexer.readToken c)
    (hlast : s.lastStop ≤ after.lastStop) (hstop : after.lastStop ≤ c.pos)
    (hhere : s.here ≤ c.pos) : s.Before after := by
  obtain ⟨hfull, hstart⟩ := Lexer.readToken_full c
  have hafter : c.pos ≤ after.here := by
    unfold here
    rw [hcurrent]
    exact hstart
  exact ⟨⟨Nat.le_trans hstop hafter, hcurrent ▸ hfull⟩, hlast, Nat.le_trans hhere hafter⟩

/-- The state at the next token. -/
def next (s : ParseState) : ParseState :=
  { s with
    current := Lexer.readToken s.current.after
    lastStart := s.current.token.start
    lastStop := s.current.token.stop }

theorem before_next (horder : s.lastStop ≤ s.here) (hcurrent : s.current.Steady) :
    s.Before s.next :=
  before_of_current (c := s.current.after) rfl (Nat.le_trans horder hcurrent.stop) hcurrent.after
    (Nat.le_trans hcurrent.stop hcurrent.after)

theorem Sound.before_next (h : s.Sound) : s.Before s.next :=
  ParseState.before_next h.order h.current.toSteady

/-- Behind a token is behind where it starts. -/
theorem Sound.past_next (h : s.Sound) (htoken : s.current.token.lexeme.isToken = true) :
    s.Past s.next := ⟨h.before_next, h.current.token htoken⟩

/-- A sign may be read again with characters after it that belong to it. -/
theorem Sound.before_rejoined (h : s.Sound) (token : Token) (length : Nat)
    (htoken : token.stop = s.here + length) :
    s.Before
      (next { s with current := ⟨s.current.start, token, s.current.start.skip length⟩ }) := by
  have hstart : s.here ≤ s.current.start.pos := h.current.start
  have hlast : s.lastStop ≤ token.stop :=
    htoken ▸ Nat.le_trans h.order (Nat.le_add_right _ _)
  refine before_of_current (c := s.current.start.skip length) rfl hlast ?_ ?_
  · show token.stop ≤ s.current.start.pos + length
    omega
  · exact Nat.le_trans hstart (Nat.le_add_right _ _)

end ParseState

namespace Parse

open ParseState

variable {α β : Type} {s : ParseState} {Q : β → ParseState → Prop}

/-! ### Outcomes -/

/-- What holds of every outcome of a parser from a state. -/
def Reaches (p : Parse α) (s : ParseState) (R : α → ParseState → Prop) : Prop :=
  ∀ a after, p s = .ok a after → R a after

namespace Reaches

variable {R : α → ParseState → Prop}

theorem pure {a : α} (h : R a s) : Reaches (Pure.pure a) s R := by
  intro b after hrun
  cases hrun
  exact h

theorem bind {p : Parse α} {next : α → Parse β} (h : Reaches p s R)
    (hnext : ∀ a between, R a between → Reaches (next a) between Q) : Reaches (p >>= next) s Q := by
  intro b after hrun
  change EStateM.bind p next s = .ok b after at hrun
  unfold EStateM.bind at hrun
  cases hfirst : p s with
  | ok a between =>
    rw [hfirst] at hrun
    exact hnext a between (h a between hfirst) b after hrun
  | error fault between =>
    rw [hfirst] at hrun
    cases hrun

theorem mono {p : Parse α} {R' : α → ParseState → Prop} (h : Reaches p s R)
    (himp : ∀ a after, R a after → R' a after) : Reaches p s R' :=
  fun a after hrun => himp a after (h a after hrun)

theorem stopAt (pos : Nat) : Reaches (Parse.stopAt pos) s R := by
  intro a after hrun
  cases hrun

/-- Nothing comes after a stop. -/
theorem stopped {pos : Nat} {next : α → Parse β} : Reaches (Parse.stopAt pos >>= next) s Q :=
  Reaches.bind (R := fun _ _ => False) (.stopAt pos) fun _ _ => False.elim

theorem unexpected : Reaches Parse.unexpected s R := by
  intro a after hrun
  cases hrun

/-- An attempt that fails leaves the parser where it is. -/
theorem attempt {p : Parse α} (h : Reaches p s R) : Reaches (Parse.attempt p) s fun found after =>
    (∀ a, found = some a → R a after) ∧ (found = none → after = s) := by
  intro found after hrun
  unfold Parse.attempt at hrun
  split at hrun
  · rename_i hfirst
    cases hrun
    exact ⟨fun a heq => Option.some.inj heq ▸ h _ _ hfirst, nofun⟩
  · cases hrun
    exact ⟨nofun, fun _ => rfl⟩

/-- Nothing comes after a token that is not expected. -/
theorem stuck {next : α → Parse β} : Reaches (Parse.unexpected >>= next) s Q :=
  Reaches.bind (R := fun _ _ => False) .unexpected fun _ _ => False.elim

end Reaches

/-! ### Looking ahead -/

/-- Whether a parser only looks at the state. -/
def Peeks (p : Parse α) : Prop := ∀ s, Reaches p s fun _ after => after = s

namespace Peeks

theorem pure (a : α) : Peeks (Pure.pure a) := fun _ => .pure rfl

theorem bind {p : Parse α} {next : α → Parse β} (h : Peeks p) (hnext : ∀ a, Peeks (next a)) :
    Peeks (p >>= next) :=
  fun s => (h s).bind fun a _ heq => heq ▸ hnext a s

theorem branch {c : Prop} [Decidable c] {p q : Parse α} (hp : Peeks p) (hq : Peeks q) :
    Peeks (if c then p else q) := by
  split
  · exact hp
  · exact hq

theorem wouldParse (p : Parse α) : Peeks (Parse.wouldParse p) := by
  intro s a after hrun
  unfold Parse.wouldParse at hrun
  split at hrun <;> cases hrun <;> rfl

theorem get : Peeks (MonadState.get : Parse ParseState) := fun _ _ _ hrun => by cases hrun; rfl

theorem token : Peeks token := get.bind fun _ => pure _

theorem lexeme : Peeks lexeme := token.bind fun _ => pure _

theorem start : Peeks start := token.bind fun _ => pure _

theorem lastStop : Peeks lastStop := get.bind fun _ => pure _

theorem lastStart : Peeks lastStart := get.bind fun _ => pure _

theorem peek : Peeks peek := get.bind fun _ => pure _

theorem afterLine : Peeks afterLine := token.bind fun _ => pure _

theorem remaining : Peeks remaining := get.bind fun _ => pure _

theorem isSign (text : String) : Peeks (isSign text) := lexeme.bind fun _ => pure _

theorem isWord (text : String) : Peeks (isWord text) := lexeme.bind fun _ => pure _

theorem atEnd : Peeks atEnd := lexeme.bind fun _ => pure _

theorem isAnySign (texts : List String) : Peeks (isAnySign texts) := by
  refine lexeme.bind fun lexeme => ?_
  split <;> exact pure _

theorem isAnyWord (texts : List String) : Peeks (isAnyWord texts) := by
  refine lexeme.bind fun lexeme => ?_
  split <;> exact pure _

theorem isName : Peeks isName := by
  refine lexeme.bind fun lexeme => ?_
  split <;> exact pure _

theorem spanFrom (s : Setting) (pos : Nat) : Peeks (spanFrom s pos) := lastStop.bind fun _ => pure _

end Peeks

namespace Reaches

variable {R : α → ParseState → Prop}

/-- Looking ahead leaves the parser where it is. -/
theorem peek {p : Parse α} {next : α → Parse β} (h : Peeks p) (hnext : ∀ a, Reaches (next a) s Q) :
    Reaches (p >>= next) s Q :=
  (h s).bind fun a _ heq => heq ▸ hnext a

theorem start {next : Nat → Parse β} (h : Reaches (next s.here) s Q) :
    Reaches (Parse.start >>= next) s Q := h

theorem lastStop {next : Nat → Parse β} (h : Reaches (next s.lastStop) s Q) :
    Reaches (Parse.lastStop >>= next) s Q := h

theorem get {next : ParseState → Parse β} (h : Reaches (next s) s Q) :
    Reaches (MonadState.get >>= next) s Q := h

theorem lexeme {next : Lexeme → Parse β}
    (h : ∀ lexeme, s.current.token.lexeme = lexeme → Reaches (next lexeme) s Q) :
    Reaches (Parse.lexeme >>= next) s Q := h _ rfl

theorem isSign {text : String} {next : Bool → Parse β}
    (h : Reaches (next (s.current.token.lexeme == .sign text)) s Q) :
    Reaches (Parse.isSign text >>= next) s Q := h

theorem isWord {text : String} {next : Bool → Parse β}
    (h : Reaches (next (s.current.token.lexeme == .name text)) s Q) :
    Reaches (Parse.isWord text >>= next) s Q := h

/-- Only a name is one of some words. -/
theorem isAnyWord {texts : List String} {next : Bool → Parse β}
    (h : ∀ found, (found = true → s.current.token.lexeme.isToken = true) →
      Reaches (next found) s Q) :
    Reaches (Parse.isAnyWord texts >>= next) s Q := by
  refine Reaches.bind (R := fun found after => after = s ∧
    (found = true → s.current.token.lexeme.isToken = true)) ?_ fun found after ⟨heq, hfound⟩ => ?_
  · refine .lexeme fun lexeme hlexeme => ?_
    split
    · exact .pure ⟨rfl, fun _ => hlexeme ▸ rfl⟩
    · exact .pure ⟨rfl, nofun⟩
  · exact heq ▸ h found hfound

theorem spanFrom {setting : Setting} {pos : Nat} {next : Span → Parse β}
    (h : Reaches (next ⟨setting.file, pos, s.lastStop⟩) s Q) :
    Reaches (Parse.spanFrom setting pos >>= next) s Q := h

theorem advance {next : Unit → Parse β} (h : Reaches (next ()) s.next Q) :
    Reaches (Parse.advance >>= next) s Q := h

theorem reread {reading : Lexer.Reading} {next : Unit → Parse β}
    (h : Reaches (next ()) { s with current := reading } Q) :
    Reaches (Parse.reread reading >>= next) s Q := h

theorem modify {f : ParseState → ParseState} {next : PUnit → Parse β}
    (h : Reaches (next ()) (f s) Q) : Reaches (modify f >>= next) s Q := h

/-! ### Branches -/

section

variable {c : Prop} [Decidable c] {p q : Parse α} {rest : α → Parse β}

theorem branch (hp : c → Reaches p s R) (hq : ¬ c → Reaches q s R) :
    Reaches (if c then p else q) s R := by
  split
  · exact hp ‹_›
  · exact hq ‹_›

/-- What comes after something that must hold. -/
theorem require {rest : Unit → Parse β} (h : c → Reaches (rest ()) s Q) :
    Reaches (have after := rest; if c then after () else Parse.unexpected >>= after) s Q :=
  branch h fun _ => .stuck

end

end Reaches

/-! ### Moving forward -/

/-- Whether a parser never goes back. -/
def Moves (p : Parse α) : Prop := ∀ s, s.Sound → Reaches p s fun _ after => s.Before after

/-- Whether a parser that passes something tells whether it did. -/
def Eats (p : Parse Bool) : Prop :=
  ∀ s, s.Sound → Reaches p s fun eaten after => if eaten then s.Past after else after = s

/-- Whether a parser passes the token at which it starts. -/
def Passes (p : Parse α) : Prop := ∀ s, s.Sound → Reaches p s fun _ after => s.Past after

/-- What holds of what a parser yields and of the two places between which it was found: where the
current token started, and where the last one ends. -/
def Lays (p : Parse α) (P : Nat → Nat → α → Prop) : Prop :=
  ∀ s, s.Sound → Reaches p s fun a after => s.Before after ∧ P s.here after.lastStop a

/-- Whether something that holds between two places holds between places around them. -/
def Widens (P : Nat → Nat → α → Prop) : Prop :=
  ∀ ⦃lo lo' hi hi' : Nat⦄ ⦃a : α⦄, P lo hi a → lo' ≤ lo → hi ≤ hi' → P lo' hi' a

theorem Peeks.moves {p : Parse α} (h : Peeks p) : Moves p :=
  fun s hs => (h s).mono fun _ _ heq => heq ▸ hs.before

theorem Eats.moves {p : Parse Bool} (h : Eats p) : Moves p := by
  refine fun s hs => (h s hs).mono fun eaten after heaten => ?_
  cases eaten with
  | true => exact heaten.toBefore
  | false => exact heaten ▸ hs.before

theorem Passes.moves {p : Parse α} (h : Passes p) : Moves p :=
  fun s hs => (h s hs).mono fun _ _ => Past.toBefore

theorem Lays.moves {p : Parse α} {P : Nat → Nat → α → Prop} (h : Lays p P) : Moves p :=
  fun s hs => (h s hs).mono fun _ _ => And.left

namespace Reaches

/-- A parser that moves forward comes before what goes on from a later state. -/
theorem step {p : Parse α} {next : α → Parse β} (hs : s.Sound) (h : Moves p)
    (hnext : ∀ a between, s.Before between → Reaches (next a) between Q) :
    Reaches (p >>= next) s Q := (h s hs).bind hnext

section

variable {c : Prop} [Decidable c]

/-- What comes after two branches that move forward. -/
theorem join {p q : Parse α} {rest : α → Parse β} (hs : s.Sound) (hp : Moves p) (hq : Moves q)
    (h : ∀ a between, s.Before between → Reaches (rest a) between Q) :
    Reaches (have after := rest; if c then p >>= after else q >>= after) s Q :=
  branch (fun _ => .step hs hp h) fun _ => .step hs hq h

/-- What comes after a step that is taken unless something holds. -/
theorem guard {p : Parse Unit} {rest : Unit → Parse β} (hs : s.Sound) (hp : Moves p)
    (h : ∀ a between, s.Before between → Reaches (rest a) between Q) :
    Reaches (have after := rest; if c then after () else p >>= after) s Q :=
  branch (fun _ => h () s hs.before) fun _ => .step hs hp h

/-- What comes after a step that is taken if something holds. -/
theorem check {p : Parse Unit} {rest : Unit → Parse β} (hs : s.Sound) (hp : Moves p)
    (h : ∀ a between, s.Before between → Reaches (rest a) between Q) :
    Reaches (have after := rest; if c then p >>= after else after ()) s Q :=
  branch (fun _ => .step hs hp h) fun _ => h () s hs.before

end

theorem pass {p : Parse α} {next : α → Parse β} (hs : s.Sound) (h : Passes p)
    (hnext : ∀ a between, s.Past between → Reaches (next a) between Q) :
    Reaches (p >>= next) s Q := (h s hs).bind hnext

theorem eat {p : Parse Bool} {next : Bool → Parse β} (hs : s.Sound) (h : Eats p)
    (hyes : ∀ between, s.Past between → Reaches (next true) between Q)
    (hno : Reaches (next false) s Q) : Reaches (p >>= next) s Q := by
  refine (h s hs).bind fun eaten between heaten => ?_
  cases eaten with
  | true => exact hyes between heaten
  | false => exact heaten ▸ hno

theorem yes {p q : Parse β} (h : Reaches p s Q) : Reaches (if true = true then p else q) s Q := h

theorem no {p q : Parse β} (h : Reaches q s Q) : Reaches (if false = true then p else q) s Q := h

end Reaches

namespace Moves

theorem pure (a : α) : Moves (Pure.pure a) := (Peeks.pure a).moves

theorem bind {p : Parse α} {next : α → Parse β} (h : Moves p) (hnext : ∀ a, Moves (next a)) :
    Moves (p >>= next) :=
  fun _ hs => .step hs h fun a between hbefore =>
    (hnext a between hbefore.sound).mono fun _ _ => hbefore.trans

theorem stopAt (pos : Nat) : Moves (Parse.stopAt pos : Parse α) := fun _ _ => .stopAt pos

theorem unexpected : Moves (Parse.unexpected : Parse α) := fun _ _ => .unexpected

/-- What comes after looking ahead. -/
theorem peek {p : Parse α} {next : α → Parse β} (h : Peeks p) (hnext : ∀ a, Moves (next a)) :
    Moves (p >>= next) := h.moves.bind hnext

theorem advance : Moves Parse.advance := by
  intro s hs _ after hrun
  cases hrun
  exact hs.before_next

theorem report (pos : Nat) : Moves (Parse.report pos) := by
  intro s hs _ after hrun
  cases hrun
  exact ⟨⟨hs.order, hs.current⟩, Nat.le_refl _, Nat.le_refl _⟩

theorem reportAny (pos : Option Nat) : Moves (Parse.reportAny pos) := by
  intro s hs _ after hrun
  cases hrun
  exact ⟨⟨hs.order, hs.current⟩, Nat.le_refl _, Nat.le_refl _⟩

section

variable {c : Prop} [Decidable c] {p q : Parse α} {rest : α → Parse β}

theorem branch (hp : Moves p) (hq : Moves q) : Moves (if c then p else q) := by
  split
  · exact hp
  · exact hq

/-- What comes after two branches. -/
theorem join (hp : Moves p) (hq : Moves q) (h : ∀ a, Moves (rest a)) :
    Moves (have after := rest; if c then p >>= after else q >>= after) :=
  branch (hp.bind h) (hq.bind h)

/-- What comes after a step that is taken unless something holds. -/
theorem guard {p : Parse Unit} {rest : Unit → Parse β} (hp : Moves p) (h : ∀ a, Moves (rest a)) :
    Moves (have after := rest; if c then after () else p >>= after) :=
  branch (h ()) (hp.bind h)

/-- What comes after a step that is taken if something holds. -/
theorem check {p : Parse Unit} {rest : Unit → Parse β} (hp : Moves p) (h : ∀ a, Moves (rest a)) :
    Moves (have after := rest; if c then p >>= after else after ()) :=
  branch (hp.bind h) (h ())

end

theorem attempt {p : Parse α} (h : Moves p) : Moves (Parse.attempt p) := by
  refine fun s hs => (Reaches.attempt (h s hs)).mono fun found after hfound => ?_
  cases found with
  | some a => exact hfound.1 a rfl
  | none => exact hfound.2 rfl ▸ hs.before

end Moves

theorem Passes.bind {p : Parse α} {next : α → Parse β} (h : Passes p)
    (hnext : ∀ a, Moves (next a)) : Passes (p >>= next) :=
  fun _ hs => .pass hs h fun a between hpast =>
    (hnext a between hpast.sound).mono fun _ _ => hpast.before

theorem Moves.passes {p : Parse α} {next : α → Parse β} (h : Moves p)
    (hnext : ∀ a, Passes (next a)) : Passes (p >>= next) :=
  fun _ hs => .step hs h fun a between hbefore =>
    (hnext a between hbefore.sound).mono fun _ _ => hbefore.past

/-! ### Signs and names -/

theorem Eats.sign (text : String) : Eats (eatSign text) := by
  refine fun s hs => .isSign (.branch (fun hsign => .advance (.pure (hs.past_next ?_))) fun _ => ?_)
  · rw [eq_of_beq hsign]
    rfl
  · exact .pure rfl

theorem Eats.word (text : String) : Eats (eatWord text) := by
  refine fun s hs => .isWord (.branch (fun hword => .advance (.pure (hs.past_next ?_))) fun _ => ?_)
  · rw [eq_of_beq hword]
    rfl
  · exact .pure rfl

namespace Passes

theorem expectSign (text : String) : Passes (Parse.expectSign text) :=
  fun _ hs => .eat hs (Eats.sign text) (fun _ hpast => .yes (.pure hpast)) (.no .unexpected)

theorem expectWord (text : String) : Passes (Parse.expectWord text) :=
  fun _ hs => .eat hs (Eats.word text) (fun _ hpast => .yes (.pure hpast)) (.no .unexpected)

theorem name : Passes Parse.name := by
  refine fun s hs => .lexeme fun lexeme hlexeme => ?_
  split
  · refine .branch (fun _ => .advance (.pure (hs.past_next ?_))) fun _ => .unexpected
    rw [hlexeme]
    rfl
  · exact .unexpected

theorem word : Passes Parse.word := by
  refine fun s hs => .lexeme fun lexeme hlexeme => ?_
  split
  · refine .advance (.pure (hs.past_next ?_))
    rw [hlexeme]
    rfl
  · exact .unexpected

theorem boundName : Passes Parse.boundName :=
  Peeks.start.moves.passes fun _ => name.bind fun _ => .check (.report _) fun _ => .pure _

end Passes

namespace Moves

theorem eatSign (text : String) : Moves (Parse.eatSign text) := (Eats.sign text).moves

theorem eatWord (text : String) : Moves (Parse.eatWord text) := (Eats.word text).moves

theorem expectSign (text : String) : Moves (Parse.expectSign text) :=
  (Passes.expectSign text).moves

theorem expectWord (text : String) : Moves (Parse.expectWord text) :=
  (Passes.expectWord text).moves

theorem eatSemicolon : Moves Parse.eatSemicolon :=
  (eatSign ";").bind fun _ => .branch (.pure _) (.peek (.isSign _) fun _ => .peek .atEnd fun _ =>
    .peek .afterLine fun _ => .pure _)

theorem semicolon : Moves Parse.semicolon :=
  eatSemicolon.bind fun _ => .branch (.pure _) .unexpected

end Moves

/-! ### Repetitions -/

/-- At least one step is taken, and more of them only from where the last one asked for more. -/
theorem Reaches.loop_of {step : α → Parse (α × Bool)} {first : α} {I J : α → ParseState → Prop}
    (hfirst : J first s) (hstep : ∀ a s, J a s → Reaches (step a) s fun next after =>
      I next.1 after ∧ (next.2 = true → J next.1 after)) :
    Reaches (Parse.loop first step) s I := by
  -- By induction on the turns that are left; a turn is taken only where the last one asked for it.
  have hmore (bound : Nat) (a : α) (s : ParseState) (hI : I a s) (hJ : J a s) :
      Reaches (repeatUpTo step bound a) s I := by
    induction bound generalizing a s with
    | zero => exact .pure hI
    | succ bound ih =>
      refine (hstep a s hJ).bind fun next between hnext => ?_
      exact .branch (fun hmore => ih _ _ hnext.1 (hnext.2 hmore)) fun _ => .pure hnext.1
  refine .peek .remaining fun remaining => (hstep first s hfirst).bind fun next between hnext => ?_
  exact .branch (fun more => hmore _ _ _ hnext.1 (hnext.2 more)) fun _ => .pure hnext.1

/-- Repetition keeps what one step keeps. -/
theorem Reaches.loop {step : α → Parse (α × Bool)} {first : α} {I : α → ParseState → Prop}
    (hfirst : I first s)
    (hstep : ∀ a s, I a s → Reaches (step a) s fun next after => I next.1 after) :
    Reaches (Parse.loop first step) s I :=
  .loop_of hfirst fun a s h => (hstep a s h).mono fun _ _ hnext => ⟨hnext, fun _ => hnext⟩

namespace Moves

theorem loop {step : α → Parse (α × Bool)} (first : α) (hstep : ∀ a, Moves (step a)) :
    Moves (Parse.loop first step) :=
  fun s hs => Reaches.loop (I := fun _ after => s.Before after) hs.before fun a between hbefore =>
    (hstep a between hbefore.sound).mono fun _ _ => hbefore.trans

theorem forIn {γ σ : Type} (found : List γ) (first : σ) {step : γ → σ → Parse (ForInStep σ)}
    (hstep : ∀ c a, Moves (step c a)) : Moves (ForIn.forIn found first step) := by
  induction found generalizing first with
  | nil => exact .pure _
  | cons c rest ih =>
    rw [List.forIn_cons]
    refine (hstep c first).bind fun next => ?_
    cases next with
    | done a => exact .pure a
    | yield a => exact ih a

theorem untilSign (close : String) {item : Parse α} (h : Moves item) :
    Moves (Parse.untilSign close item) := by
  refine (loop _ fun items => (eatSign close).bind fun _ => ?_).bind fun _ => .pure _
  exact .branch (.pure _) (h.bind fun _ => .pure _)

theorem commaList (close : String) {item : Parse α} (h : Moves item) :
    Moves (Parse.commaList close item) :=
  .untilSign close (h.bind fun _ => .peek (.isSign _) fun _ => .guard (.expectSign _) fun _ =>
    .pure _)

theorem commaSeparated {item : Parse α} (h : Moves item) : Moves (Parse.commaSeparated item) := by
  refine h.bind fun first => (loop _ fun items => (eatSign ",").bind fun _ => ?_).bind
    fun _ => .pure _
  exact .branch (h.bind fun _ => .pure _) (.pure _)

end Moves

namespace Lays

variable {P : Nat → Nat → α → Prop} {item : Parse α}

/-- Items up to a sign are found between the places around all of them. -/
theorem untilSign (hwiden : Widens P) (h : Lays item P) (close : String) :
    Lays (Parse.untilSign close item) fun lo hi items => ∀ a ∈ items, P lo hi a := by
  intro s hs
  refine Reaches.bind (Reaches.loop
    (I := fun items after => s.Before after ∧ ∀ a ∈ items, P s.here after.lastStop a)
    ⟨hs.before, nofun⟩ fun items between ⟨hbefore, hitems⟩ => ?_)
    fun items after ⟨hbefore, hitems⟩ =>
      .pure ⟨hbefore, fun a ha => hitems a (List.mem_reverse.1 ha)⟩
  refine .eat hbefore.sound (.sign close) (fun after hpast => .yes (.pure ?_)) (.no ?_)
  · exact ⟨hbefore.trans hpast.toBefore, fun a ha =>
      hwiden (hitems a ha) (Nat.le_refl _) hpast.lastStop⟩
  · refine (h between hbefore.sound).bind fun a after ⟨hafter, ha⟩ =>
      .pure ⟨hbefore.trans hafter, ?_⟩
    refine List.forall_mem_cons.2 ⟨hwiden ha hbefore.here (Nat.le_refl _), fun b hb => ?_⟩
    exact hwiden (hitems b hb) (Nat.le_refl _) hafter.lastStop

theorem commaList (hwiden : Widens P) (h : Lays item P) (close : String) :
    Lays (Parse.commaList close item) fun lo hi items => ∀ a ∈ items, P lo hi a := by
  refine untilSign hwiden (fun s hs => ?_) close
  refine (h s hs).bind fun a between ⟨hbefore, ha⟩ => .peek (.isSign _) fun _ => ?_
  refine .branch (fun _ => .pure ⟨hbefore, ha⟩) fun _ => ?_
  refine .step hbefore.sound (.expectSign _) fun _ after hafter => .pure ⟨hbefore.trans hafter, ?_⟩
  exact hwiden ha (Nat.le_refl _) hafter.lastStop

theorem commaSeparated (hwiden : Widens P) (h : Lays item P) :
    Lays (Parse.commaSeparated item) fun lo hi items => ∀ a ∈ items, P lo hi a := by
  intro s hs
  refine (h s hs).bind fun first between ⟨hbefore, hfirst⟩ => Reaches.bind (Reaches.loop
    (I := fun items after => s.Before after ∧ ∀ a ∈ items, P s.here after.lastStop a)
    ⟨hbefore, List.forall_mem_singleton.2 hfirst⟩ fun items between ⟨hbefore, hitems⟩ => ?_)
    fun items after ⟨hbefore, hitems⟩ =>
      .pure ⟨hbefore, fun a ha => hitems a (List.mem_reverse.1 ha)⟩
  refine .eat hbefore.sound (.sign ",") (fun next hpast => .yes ?_) (.no (.pure ⟨hbefore, hitems⟩))
  have hnext := hbefore.trans hpast.toBefore
  refine (h next hpast.sound).bind fun a after ⟨hafter, ha⟩ => .pure ⟨hnext.trans hafter, ?_⟩
  refine List.forall_mem_cons.2 ⟨hwiden ha hnext.here (Nat.le_refl _), fun b hb => ?_⟩
  exact hwiden (hitems b hb) (Nat.le_refl _) (hpast.toBefore.trans hafter).lastStop

/-- The parts of a template stand behind its opening quote. -/
theorem templatePieces (hwiden : Widens P) (h : Lays item P) :
    Lays (Grammar.templatePieces item) fun lo hi found =>
      lo < hi ∧ ∀ piece ∈ found.2.1, P (lo + 1) hi piece.1 := by
  intro s hs
  unfold Grammar.templatePieces
  refine .start ?_
  extract_lets piece
  -- A piece is read as characters, and only afterwards the parser goes on behind it.
  have hpiece (between : ParseState) (hbetween : between.Sound) : Reaches piece between
      fun next after => between = after ∧ between.here < next.after.pos := by
    have hplace : between.here ≤ between.current.after.pos :=
      Nat.le_trans hbetween.current.stop hbetween.current.after
    refine .get ?_
    split
    · rename_i next hnext
      exact .pure ⟨rfl, Nat.lt_of_le_of_lt hplace (Lexer.lt_of_pieceChars hnext)⟩
    · exact .stopAt _
  refine (hpiece s hs).bind fun first _ ⟨heq, hfirst⟩ => ?_
  subst heq
  refine Reaches.bind (Reaches.loop
    (I := fun found after => s.Before after ∧ s.here < found.2.1.after.pos ∧
      after.here < found.2.1.after.pos ∧ ∀ piece ∈ found.1, P (s.here + 1) after.lastStop piece.1)
    ⟨hs.before, hfirst, hfirst, nofun⟩ fun (parts, last, bad) between hbetween => ?_)
    fun (parts, last, bad) between hbetween => ?_
  · -- A turn: the value, the brace behind it and the next piece.
    obtain ⟨hbefore, hlast, hhere, hparts⟩ := hbetween
    refine .branch (fun _ => .pure ⟨hbefore, hlast, hhere, hparts⟩) fun _ => ?_
    have horder : between.lastStop ≤ last.after.pos :=
      Nat.le_trans hbefore.sound.order (Nat.le_of_lt hhere)
    have hread : between.Before { between with current := Lexer.readToken last.after } :=
      before_of_current rfl (Nat.le_refl _) horder (Nat.le_of_lt hhere)
    have hstart : last.after.pos ≤ (Lexer.readToken last.after).token.start :=
      (Lexer.readToken_full last.after).2
    refine .reread ((h _ hread.sound).bind fun value next ⟨hnext, hvalue⟩ => ?_)
    refine .peek (.isSign _) fun _ => .require fun _ => ?_
    refine (hpiece next hnext.sound).bind fun piece _ ⟨heq, hpiece⟩ => .pure ?_
    subst heq
    have hafter := hread.trans hnext
    refine ⟨hbefore.trans hafter, Nat.lt_of_le_of_lt (hbefore.trans hafter).here hpiece, hpiece, ?_⟩
    refine List.forall_mem_cons.2 ⟨hwiden hvalue (Nat.le_trans hlast hstart) (Nat.le_refl _), ?_⟩
    exact fun piece hmem => hwiden (hparts piece hmem) (Nat.le_refl _) hafter.lastStop
  · -- No piece is left: the parser goes on behind the last one.
    obtain ⟨hbefore, hlast, hhere, hparts⟩ := hbetween
    have horder : between.lastStop ≤ last.after.pos :=
      Nat.le_trans hbefore.sound.order (Nat.le_of_lt hhere)
    refine .modify (.reread (.pure ⟨?_, hlast, fun piece hmem => ?_⟩))
    · exact hbefore.trans (before_of_current rfl horder (Nat.le_refl _) (Nat.le_of_lt hhere))
    · exact hwiden (hparts piece (List.mem_reverse.1 hmem)) (Nat.le_refl _) horder

end Lays

theorem Moves.templatePieces {part : Parse α} (h : Moves part) :
    Moves (Grammar.templatePieces part) :=
  (Lays.templatePieces (P := fun _ _ _ => True) (fun _ _ _ _ _ _ _ _ => trivial) fun s hs =>
    (h s hs).mono fun _ _ hbefore => ⟨hbefore, trivial⟩).moves

end Parse

end StaticConfig
