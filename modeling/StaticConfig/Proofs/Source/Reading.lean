import StaticConfig.Source.Lexer

/-!
# Tokens stand where they are read

Where a token that is read at a place starts and ends: after that place, one after the other, and
with at least one character unless it is none.

- `Lexer.Reading.Steady`: the places of a reading are in order, and a word has all its characters;
- `Lexer.Reading.Full`: besides, the token has a character if it is one;
- `Lexer.readToken_full`, `Lexer.readRegex_full`, `Lexer.readTagToken_steady`: the readers.

Names of tags are the exception: one that starts with an escape is read as a name without any
characters, so that readings in tags are steady but not full.
-/

namespace StaticConfig

/-- Whether it is a token at all. -/
def Lexeme.isToken : Lexeme → Bool
  | .invalid _ | .endOfText => false
  | _ => true

namespace Lexer

/-! ### Blanks and comments -/

/-- Whether a comment that is open lies between two positions. -/
def Between.Opened (first last : Nat) : Between → Prop
  | .blockComment start => first ≤ start ∧ start ≤ last
  | .mark next => next.Opened first last
  | .blank | .lineComment => True

theorem Between.Opened.mono {first last last' : Nat} (hle : last ≤ last') {place : Between}
    (h : place.Opened first last) : place.Opened first last' := by
  induction place with
  | blockComment => exact ⟨h.1, Nat.le_trans h.2 hle⟩
  | mark next ih => exact ih h
  | blank | lineComment => trivial

/-- A gap goes forward, and a comment that does not end starts in it. -/
theorem gap_bounds {first : Nat} (cs : List Char) (place : Between) (newLine : Bool) {pos : Nat}
    (hplace : place.Opened first pos) (hfirst : first ≤ pos) :
    pos ≤ (gap place newLine pos cs).after.pos ∧
      ∀ start ∈ (gap place newLine pos cs).unclosed,
        first ≤ start ∧ start ≤ (gap place newLine pos cs).after.pos := by
  induction cs generalizing place newLine pos with
  | nil =>
    unfold gap
    split
    · exact ⟨Nat.le_refl _, fun start hstart => by cases hstart; exact hplace⟩
    · exact ⟨Nat.le_refl _, nofun⟩
  | cons c rest ih =>
    -- The character is taken, and the rest of the gap starts behind it.
    have hnext (next : Between) {line : Bool} (hnext : next.Opened first (pos + 1)) :
        pos ≤ (gap next line (pos + 1) rest).after.pos ∧
          ∀ start ∈ (gap next line (pos + 1) rest).unclosed,
            first ≤ start ∧ start ≤ (gap next line (pos + 1) rest).after.pos := by
      obtain ⟨hle, hunclosed⟩ := ih next line hnext (by omega)
      exact ⟨by omega, hunclosed⟩
    have hmore := hplace.mono (Nat.le_succ pos)
    unfold gap
    cases place with
    | mark next => exact hnext next hmore
    | lineComment =>
      dsimp only
      split
      · exact hnext .blank trivial
      · exact hnext .lineComment trivial
    | blockComment start =>
      dsimp only
      split
      · exact hnext (.mark .blank) trivial
      · exact hnext (.blockComment start) hmore
    | blank =>
      dsimp only
      split
      · exact hnext .blank trivial
      split
      · exact hnext .blank trivial
      split
      · exact hnext (.mark .lineComment) trivial
      split
      · -- A comment that may be left open starts here, at `pos`.
        exact hnext (.mark (.blockComment pos)) ⟨hfirst, Nat.le_succ pos⟩
      · exact ⟨Nat.le_refl _, nofun⟩

/-! ### Names, strings and templates -/

/-- A name takes at least as many characters of the text as it has. -/
theorem length_nameChars_le (first : Bool) (settled : Nat) (cs : List Char) :
    (nameChars first settled cs).1.length ≤ (nameChars first settled cs).2 := by
  induction cs generalizing first settled with
  | nil => exact Nat.le_refl _
  | cons c rest ih =>
    unfold nameChars
    cases settled with
    | succ more => exact Nat.le_succ_of_le (ih first more)
    | zero =>
      dsimp -zeta only
      extract_lets fits
      split
      · exact Nat.succ_le_succ (ih false 0)
      split
      · rename_i taken _
        split
        · exact Nat.succ_le_succ (ih false taken)
        · exact Nat.le_refl _
      · exact Nat.le_refl _

theorem lt_of_stringChars {quote : Char} {start settled pos stop : Nat} {value found : List Char}
    {cs : List Char} (h : stringChars quote start settled pos value cs = .ok (found, stop)) :
    pos < stop := by
  induction cs generalizing settled pos value with
  | nil => cases h
  | cons c rest ih =>
    have hnext {settled : Nat} {value : List Char}
        (h : stringChars quote start settled (pos + 1) value rest = .ok (found, stop)) :
        pos < stop := Nat.lt_of_succ_lt (ih h)
    unfold stringChars at h
    cases settled with
    | succ more => exact hnext h
    | zero =>
      dsimp only at h
      split at h
      · cases h
        exact Nat.lt_succ_self pos
      split at h
      · cases h
      split at h
      · split at h
        · exact hnext h
        · cases h
      · exact hnext h

theorem lt_of_pieceChars {settled pos : Nat} {text : List Char} {bad : Option Nat}
    {cs : List Char} {piece : Piece} (h : pieceChars settled pos text bad cs = some piece) :
    pos < piece.after.pos := by
  induction cs generalizing settled pos text bad with
  | nil => cases h
  | cons c rest ih =>
    have hnext {settled : Nat} {text : List Char} {bad : Option Nat}
        (h : pieceChars settled (pos + 1) text bad rest = some piece) : pos < piece.after.pos :=
      Nat.lt_of_succ_lt (ih h)
    unfold pieceChars at h
    cases settled with
    | succ more => exact hnext h
    | zero =>
      dsimp only at h
      split at h
      · cases h
        exact Nat.lt_succ_self pos
      split at h
      · cases h
        exact Nat.lt_add_of_pos_right Nat.two_pos
      split at h
      · exact hnext h
      split at h
      · split at h
        · exact hnext h
        · exact hnext h
      · exact hnext h

/-! ### Numbers -/

theorem closeNumber_after (lexeme : Lexeme) (after : Cursor) :
    (closeNumber lexeme after).2 = after := by
  unfold closeNumber
  split
  · split <;> rfl
  · rfl

theorem radixNumber_le (radix : Nat) (c : Cursor) : c.pos ≤ (radixNumber radix c).2.pos := by
  unfold radixNumber
  extract_lets run after
  have hafter : c.pos ≤ after.pos := Nat.le_add_right _ _
  split
  · exact hafter
  split
  · exact hafter
  split
  · rw [closeNumber_after]
    exact Nat.le_trans hafter (Nat.le_add_right _ _)
  · rw [closeNumber_after]
    exact hafter

theorem digitRun_ne_nil {first : Char} (rest : List Char) (h : first.isDigit = true) :
    digitRun 10 (first :: rest) ≠ [] := by
  have hdigit : (digitValue? 10 first).isSome = true := by
    have hrange : '0' ≤ first ∧ first ≤ '9' := by
      simpa [Char.isDigit, Char.le_def] using h
    have hle : first.toNat ≤ '9'.toNat := hrange.2
    have hvalue : first.toNat - '0'.toNat < 10 := by
      have hmarks : '9'.toNat = 57 ∧ '0'.toNat = 48 := by decide
      omega
    simpa [digitValue?, hrange, Option.filter] using hvalue
  unfold digitRun
  rw [List.takeWhile_cons_of_pos (by simp [hdigit])]
  exact List.cons_ne_nil _ _

/-- What comes after a decimal number comes after its first digits, and after its point if it starts
with one. -/
theorem decimalNumber_le (c : Cursor) :
    c.pos + (digitRun 10 c.rest).length ≤ (decimalNumber c).2.pos ∧
      (c.rest.head? = some '.' → c.pos < (decimalNumber c).2.pos) := by
  unfold decimalNumber
  extract_lets whole afterWhole
  have hpos : afterWhole.pos = c.pos + whole.length := rfl
  -- A number that starts with its point has no digits before it.
  have hpoint : c.rest.head? = some '.' → whole = [] ∧ afterWhole.rest.head? = some '.' := by
    intro h
    obtain ⟨rest, hrest⟩ := List.head?_eq_some_iff.1 h
    have hwhole : whole = [] := by
      unfold whole
      rw [hrest]
      rfl
    refine ⟨hwhole, ?_⟩
    unfold afterWhole
    rw [hwhole]
    exact h
  split
  · rename_i hfit
    exact ⟨Nat.le_refl _, fun h => absurd hfit (by rw [(hpoint h).1]; decide)⟩
  split
  · rename_i _ hzero
    exact ⟨Nat.le_refl _, fun h => absurd hzero (by rw [(hpoint h).1]; decide)⟩
  split
  · rename_i hn
    rw [closeNumber_after]
    refine ⟨Nat.le_succ _, fun h => ?_⟩
    obtain ⟨rest, hrest⟩ := List.head?_eq_some_iff.1 (hpoint h).2
    cases hn.symm.trans hrest
  · split
    rename_i point fraction hparts
    have hlength : c.rest.head? = some '.' → 0 < point.length := by
      intro h
      obtain ⟨rest, hrest⟩ := List.head?_eq_some_iff.1 (hpoint h).2
      rw [hrest] at hparts
      cases hparts
      exact Nat.one_pos
    extract_lets afterFraction mark afterMark exponent after digits
    have hafter : afterWhole.pos + point.length ≤ after.pos := by
      show _ ≤ afterWhole.pos + (point.length + fraction.length) + _ + _
      omega
    have hbounds : c.pos + whole.length ≤ after.pos ∧
        (c.rest.head? = some '.' → c.pos < after.pos) :=
      ⟨by omega, fun h => by have := hlength h; omega⟩
    -- What is left to decide is the value: the end is settled.
    split
    · exact hbounds
    split
    · exact hbounds
    split
    · rw [closeNumber_after]
      exact hbounds
    · exact hbounds

/-- A number has a digit, or a point before one. -/
theorem number_lt {c : Cursor} {first : Char} {rest : List Char} (hrest : c.rest = first :: rest)
    (hfirst : first.isDigit = true ∨ first = '.') : c.pos < (number c).2.pos := by
  have hdecimal : c.pos < (decimalNumber c).2.pos := by
    obtain ⟨hdigits, hpoint⟩ := decimalNumber_le c
    rcases hfirst with hfirst | rfl
    · have hlength := List.length_pos_iff.2 (digitRun_ne_nil rest hfirst)
      rw [← hrest] at hlength
      omega
    · exact hpoint (by rw [hrest]; rfl)
  have hradix (radix : Nat) : c.pos < (radixNumber radix (c.skip 2)).2.pos :=
    Nat.lt_of_lt_of_le (Nat.lt_add_of_pos_right Nat.two_pos) (radixNumber_le radix (c.skip 2))
  unfold number
  split
  · split
    · exact hradix 16
    split
    · exact hradix 8
    split
    · exact hradix 2
    · exact hdecimal
  · exact hdecimal

theorem closeNumber_ne_name {lexeme : Lexeme} {text : String} (h : lexeme ≠ .name text)
    (after : Cursor) : (closeNumber lexeme after).1 ≠ .name text := by
  unfold closeNumber
  split
  · split
    · nofun
    · exact h
  · exact h

/-- No number is a name. -/
theorem number_ne_name (c : Cursor) (text : String) : (number c).1 ≠ .name text := by
  have hdecimal : (decimalNumber c).1 ≠ .name text := by
    unfold decimalNumber
    extract_lets whole afterWhole
    split
    · nofun
    split
    · nofun
    split
    · exact closeNumber_ne_name (by nofun) _
    split
    extract_lets afterFraction mark afterMark exponent after digits
    split
    · nofun
    split
    · nofun
    split
    · exact closeNumber_ne_name (by nofun) _
    · nofun
  have hradix (radix : Nat) : (radixNumber radix (c.skip 2)).1 ≠ .name text := by
    unfold radixNumber
    extract_lets run after
    split
    · nofun
    split
    · nofun
    split <;> exact closeNumber_ne_name (by nofun) _
  unfold number
  split
  · split
    · exact hradix 16
    split
    · exact hradix 8
    split
    · exact hradix 2
    · exact hdecimal
  · exact hdecimal

/-! ### Tokens -/

/-- A sign has a character. -/
theorem length_pos_of_sign? {cs : List Char} {text : String} (h : sign? cs = some text) :
    0 < text.length := by
  unfold sign? at h
  split at h
  · split at h <;> cases h <;> decide
  · have hsigns : ∀ sign ∈ signs, 0 < sign.length := by decide
    exact hsigns text (List.mem_of_find?_eq_some h)

/-- What is known of a lexeme that takes some characters. -/
structure Takes (lexeme : Lexeme) (length : Nat) : Prop where
  token : lexeme.isToken = true → 0 < length
  word : ∀ text, lexeme = .name text → text.length ≤ length

theorem Takes.of_not_token {lexeme : Lexeme} (length : Nat) (h : lexeme.isToken = false) :
    Takes lexeme length :=
  ⟨fun htoken => by simp [h] at htoken, fun text heq => by simp [heq, Lexeme.isToken] at h⟩

theorem Takes.of_pos {lexeme : Lexeme} {length : Nat} (h : 0 < length)
    (hword : ∀ text, lexeme ≠ .name text) : Takes lexeme length :=
  ⟨fun _ => h, fun text heq => absurd heq (hword text)⟩

/-- A lexeme is read forward, with the characters that it takes. -/
theorem lexeme_takes (c : Cursor) :
    ∃ length, (lexeme c).2.pos = c.pos + length ∧ Takes (lexeme c).1 length := by
  unfold lexeme
  split
  · exact ⟨0, rfl, .of_not_token _ rfl⟩
  · rename_i first rest hrest
    split
    · split
      · rename_i value stop hstring
        have hlt := lt_of_stringChars hstring
        exact ⟨stop - c.pos, rfl, .of_pos (by omega) nofun⟩
      · exact ⟨1, rfl, .of_not_token _ rfl⟩
    split
    · rename_i hnumber
      have hfirst : first.isDigit = true ∨ first = '.' := by
        simp only [Bool.or_eq_true, Bool.and_eq_true, beq_iff_eq] at hnumber
        exact hnumber.imp id And.left
      have hlt := number_lt hrest hfirst
      exact ⟨(number c).2.pos - c.pos, by omega, .of_pos (by omega) (number_ne_name c)⟩
    split
    · split
      · exact ⟨1, rfl, .of_not_token _ rfl⟩
      · exact ⟨_, rfl, .of_pos (Nat.succ_pos _) nofun⟩
    · split
      · split
        · rename_i text hsign
          exact ⟨_, rfl, .of_pos (length_pos_of_sign? hsign) nofun⟩
        · exact ⟨1, rfl, .of_not_token _ rfl⟩
      · -- A name: each of its characters was written with one or more.
        rename_i name n hempty hname
        have hlength := length_nameChars_le true 0 c.rest
        rw [hname] at hlength
        have hname : 0 < name.length := List.length_pos_iff.2 hempty
        refine ⟨n, rfl, fun _ => Nat.lt_of_lt_of_le hname hlength, fun text heq => ?_⟩
        cases heq
        rw [String.length_ofList]
        exact hlength

/-- The places of a reading are in order, and a word stands with all its characters. -/
structure Reading.Steady (r : Reading) : Prop where
  start : r.token.start ≤ r.start.pos
  stop : r.token.start ≤ r.token.stop
  after : r.token.stop ≤ r.after.pos
  sign : ∀ text, r.token.lexeme = .sign text → r.token.start < r.token.stop
  word : ∀ text, r.token.lexeme = .name text → r.token.start + text.length ≤ r.token.stop

/-- A steady reading with a character, if it is a token. -/
structure Reading.Full (r : Reading) : Prop extends r.Steady where
  token : r.token.lexeme.isToken = true → r.token.start < r.token.stop

theorem Takes.full {lexeme : Lexeme} {length : Nat} (h : Takes lexeme length) {start after : Cursor}
    {stop : Nat} {afterLine : Bool} (hstop : stop = start.pos + length)
    (hafter : after.pos = stop) :
    Reading.Full ⟨start, ⟨lexeme, start.pos, stop, afterLine⟩, after⟩ where
  start := Nat.le_refl _
  stop := hstop ▸ Nat.le_add_right _ _
  after := Nat.le_of_eq hafter.symm
  sign text hsign := by
    have hpos := h.token (by rw [show lexeme = .sign text from hsign]; rfl)
    show start.pos < stop
    omega
  word text hword := by
    have hlength := h.word text hword
    show start.pos + text.length ≤ stop
    omega
  token htoken := by
    have hpos := h.token htoken
    show start.pos < stop
    omega

theorem Reading.full_of_not_token {r : Reading} (h : r.token.lexeme.isToken = false)
    (hstart : r.token.start ≤ r.start.pos) (hstop : r.token.start ≤ r.token.stop)
    (hafter : r.token.stop ≤ r.after.pos) : r.Full where
  start := hstart
  stop := hstop
  after := hafter
  sign text hsign := by simp [hsign, Lexeme.isToken] at h
  word text hword := by simp [hword, Lexeme.isToken] at h
  token htoken := by simp [h] at htoken

/-- The next token stands after the place where it is read. -/
theorem readToken_full (c : Cursor) : (readToken c).Full ∧ c.pos ≤ (readToken c).token.start := by
  obtain ⟨hgap, hunclosed⟩ := gap_bounds c.rest .blank false
    (trivial : Between.blank.Opened c.pos c.pos) (Nat.le_refl _)
  unfold readToken
  extract_lets g
  split
  · rename_i start hstart
    obtain ⟨hfirst, hlast⟩ := hunclosed start hstart
    exact ⟨Reading.full_of_not_token rfl hlast hlast (Nat.le_refl _), hfirst⟩
  · split
    rename_i found after hfound
    refine ⟨?_, hgap⟩
    split at hfound
    · cases hfound
      exact (Takes.of_not_token 1 rfl).full rfl rfl
    · obtain ⟨length, hafter, htakes⟩ := lexeme_takes g.after
      rw [hfound] at hafter htakes
      exact htakes.full hafter rfl

/-- A regular expression has its two slashes. -/
theorem readRegex_full {r : Reading} (h : r.token.start ≤ r.start.pos) :
    (readRegex r).Full ∧ r.token.start ≤ (readRegex r).token.start := by
  unfold readRegex
  extract_lets c
  split
  · rename_i n hbody
    extract_lets body
    split
    extract_lets after found
    have hfound (text : String) : found ≠ .name text := by
      unfold found
      split <;> nofun
    exact ⟨(Takes.of_pos (Nat.add_pos_left (Nat.succ_pos n) _) hfound).full
      (Nat.add_assoc _ _ _) rfl, h⟩
  · exact ⟨(Takes.of_not_token 1 rfl).full rfl rfl, h⟩

/-- In a tag, names may have no characters. -/
theorem readTagToken_steady (c : Cursor) :
    (readTagToken c).Steady ∧ c.pos ≤ (readTagToken c).token.start := by
  obtain ⟨hfull, hstart⟩ := readToken_full c
  unfold readTagToken
  extract_lets r
  have hle : c.pos ≤ r.start.pos := Nat.le_trans hstart hfull.start
  split
  · extract_lets name after
    refine ⟨⟨Nat.le_refl _, Nat.le_add_right _ _, Nat.le_refl _, nofun, fun text htext => ?_⟩, hle⟩
    cases htext
    rw [String.length_ofList]
    exact Nat.le_refl _
  · split
    · extract_lets value after found
      have hfound (text : String) : found ≠ .name text := by
        unfold found
        split <;> nofun
      exact ⟨((Takes.of_pos (Nat.succ_pos _) hfound).full rfl rfl).toSteady, hle⟩
    · exact ⟨hfull.toSteady, hstart⟩
  · exact ⟨hfull.toSteady, hstart⟩

end Lexer

end StaticConfig
