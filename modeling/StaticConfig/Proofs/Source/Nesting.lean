import Mathlib.Data.List.Infix
import StaticConfig.Source.Parser

/-!
# How deep an accepted text nests

The scan for nested brackets counts up and down and never below zero. On a text that closes more
than it opens its counter is therefore no difference of brackets from the start: it is the largest
such difference over all runs of tokens that end where the scan stands.

- `openings`, `closings`: which tokens are brackets;
- `excess`, `Overflows`: how many more brackets a run opens than it closes, and whether some run
  that ends here opens too many;
- `depthAfter_le_iff`: the counter is the maximum over the runs that end at a place;
- `nestingOverflow_eq_some_iff`, `nestingOverflow_eq_none_iff`: the scan by its counter, by
  induction on the tokens;
- `nesting_bounded`: what the scan reports, and what it says of texts that are accepted.
-/

namespace StaticConfig

/-! ### Counting brackets -/

/-- The tokens that open a bracket. A substitution in a template opens one too. -/
def openings : List Lexeme := [.sign "(", .sign "[", .sign "\x7b", .substitution]

/-- The tokens that close a bracket, also that of a substitution. -/
def closings : List Lexeme := [.sign ")", .sign "]", .sign "\x7d"]

/-- How many more brackets the tokens open than they close. -/
def excess (ts : List Token) : Int :=
  ts.countP (·.lexeme ∈ openings) - ts.countP (·.lexeme ∈ closings)

/-- Some run that ends with the last of the tokens opens over `limit` brackets more than it
closes. -/
def Overflows (limit : Nat) (ts : List Token) : Prop := ∃ run, run <:+ ts ∧ limit < excess run

/-- `t` is the first opening bracket up to which the tokens satisfy `P`. -/
def FirstOpening (P : List Token → Prop) (ts : List Token) (t : Token) : Prop :=
  ∃ before after, ts = before ++ t :: after ∧ t.lexeme ∈ openings ∧ P (before ++ [t]) ∧
    ∀ earlier u later, before = earlier ++ u :: later → u.lexeme ∈ openings →
      ¬P (earlier ++ [u])

theorem excess_append (ts us : List Token) : excess (ts ++ us) = excess ts + excess us := by
  unfold excess
  rw [List.countP_append, List.countP_append]
  omega

theorem Token.opens_iff {t : Token} : t.opens ↔ t.lexeme ∈ openings := by
  obtain ⟨lexeme, start, stop, afterLine⟩ := t
  cases lexeme with
  | sign text => simp [opens, openings, or_assoc]
  | _ => simp [opens, openings]

theorem Token.closes_iff {t : Token} : t.closes ↔ t.lexeme ∈ closings := by
  obtain ⟨lexeme, start, stop, afterLine⟩ := t
  cases lexeme with
  | sign text => simp [closes, closings, or_assoc]
  | _ => simp [closes, closings]

/-- No token is an opening and a closing bracket at once. -/
theorem not_mem_closings {lexeme : Lexeme} (h : lexeme ∈ openings) : lexeme ∉ closings := by
  revert lexeme
  decide

theorem excess_opens {t : Token} (h : t.opens) : excess [t] = 1 := by
  have hopening := t.opens_iff.1 h
  simp [excess, hopening, not_mem_closings hopening]

theorem excess_closes {t : Token} (hopens : ¬t.opens) (h : t.closes) : excess [t] = -1 := by
  rw [t.opens_iff] at hopens
  rw [t.closes_iff] at h
  simp [excess, hopens, h]

theorem excess_other {t : Token} (hopens : ¬t.opens) (h : ¬t.closes) : excess [t] = 0 := by
  rw [t.opens_iff] at hopens
  rw [t.closes_iff] at h
  simp [excess, hopens, h]

/-! ### The counter -/

/-- The counter after a token. -/
def depthStep (depth : Nat) (t : Token) : Nat :=
  if t.opens then depth + 1 else if t.closes then depth - 1 else depth

/-- The counter after some tokens. -/
def depthAfter (depth : Nat) (ts : List Token) : Nat := ts.foldl depthStep depth

/-- Where the counter stops at zero, the difference would have gone below it. -/
theorem depthStep_eq (depth : Nat) (t : Token) :
    (depthStep depth t : Int) = max 0 (depth + excess [t]) := by
  unfold depthStep
  by_cases hopens : t.opens
  · rw [if_pos hopens, excess_opens hopens]
    omega
  · rw [if_neg hopens]
    by_cases hcloses : t.closes
    · rw [if_pos hcloses, excess_closes hopens hcloses]
      omega
    · rw [if_neg hcloses, excess_other hopens hcloses]
      omega

theorem depthAfter_concat (depth : Nat) (ts : List Token) (t : Token) :
    depthAfter depth (ts ++ [t]) = depthStep (depthAfter depth ts) t := by
  simp [depthAfter]

/-- The counter bounds the excess of every run that ends where it stands, and of no run by more
than it must: it is the largest of them. -/
theorem depthAfter_le_iff (limit : Nat) (ts : List Token) :
    depthAfter 0 ts ≤ limit ↔ ∀ run, run <:+ ts → excess run ≤ limit := by
  induction ts using List.reverseRecOn generalizing limit with
  | nil => simp [depthAfter, excess]
  | append_singleton ts t ih =>
    have hstep := depthStep_eq (depthAfter 0 ts) t
    rw [depthAfter_concat]
    constructor
    · intro hle run hrun
      rcases List.suffix_concat_iff.1 hrun with rfl | ⟨front, rfl, hfront⟩
      · simp [excess]
      · have hbound := (ih (depthAfter 0 ts)).1 (Nat.le_refl _) front hfront
        rw [excess_append]
        omega
    · intro hruns
      by_cases hroom : 0 ≤ (limit : Int) - excess [t]
      · -- A run before the token may have as much as the token leaves room for.
        have hle : depthAfter 0 ts ≤ ((limit : Int) - excess [t]).toNat := by
          rw [ih]
          intro front hfront
          have hrun := hruns (front ++ [t]) (List.suffix_concat_iff.2 (.inr ⟨front, rfl, hfront⟩))
          rw [excess_append] at hrun
          omega
        omega
      · have hrun := hruns [t] (List.suffix_append ts [t])
        omega

theorem overflows_iff (limit : Nat) (ts : List Token) :
    Overflows limit ts ↔ limit < depthAfter 0 ts := by
  rw [← Nat.not_le, depthAfter_le_iff]
  simp [Overflows]

/-! ### The scan -/

theorem nestingOverflow_cons_of_lt {limit depth : Nat} {t : Token} {rest : List Token}
    (h : t.opens → depth < limit) :
    nestingOverflow limit depth (t :: rest) = nestingOverflow limit (depthStep depth t) rest := by
  rw [nestingOverflow, depthStep]
  by_cases hopens : t.opens
  · rw [if_pos hopens, if_pos hopens, if_neg (Nat.not_le.2 (h hopens))]
  · rw [if_neg hopens, if_neg hopens]
    split <;> rfl

theorem nestingOverflow_cons_of_le {limit depth : Nat} {t : Token} {rest : List Token}
    (hopens : t.opens) (h : limit ≤ depth) :
    nestingOverflow limit depth (t :: rest) = some t.start := by
  rw [nestingOverflow, if_pos hopens, if_pos h]

theorem depthStep_le {limit depth : Nat} {t : Token} (hdepth : depth ≤ limit)
    (h : t.opens → depth < limit) : depthStep depth t ≤ limit := by
  unfold depthStep
  split
  · exact h ‹_›
  · split <;> omega

/-- A scan that has counted `depth` reports the first opening bracket that makes too many. -/
theorem nestingOverflow_eq_some_iff {limit depth : Nat} (hdepth : depth ≤ limit) (ts : List Token)
    (pos : Nat) :
    nestingOverflow limit depth ts = some pos ↔
      ∃ t, t.start = pos ∧ FirstOpening (fun front => limit < depthAfter depth front) ts t := by
  induction ts generalizing depth with
  | nil => simp [nestingOverflow, FirstOpening]
  | cons t rest ih =>
    by_cases hroom : t.opens → depth < limit
    · -- There is room, so the rest decides: its beginnings get one token longer.
      have hstep := depthStep_le hdepth hroom
      rw [nestingOverflow_cons_of_lt hroom, ih hstep]
      refine exists_congr fun u => and_congr_right fun _ => ?_
      constructor
      · rintro ⟨before, after, rfl, hopens, hover, hnone⟩
        refine ⟨t :: before, after, rfl, hopens, hover, ?_⟩
        intro earlier v later hsplit hv
        cases earlier with
        | nil =>
          cases hsplit
          show ¬limit < depthStep depth t
          omega
        | cons w earlier =>
          cases hsplit
          exact hnone earlier v later rfl hv
      · rintro ⟨before, after, hsplit, hopens, hlt, hnone⟩
        cases before with
        | nil =>
          cases hsplit
          have hlt : limit < depthStep depth t := hlt
          omega
        | cons w before =>
          cases hsplit
          refine ⟨before, after, rfl, hopens, hlt, ?_⟩
          intro earlier v later hsplit hv
          exact hnone (t :: earlier) v later (by rw [hsplit]; rfl) hv
    · -- The bracket at the front is one too many.
      obtain ⟨hopens, hfull⟩ := Classical.not_imp.1 hroom
      have hle : limit ≤ depth := Nat.not_lt.1 hfull
      have hfirst : limit < depthAfter depth ([] ++ [t]) := by
        simp [depthAfter, depthStep, hopens]
        omega
      rw [nestingOverflow_cons_of_le hopens hle, Option.some.injEq]
      constructor
      · intro hpos
        exact ⟨t, hpos, [], rest, rfl, t.opens_iff.1 hopens, hfirst, by simp⟩
      · rintro ⟨u, rfl, before, after, hsplit, -, -, hnone⟩
        cases before with
        | nil => cases hsplit; rfl
        | cons v before =>
          cases hsplit
          exact absurd hfirst (hnone [] t before rfl (t.opens_iff.1 hopens))

/-- A scan that reports nothing has counted to at most `limit` throughout. -/
theorem nestingOverflow_eq_none_iff {limit depth : Nat} (hdepth : depth ≤ limit)
    (ts : List Token) :
    nestingOverflow limit depth ts = none ↔ ∀ front, front <+: ts →
      depthAfter depth front ≤ limit := by
  induction ts generalizing depth with
  | nil => simpa [nestingOverflow, depthAfter] using hdepth
  | cons t rest ih =>
    by_cases hroom : t.opens → depth < limit
    · -- There is room: a beginning is empty, or one token longer than a beginning of the rest.
      rw [nestingOverflow_cons_of_lt hroom, ih (depthStep_le hdepth hroom)]
      constructor
      · intro hfronts front hfront
        cases front with
        | nil => exact hdepth
        | cons u front =>
          obtain ⟨rfl, hshorter⟩ := List.cons_prefix_cons.1 hfront
          exact hfronts front hshorter
      · intro hfronts front hfront
        exact hfronts (t :: front) (List.cons_prefix_cons.2 ⟨rfl, hfront⟩)
    · -- There is none: the first token alone is a beginning that is too deep.
      obtain ⟨hopens, hfull⟩ := Classical.not_imp.1 hroom
      have hle : limit ≤ depth := Nat.not_lt.1 hfull
      rw [nestingOverflow_cons_of_le hopens hle]
      constructor
      · intro hnone
        cases hnone
      · intro hfronts
        have hfront := hfronts [t] (List.prefix_append [t] rest)
        simp [depthAfter, depthStep, hopens] at hfront
        omega

/-! ### Runs, prefixes and whole texts -/

theorem forall_infix_excess_le_iff (limit : Nat) (ts : List Token) :
    (∀ run, run <:+: ts → excess run ≤ limit) ↔
      ∀ front, front <+: ts → depthAfter 0 front ≤ limit := by
  constructor
  · intro hruns front hfront
    rw [depthAfter_le_iff]
    intro run hrun
    exact hruns run (hrun.isInfix.trans hfront.isInfix)
  · rintro hfronts run ⟨before, after, rfl⟩
    have hle := hfronts (before ++ run) (List.prefix_append _ after)
    exact (depthAfter_le_iff limit _).1 hle run (List.suffix_append before run)

/-- Where nothing is closed that was not opened, no run has more excess than the run from the start
to the same place. -/
theorem overflows_iff_of_forall_prefix {limit : Nat} {ts : List Token}
    (h : ∀ front, front <+: ts → 0 ≤ excess front) : Overflows limit ts ↔ limit < excess ts := by
  constructor
  · rintro ⟨run, ⟨before, rfl⟩, hover⟩
    have hbefore := h before (List.prefix_append before run)
    rw [excess_append]
    omega
  · exact fun hover => ⟨ts, List.suffix_refl ts, hover⟩

theorem FirstOpening.congr {P Q : List Token → Prop} {ts : List Token} {t : Token}
    (h : ∀ front, front <+: ts → (P front ↔ Q front)) :
    FirstOpening P ts t ↔ FirstOpening Q ts t := by
  unfold FirstOpening
  refine exists_congr fun before => exists_congr fun after => and_congr_right fun hsplit => ?_
  have hfront {earlier : List Token} {u : Token} {later : List Token}
      (hbefore : before ++ [t] = earlier ++ [u] ++ later) :
      P (earlier ++ [u]) ↔ Q (earlier ++ [u]) := by
    refine h _ ⟨later ++ after, ?_⟩
    rw [hsplit, ← List.append_assoc, ← hbefore]
    simp
  -- The token itself is one of those up to it, so one argument serves both.
  have hlast : P (before ++ [t]) ↔ Q (before ++ [t]) :=
    hfront (List.append_nil (before ++ [t])).symm
  refine and_congr_right fun _ => and_congr hlast ?_
  refine forall_congr' fun earlier => forall_congr' fun u => forall_congr' fun later => ?_
  refine forall_congr' fun hbefore => imp_congr_right fun _ => not_congr ?_
  have hsplit : before ++ [t] = earlier ++ [u] ++ (later ++ [t]) := by simp [hbefore]
  exact hfront hsplit

/-- The tokens that the scan of a text goes over. -/
def scanned (elements : Bool) (text : String) : List Token :=
  tokens elements (Lexer.afterHashBang (.ofText text))

theorem parseModule_eq_nesting_iff {file : Path} {elements : Bool} {text : String} {pos : Nat} :
    parseModule file elements text = .error (.nesting pos) ↔
      nestingOverflow maxNesting 0 (scanned elements text) = some pos := by
  unfold parseModule scanned
  extract_lets c first
  constructor
  · intro herror
    split at herror
    · cases herror
      assumption
    · split at herror
      · cases herror
      · split at herror <;> cases herror
  · intro hscan
    rw [hscan]

theorem nestingOverflow_of_parseModule {file : Path} {elements : Bool} {text : String} {m : Module}
    (h : parseModule file elements text = .ok m) :
    nestingOverflow maxNesting 0 (scanned elements text) = none := by
  cases hscan : nestingOverflow maxNesting 0 (scanned elements text) with
  | none => rfl
  | some pos =>
    rw [parseModule_eq_nesting_iff.2 hscan] at h
    cases h

/-- **Nesting is bounded.** The scan reports the start of the first opening bracket at which some
run of tokens ending there opens over 1024 brackets more than it closes, and nothing if there is
no such run anywhere. Where no part from the start closes more than it opens, that is the first
bracket of which the depth, counted from the start, is over 1024. A text is refused for its nesting
exactly at the bracket that is reported. So in a text that is accepted no run of tokens opens over
1024 brackets more than it closes, in particular none from the start, whatever is closed too
often before it. -/
theorem nesting_bounded (ts : List Token) :
    (∀ pos, nestingOverflow maxNesting 0 ts = some pos ↔
      ∃ t, t.start = pos ∧ FirstOpening (Overflows 1024) ts t) ∧
    (nestingOverflow maxNesting 0 ts = none ↔ ∀ run, run <:+: ts → excess run ≤ 1024) ∧
    ((∀ front, front <+: ts → 0 ≤ excess front) →
      ∀ pos, nestingOverflow maxNesting 0 ts = some pos ↔
        ∃ t, t.start = pos ∧ FirstOpening (fun front => 1024 < excess front) ts t) ∧
    ∀ file elements text, ts = scanned elements text →
      (∀ pos, parseModule file elements text = .error (.nesting pos) ↔
        ∃ t, t.start = pos ∧ FirstOpening (Overflows 1024) ts t) ∧
      ∀ m, parseModule file elements text = .ok m → ∀ run, run <:+: ts → excess run ≤ 1024 := by
  have hsome (pos : Nat) : nestingOverflow maxNesting 0 ts = some pos ↔
      ∃ t, t.start = pos ∧ FirstOpening (Overflows 1024) ts t := by
    rw [nestingOverflow_eq_some_iff (Nat.zero_le _)]
    refine exists_congr fun t => and_congr_right fun _ => FirstOpening.congr fun front _ => ?_
    exact (overflows_iff maxNesting front).symm
  have hnone : nestingOverflow maxNesting 0 ts = none ↔ ∀ run, run <:+: ts → excess run ≤ 1024 := by
    rw [nestingOverflow_eq_none_iff (Nat.zero_le _)]
    exact (forall_infix_excess_le_iff maxNesting ts).symm
  refine ⟨hsome, hnone, fun hopened pos => ?_, fun file elements text hts => ⟨fun pos => ?_, ?_⟩⟩
  · rw [hsome]
    refine exists_congr fun t => and_congr_right fun _ => FirstOpening.congr fun front hfront => ?_
    exact overflows_iff_of_forall_prefix fun shorter hshorter =>
      hopened shorter (hshorter.trans hfront)
  · rw [parseModule_eq_nesting_iff, ← hts]
    exact hsome pos
  · intro m hparsed
    rw [← hnone, hts]
    exact nestingOverflow_of_parseModule hparsed

end StaticConfig
