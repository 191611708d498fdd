import StaticConfig.Proofs.Number.Rounding

/-!
# Rounding keeps the order

A larger ratio does not round to a smaller magnitude, so what rounds to one magnitude is an
interval.

- `Magnitude.roundUnits_mono`: rounding is monotone, and equal ratios round alike;
- `Magnitude.roundUnits_eq_iff_within`: the ratios that round to a magnitude are those within half
  of the distances to its neighbours;
- `Magnitude.roundUnits_lt_iff`: where the step to the next power of two is taken, from which
  follows what overflows (`Magnitude.roundUnits_lt_limit_iff`);
- `Number.Rounds`: the correctly rounded number of a ratio, which `Number.ofRatio` finds
  (`Number.ofRatio_eq_iff`).
-/

namespace StaticConfig

/-! ### The nearest integer -/

theorem le_roundDiv (num den : Nat) : num / den ≤ roundDiv num den := by
  rcases roundDiv_cases num den with ⟨h, -, -⟩ | ⟨h, -, -⟩ <;> omega

theorem div_le_div_of_cross {num den num' den' : Nat} (hden : 0 < den) (hden' : 0 < den')
    (h : num * den' ≤ num' * den) : num / den ≤ num' / den' := by
  rw [Nat.le_div_iff_mul_le hden']
  have hquotient : num / den * den ≤ num := Nat.div_mul_le_self num den
  refine Nat.le_of_mul_le_mul_right (c := den) ?_ hden
  calc num / den * den' * den = num / den * den * den' := Nat.mul_right_comm ..
    _ ≤ num * den' := Nat.mul_le_mul_right _ hquotient
    _ ≤ num' * den := h

theorem roundDiv_mono {num den num' den' : Nat} (hden : 0 < den) (hden' : 0 < den')
    (h : num * den' ≤ num' * den) : roundDiv num den ≤ roundDiv num' den' := by
  rcases Nat.lt_or_eq_of_le (div_le_div_of_cross hden hden' h) with hlt | heq
  · exact Nat.le_trans (roundDiv_le num den) (Nat.le_trans hlt (le_roundDiv num' den'))
  · -- With one quotient the remainders decide, and what is at least a half stays so.
    have hrest : num % den * den' ≤ num' % den' * den := by
      have hnum := Nat.div_add_mod num den
      have hnum' := Nat.div_add_mod num' den'
      rw [← hnum, ← hnum', ← heq, Nat.add_mul, Nat.add_mul] at h
      have hcommon : den * (num / den) * den' = den' * (num / den) * den := by ring
      omega
    rcases roundDiv_cases num den with ⟨hround, -, -⟩ | ⟨hround, hup, htie⟩
    · rw [hround, heq]
      exact le_roundDiv num' den'
    · rcases roundDiv_cases num' den' with ⟨hround', hdown, htie'⟩ | ⟨hround', -, -⟩
      · -- One is rounded up and the other down: both are a half, and the parities differ.
        have hup' : den * den' ≤ 2 * (num % den * den') := by
          rw [← Nat.mul_assoc]
          exact Nat.mul_le_mul_right _ hup
        have hdown' : 2 * (num' % den' * den) ≤ den * den' := by
          rw [← Nat.mul_assoc, Nat.mul_comm den]
          exact Nat.mul_le_mul_right _ hdown
        have hhalf : 2 * (num % den) = den := by
          refine Nat.le_antisymm ?_ hup
          refine Nat.le_of_mul_le_mul_right (c := den') ?_ hden'
          rw [Nat.mul_assoc]
          omega
        have hhalf' : 2 * (num' % den') = den' := by
          refine Nat.le_antisymm hdown ?_
          refine Nat.le_of_mul_le_mul_right (c := den) ?_ hden
          rw [Nat.mul_assoc, Nat.mul_comm den']
          omega
        have hodd := htie hhalf
        have heven := htie' hhalf'
        omega
      · omega

namespace Magnitude

/-! ### The nearest magnitude -/

/-- Rounding does not fall below a power of two. -/
theorem two_pow_le_roundUnits {num den bits : Nat} (h : 2 ^ bits ≤ num / den) :
    2 ^ bits ≤ roundUnits num den := by
  have hround : steps num den * step num den ≤ roundUnits num den :=
    Nat.mul_le_mul_right _ (le_roundDiv _ _)
  obtain ⟨-, hnormal⟩ := @steps_cases num den
  rcases hnormal with hspacing | hbits
  · rw [← div_div_step, step, hspacing, Nat.pow_zero, Nat.div_one, Nat.mul_one] at hround
    exact Nat.le_trans h hround
  · rcases spacing_cases (num / den) with ⟨hspacing, -⟩ | ⟨-, hhigh⟩
    · rw [← div_div_step, step, hspacing, Nat.pow_zero, Nat.div_one, Nat.mul_one] at hround
      exact Nat.le_trans h hround
    · have hexponent : bits < 53 + spacing (num / den) :=
        (Nat.pow_lt_pow_iff_right (by decide)).1 (Nat.lt_of_le_of_lt h hhigh)
      calc 2 ^ bits ≤ 2 ^ (52 + spacing (num / den)) :=
            Nat.pow_le_pow_right (by decide) (by omega)
        _ = 2 ^ 52 * step num den := Nat.pow_add ..
        _ ≤ steps num den * step num den := Nat.mul_le_mul_right _ hbits
        _ ≤ roundUnits num den := hround

theorem spacing_mono {units units' : Nat} (h : units ≤ units') :
    spacing units ≤ spacing units' := by
  rcases spacing_cases units with ⟨hspacing, -⟩ | ⟨hlow, -⟩
  · rw [hspacing]
    exact Nat.zero_le _
  · rcases spacing_cases units' with ⟨-, hlt⟩ | ⟨-, hhigh⟩
    · have hspacing := spacing_of_lt (Nat.lt_of_le_of_lt h hlt)
      omega
    · have hexponent : 52 + spacing units < 53 + spacing units' :=
        (Nat.pow_lt_pow_iff_right (by decide)).1 (Nat.lt_of_le_of_lt (hlow.trans h) hhigh)
      omega

/-- A larger ratio rounds to no smaller magnitude. -/
theorem roundUnits_mono {num den num' den' : Nat} (hden : 0 < den) (hden' : 0 < den')
    (h : num * den' ≤ num' * den) : roundUnits num den ≤ roundUnits num' den' := by
  have hquotient := div_le_div_of_cross hden hden' h
  rcases Nat.lt_or_eq_of_le (spacing_mono hquotient) with hlt | heq
  · -- A power of two lies between the two.
    have hpos : spacing (num' / den') ≠ 0 := by omega
    have hlow : 2 ^ (52 + spacing (num' / den')) ≤ num' / den' := by
      rcases spacing_cases (num' / den') with ⟨hzero, -⟩ | ⟨hlow, -⟩
      · exact absurd hzero hpos
      · exact hlow
    have hhigh : num / den < 2 ^ (52 + spacing (num' / den')) := by
      have hexponent : 53 + spacing (num / den) ≤ 52 + spacing (num' / den') := by omega
      rcases spacing_cases (num / den) with ⟨hzero, hhigh⟩ | ⟨-, hhigh⟩
      · exact Nat.lt_of_lt_of_le hhigh (Nat.pow_le_pow_right (by decide) (by omega))
      · exact Nat.lt_of_lt_of_le hhigh (Nat.pow_le_pow_right (by decide) hexponent)
    exact (roundUnits_le_two_pow hhigh).trans (two_pow_le_roundUnits hlow)
  · have hpos : 0 < 2 ^ spacing (num' / den') := Nat.two_pow_pos _
    rw [roundUnits_eq_mul, roundUnits_eq_mul, step, step, heq]
    refine Nat.mul_le_mul_right _
      (roundDiv_mono (Nat.mul_pos hden hpos) (Nat.mul_pos hden' hpos) ?_)
    rw [← Nat.mul_assoc, ← Nat.mul_assoc]
    exact Nat.mul_le_mul_right _ h

/-! ### What rounds to a magnitude -/

/-- Rounding goes no farther than half a step, and a whole half only to an even mantissa. -/
theorem roundDiv_near (num : Nat) {den : Nat} (hden : 0 < den) :
    2 * (roundDiv num den * den) ≤ 2 * num + den ∧ 2 * num ≤ 2 * (roundDiv num den * den) + den ∧
      (2 * (roundDiv num den * den) = 2 * num + den ∨ 2 * num = 2 * (roundDiv num den * den) + den →
        roundDiv num den % 2 = 0) := by
  have hnum := Nat.div_add_mod num den
  have hrest : num % den < den := Nat.mod_lt num hden
  have hnext : (num / den + 1) * den = num / den * den + den := Nat.succ_mul ..
  rw [Nat.mul_comm] at hnum
  rcases roundDiv_cases num den with ⟨hround, hnear, htie⟩ | ⟨hround, hnear, htie⟩
  · rw [hround]
    exact ⟨by omega, by omega, fun h => htie (by omega)⟩
  · rw [hround, hnext]
    refine ⟨by omega, by omega, fun h => ?_⟩
    have hodd := htie (by omega)
    omega

/-- What rounds to a magnitude is within half of the distances to its neighbours. -/
theorem within_of_roundUnits {units num den : Nat} (hden : 0 < den)
    (h : roundUnits num den = units) : Within units num den := by
  obtain ⟨shift, hshift⟩ : ∃ shift, spacing (num / den) = shift := ⟨_, rfl⟩
  obtain ⟨k, hk⟩ : ∃ k, roundDiv num (den * 2 ^ shift) = k := ⟨_, rfl⟩
  have hpos : 0 < 2 ^ shift := Nat.two_pow_pos _
  have hunits : units = k * 2 ^ shift := by
    rw [← h, roundUnits_eq_mul, step, hshift, hk]
  obtain ⟨hbits, hnormal⟩ := @steps_cases num den
  have hsteps : steps num den ≤ k ∧ k ≤ steps num den + 1 := by
    rw [← hk, steps, step, hshift]
    exact ⟨le_roundDiv _ _, roundDiv_le _ _⟩
  obtain ⟨hlow, hhigh, htie⟩ := roundDiv_near num (Nat.mul_pos hden hpos)
  rw [hk] at hlow hhigh htie
  have hproduct : units * den = k * (den * 2 ^ shift) := by
    rw [hunits]
    ring
  rw [← hproduct] at hlow hhigh htie
  rcases Nat.lt_or_eq_of_le (hsteps.2.trans hbits) with hless | hpower
  · -- The magnitude has the spacing of the ratio.
    have hspacing : spacing units = shift := by
      refine spacing_of_between k ?_ (Nat.le_of_eq hunits.symm) ?_
      · rw [← hshift]
        exact hnormal.imp id fun hge => hge.trans hsteps.1
      · rw [hunits]
        exact Nat.mul_lt_mul_of_pos_right hless hpos
    have hmantissa : units / 2 ^ spacing units = k := by
      rw [hspacing]
      exact Nat.div_eq_of_eq_mul_left hpos hunits
    have hstep : 2 * 2 ^ spacing units * den = 2 * (den * 2 ^ shift) := by
      rw [hspacing]
      ring
    have hassoc : 4 * units * den = 4 * (units * den) := Nat.mul_assoc ..
    by_cases hleast : 0 < spacing units ∧ units = Nat.pow 2 52 * Nat.pow 2 (spacing units)
    · -- The least magnitude of its spacing: the ratio is not below it.
      have habove : units * den ≤ num := by
        rcases spacing_cases (num / den) with ⟨hzero, -⟩ | ⟨hge, -⟩
        · omega
        · refine (Nat.le_div_iff_mul_le hden).1 (Nat.le_trans (Nat.le_of_eq ?_) hge)
          rw [hleast.2, hspacing, hshift, Nat.pow_add]
          rfl
      have heven : units / 2 ^ spacing units % 2 = 0 := by
        have hdiv : units / 2 ^ spacing units = 2 ^ 52 :=
          Nat.div_eq_of_eq_mul_left (Nat.two_pow_pos _) hleast.2
        rw [hdiv]
        rfl
      exact ⟨by omega, by omega, fun hodd => absurd heven (by omega)⟩
    · have hgap : gapBelow units * den = 2 * (den * 2 ^ shift) := by
        rw [← hstep]
        exact congrArg (· * den) (if_neg hleast)
      exact ⟨by omega, by omega, fun hodd => by omega⟩
  · -- Rounded up to a power of two: below it the spacing is half as wide, and so is the gap.
    have hdouble : units = 2 ^ 52 * 2 ^ (shift + 1) := by
      rw [hunits, hpower]
      ring
    have hspacing : spacing units = shift + 1 := by
      refine spacing_of_between (2 ^ 52) (.inr (Nat.le_refl _)) (Nat.le_of_eq hdouble.symm) ?_
      rw [hdouble]
      exact Nat.mul_lt_mul_of_pos_right (by decide) (Nat.two_pow_pos _)
    have hgap : gapBelow units * den = 2 * (den * 2 ^ shift) := by
      have hleast : 0 < spacing units ∧ units = Nat.pow 2 52 * Nat.pow 2 (spacing units) := by
        rw [hspacing]
        exact ⟨Nat.succ_pos _, hdouble⟩
      have hhalf : gapBelow units = Nat.pow 2 (spacing units) := if_pos hleast
      rw [hhalf, hspacing]
      show 2 ^ (shift + 1) * den = _
      ring
    have hstep : 2 * 2 ^ spacing units * den = 4 * (den * 2 ^ shift) := by
      rw [hspacing]
      ring
    have heven : units / 2 ^ spacing units % 2 = 0 := by
      have hdiv : units / 2 ^ spacing units = 2 ^ 52 := by
        rw [hspacing]
        exact Nat.div_eq_of_eq_mul_left (Nat.two_pow_pos _) hdouble
      rw [hdiv]
      rfl
    have hassoc : 4 * units * den = 4 * (units * den) := Nat.mul_assoc ..
    exact ⟨by omega, by omega, fun hodd => absurd heven (by omega)⟩

/-- The ratios that round to a magnitude. -/
theorem roundUnits_eq_iff_within {size : Magnitude} {num den : Nat} (hden : 0 < den) :
    roundUnits num den = size.units ↔ Within size.units num den :=
  ⟨within_of_roundUnits hden, roundUnits_eq_of_within hden⟩

/-- A magnitude rounds to itself. -/
theorem roundUnits_units (size : Magnitude) : roundUnits size.units 1 = size.units := by
  refine roundUnits_eq_of_within Nat.one_pos ⟨by omega, by omega, fun _ => ?_⟩
  have hstep : 0 < 2 ^ spacing size.units := Nat.two_pow_pos _
  have hgap : 0 < gapBelow size.units := by
    have hpower : Nat.pow 2 (spacing size.units) = 2 ^ spacing size.units := rfl
    unfold gapBelow
    split <;> omega
  exact ⟨by omega, by omega⟩

/-! ### Overflow -/

/-- A ratio rounds up to the next power of two from half a step below it. -/
theorem roundUnits_lt_iff {num den shift : Nat} (hden : 0 < den) :
    roundUnits num den < 2 ^ (53 + shift) ↔
      2 * num + den * 2 ^ shift < 2 * (2 ^ 53 * (den * 2 ^ shift)) := by
  have hpos : 0 < 2 ^ shift := Nat.two_pow_pos _
  have hwidth : 0 < den * 2 ^ shift := Nat.mul_pos hden hpos
  have hproduct (k : Nat) : k * 2 ^ shift * den = k * (den * 2 ^ shift) := by ring
  rcases Nat.lt_or_ge (num / den) (2 ^ (52 + shift)) with hlow | hhigh
  · -- Below the power of two before it, the ratio is far away.
    refine iff_of_true ?_ ?_
    · exact Nat.lt_of_le_of_lt (roundUnits_le_two_pow hlow)
        (Nat.pow_lt_pow_right (by decide) (by omega))
    · rw [Nat.div_lt_iff_lt_mul hden, Nat.pow_add, hproduct] at hlow
      omega
  rcases Nat.lt_or_ge (num / den) (2 ^ (53 + shift)) with hbelow | habove
  · have hspacing : spacing (num / den) = shift := spacing_of_le hhigh hbelow
    rw [roundUnits_eq_mul, step, hspacing, Nat.pow_add, Nat.mul_lt_mul_right hpos]
    obtain ⟨hdown, hup, htie⟩ := roundDiv_near num hwidth
    generalize roundDiv num (den * 2 ^ shift) = k at hdown hup htie ⊢
    constructor
    · intro hlt
      have hless : k * (den * 2 ^ shift) + den * 2 ^ shift ≤ 2 ^ 53 * (den * 2 ^ shift) := by
        rw [← Nat.succ_mul]
        exact Nat.mul_le_mul_right _ hlt
      by_contra hge
      -- The half below the power of two is a tie, and what is below it odd.
      have hlast : (k + 1) * (den * 2 ^ shift) = 2 ^ 53 * (den * 2 ^ shift) := by
        rw [Nat.succ_mul]
        omega
      have hk : k + 1 = 2 ^ 53 := Nat.eq_of_mul_eq_mul_right hwidth hlast
      have heven := htie (by omega)
      omega
    · intro hlt
      by_contra hge
      have hmore : 2 ^ 53 * (den * 2 ^ shift) ≤ k * (den * 2 ^ shift) :=
        Nat.mul_le_mul_right _ (Nat.le_of_not_lt hge)
      omega
  · refine iff_of_false ?_ ?_
    · exact Nat.not_lt.2 (two_pow_le_roundUnits habove)
    · rw [ge_iff_le, Nat.le_div_iff_mul_le hden, Nat.pow_add, hproduct] at habove
      omega

/-- Half way from the largest magnitude to the limit. -/
def overflowBound : Nat := unitsLimit - Nat.pow 2 (limitExponent - 54)

/-- What rounds to a magnitude below the limit lies below the bound. -/
theorem roundUnits_lt_limit_iff {num den : Nat} (hden : 0 < den) :
    roundUnits num den < unitsLimit ↔ num < overflowBound * den := by
  obtain ⟨shift, hshift⟩ : ∃ shift, limitExponent = 53 + (shift + 1) := ⟨2044, rfl⟩
  unfold overflowBound unitsLimit
  rw [hshift]
  show _ < 2 ^ (53 + (shift + 1)) ↔
    num < (2 ^ (53 + (shift + 1)) - 2 ^ (53 + (shift + 1) - 54)) * den
  rw [roundUnits_lt_iff hden, Nat.sub_mul, show 53 + (shift + 1) - 54 = shift by omega]
  have hstep : den * 2 ^ (shift + 1) = 2 * (2 ^ shift * den) := by ring
  have hlimit : 2 ^ (53 + (shift + 1)) * den = 2 ^ 54 * (2 ^ shift * den) := by ring
  rw [hstep, hlimit]
  omega

end Magnitude

/-! ### Correct rounding -/

namespace Number

/-- The number that `± num / den` units round to: the nearest one, ties to even, up to half way from
the largest magnitude to the limit, and an infinity from there on. -/
inductive Rounds (negative : Bool) (num den : Nat) : Number → Prop
  | finite {size : Magnitude} : num < Magnitude.overflowBound * den → size.IsNearest num den →
      Rounds negative num den (.finite negative size)
  | infinite : Magnitude.overflowBound * den ≤ num → Rounds negative num den (.infinite negative)

theorem ofRatio_rounds (negative : Bool) (num : Nat) {den : Nat} (hden : 0 < den) :
    Rounds negative num den (ofRatio negative num den) := by
  unfold ofRatio
  split
  · rename_i hfinite
    exact .finite ((Magnitude.roundUnits_lt_limit_iff hden).1 hfinite)
      (Magnitude.isNearest_of_units hden rfl)
  · rename_i hinfinite
    exact .infinite (Nat.le_of_not_lt (mt (Magnitude.roundUnits_lt_limit_iff hden).2 hinfinite))

/-- A ratio rounds to one number. -/
theorem Rounds.unique {negative : Bool} {num den : Nat} {a b : Number} (hden : 0 < den)
    (ha : Rounds negative num den a) (hb : Rounds negative num den b) : a = b := by
  cases ha with
  | finite hbelow hnear =>
    cases hb with
    | finite _ hnear' => rw [hnear.unique hden hnear']
    | infinite habove => omega
  | infinite habove =>
    cases hb with
    | finite hbelow _ => omega
    | infinite => rfl

theorem ofRatio_eq_iff {negative : Bool} {num den : Nat} {n : Number} (hden : 0 < den) :
    ofRatio negative num den = n ↔ Rounds negative num den n := by
  constructor
  · rintro rfl
    exact ofRatio_rounds negative num hden
  · exact (ofRatio_rounds negative num hden).unique hden

theorem ofRatio_congr {negative : Bool} {num den num' den' : Nat}
    (h : Magnitude.roundUnits num den = Magnitude.roundUnits num' den') :
    ofRatio negative num den = ofRatio negative num' den' := by
  unfold ofRatio
  simp only [h]

theorem ofRatio_eq_finite_iff {negative : Bool} {num den : Nat} {size : Magnitude} :
    ofRatio negative num den = .finite negative size ↔
      Magnitude.roundUnits num den = size.units := by
  constructor
  · intro h
    unfold ofRatio at h
    split at h
    · cases h
      rfl
    · cases h
  · exact ofRatio_of_units

theorem ofRatio_of_limit_le {negative : Bool} {num den : Nat}
    (h : unitsLimit ≤ Magnitude.roundUnits num den) :
    ofRatio negative num den = .infinite negative := by
  unfold ofRatio
  rw [dif_neg (Nat.not_lt.2 h)]

end Number

end StaticConfig
