import Mathlib.Data.Nat.Dist
import Mathlib.Tactic.Ring
import StaticConfig.Number.Basic

/-!
# Rounding to the nearest number

What `Magnitude.roundUnits` does to a ratio of natural numbers. The magnitudes between two powers
of two are the multiples of one spacing, so the ratio lies between two neighbours and rounding takes
the nearer one.

- `Magnitude.exists_mantissa`: a magnitude is a mantissa of at most 53 bits times its spacing;
- `Magnitude.isNearest_of_units`: no magnitude is nearer to the ratio than the one that it rounds
  to, and of two that are equally near it is the even one;
- `Magnitude.roundUnits_eq_of_within`: a ratio within half of the distances from a magnitude to its
  neighbours rounds to it.
-/

namespace StaticConfig

/-! ### The nearest integer -/

/-- A ratio within one half of `k`, and off the ends if `k` is odd, rounds to `k`. -/
theorem roundDiv_eq {num den k : Nat} (hden : 0 < den) (hlow : 2 * (k * den) ≤ 2 * num + den)
    (hhigh : 2 * num ≤ 2 * (k * den) + den)
    (htie : 2 * (k * den) = 2 * num + den ∨ 2 * num = 2 * (k * den) + den → k % 2 = 0) :
    roundDiv num den = k := by
  have hdiv : num = den * (num / den) + num % den := (Nat.div_add_mod num den).symm
  rcases Nat.lt_or_ge num (k * den) with hbelow | habove
  · obtain ⟨j, rfl⟩ : ∃ j, k = j + 1 := Nat.exists_eq_succ_of_ne_zero fun h => by simp [h] at hbelow
    have hproduct : (j + 1) * den = j * den + den := Nat.succ_mul j den
    have hquotient : num / den = j := Nat.div_eq_of_lt_le (by omega) hbelow
    rw [hquotient, Nat.mul_comm] at hdiv
    unfold roundDiv
    rw [hquotient]
    split
    · omega
    · split <;> omega
  · have hquotient : num / den = k := Nat.div_eq_of_lt_le habove (by rw [Nat.succ_mul]; omega)
    rw [hquotient, Nat.mul_comm] at hdiv
    unfold roundDiv
    rw [hquotient]
    split
    · rfl
    · split <;> omega

/-- Rounding takes one of the two neighbours, the one that is nearer. -/
theorem roundDiv_cases (num den : Nat) :
    (roundDiv num den = num / den ∧ 2 * (num % den) ≤ den ∧
        (2 * (num % den) = den → num / den % 2 = 0)) ∨
      (roundDiv num den = num / den + 1 ∧ den ≤ 2 * (num % den) ∧
        (2 * (num % den) = den → num / den % 2 = 1)) := by
  unfold roundDiv
  split
  · exact .inl ⟨rfl, by omega, by omega⟩
  · split
    · exact .inr ⟨rfl, by omega, by omega⟩
    · rcases Nat.mod_two_eq_zero_or_one (num / den) with heven | hodd
      · exact .inl ⟨by omega, by omega, fun _ => heven⟩
      · exact .inr ⟨by omega, by omega, fun _ => hodd⟩

namespace Magnitude

/-! ### Spacing -/

theorem spacing_of_lt {units : Nat} (h : units < 2 ^ 53) : spacing units = 0 := by
  unfold spacing
  rcases Nat.eq_zero_or_pos units with rfl | hpos
  · rfl
  · have hlog : units.log2 < 53 := (Nat.log2_lt hpos.ne').2 h
    omega

theorem spacing_of_le {units shift : Nat} (hlow : 2 ^ (52 + shift) ≤ units)
    (hhigh : units < 2 ^ (53 + shift)) : spacing units = shift := by
  have hpos : units ≠ 0 := (Nat.lt_of_lt_of_le (Nat.two_pow_pos _) hlow).ne'
  have hlog : units.log2 = 52 + shift :=
    (Nat.log2_eq_iff hpos).2 ⟨hlow, by rwa [show 52 + shift + 1 = 53 + shift by omega]⟩
  rw [spacing, hlog, Nat.add_sub_cancel_left]

/-- Below `2 ^ 53` units the spacing is one unit; from there on it is that of 53 bits. -/
theorem spacing_cases (units : Nat) :
    (spacing units = 0 ∧ units < 2 ^ 53) ∨
      2 ^ (52 + spacing units) ≤ units ∧ units < 2 ^ (53 + spacing units) := by
  rcases Nat.lt_or_ge units (2 ^ 53) with hlt | hge
  · exact .inl ⟨spacing_of_lt hlt, hlt⟩
  · have hpos : units ≠ 0 := (Nat.lt_of_lt_of_le (Nat.two_pow_pos _) hge).ne'
    have hlog : 53 ≤ units.log2 := (Nat.le_log2 hpos).2 hge
    have hshift : 52 + spacing units = units.log2 := by
      unfold spacing
      omega
    refine .inr ⟨hshift ▸ Nat.log2_self_le hpos, ?_⟩
    rw [show 53 + spacing units = units.log2 + 1 by omega]
    exact Nat.lt_log2_self

/-- A count with a mantissa of 53 bits has the spacing that goes with it. -/
theorem spacing_of_between {units shift : Nat} (mantissa : Nat)
    (hnormal : shift = 0 ∨ 2 ^ 52 ≤ mantissa)
    (hlow : mantissa * 2 ^ shift ≤ units) (hhigh : units < 2 ^ 53 * 2 ^ shift) :
    spacing units = shift := by
  rcases hnormal with rfl | hge
  · exact spacing_of_lt (by rwa [Nat.pow_zero, Nat.mul_one] at hhigh)
  · refine spacing_of_le ?_ ?_ <;> rw [Nat.pow_add]
    · exact Nat.le_trans (Nat.mul_le_mul_right _ hge) hlow
    · exact hhigh

/-- A magnitude is a multiple of its spacing. -/
theorem spacing_dvd (size : Magnitude) : 2 ^ spacing size.units ∣ size.units := by
  obtain ⟨mantissa, shift, hmantissa, hunits⟩ := size.representable.2
  generalize size.units = units at hunits ⊢
  have hunits : units = mantissa * 2 ^ shift := hunits
  rcases spacing_cases units with ⟨hspacing, -⟩ | ⟨hlow, -⟩
  · rw [hspacing]
    exact Nat.one_dvd units
  rcases Nat.lt_or_ge shift (spacing units) with hlt | hge
  · -- So few bits reach that far only as a power of two.
    have hle : units ≤ 2 ^ (52 + spacing units) :=
      calc units = mantissa * 2 ^ shift := hunits
        _ ≤ 2 ^ 53 * 2 ^ shift := Nat.mul_le_mul_right _ hmantissa
        _ = 2 ^ (53 + shift) := (Nat.pow_add ..).symm
        _ ≤ 2 ^ (52 + spacing units) := Nat.pow_le_pow_right (by decide) (by omega)
    have hpower : 2 ^ (52 + spacing units) = units := Nat.le_antisymm hlow hle
    exact (Nat.pow_dvd_pow 2 (Nat.le_add_left _ 52)).trans (dvd_of_eq hpower)
  · have hdvd := Nat.dvd_mul_left_of_dvd (Nat.pow_dvd_pow 2 hge) mantissa
    rwa [← hunits] at hdvd

/-- The mantissa at that spacing has at most 53 bits, and 53 unless the spacing is one unit. -/
theorem exists_mantissa (size : Magnitude) :
    ∃ mantissa, mantissa < 2 ^ 53 ∧ size.units = mantissa * 2 ^ spacing size.units ∧
      (spacing size.units = 0 ∨ 2 ^ 52 ≤ mantissa) := by
  obtain ⟨mantissa, hunits⟩ := size.spacing_dvd
  generalize size.units = units at hunits ⊢
  rw [Nat.mul_comm] at hunits
  have hpos : 0 < 2 ^ spacing units := Nat.two_pow_pos _
  rcases spacing_cases units with ⟨hspacing, hlt⟩ | ⟨hlow, hhigh⟩
  · refine ⟨mantissa, ?_, hunits, .inl hspacing⟩
    rw [hspacing, Nat.pow_zero, Nat.mul_one] at hunits
    rwa [← hunits]
  · rw [Nat.pow_add] at hlow hhigh
    refine ⟨mantissa, Nat.lt_of_mul_lt_mul_right (a := 2 ^ spacing units) ?_, hunits,
      .inr (Nat.le_of_mul_le_mul_right (c := 2 ^ spacing units) ?_ hpos)⟩
    · rwa [← hunits]
    · rwa [← hunits]

/-! ### The two neighbours of a ratio -/

section Neighbours

variable (num den : Nat)

/-- The spacing of the magnitudes around the ratio. -/
abbrev step : Nat := 2 ^ spacing (num / den)

/-- How many steps the ratio is above zero. -/
abbrev steps : Nat := num / (den * step num den)

variable {num den}

theorem roundUnits_eq_mul : roundUnits num den = roundDiv num (den * step num den) * step num den :=
  rfl

theorem div_div_step : num / den / step num den = steps num den := Nat.div_div_eq_div_mul ..

/-- The neighbours have at most 53 bits, and exactly 53 below unless they are one unit apart. -/
theorem steps_cases :
    steps num den < 2 ^ 53 ∧ (spacing (num / den) = 0 ∨ 2 ^ 52 ≤ steps num den) := by
  rw [← div_div_step]
  have hpos : 0 < step num den := Nat.two_pow_pos _
  rcases spacing_cases (num / den) with ⟨hspacing, hlt⟩ | ⟨hlow, hhigh⟩
  · refine ⟨?_, .inl hspacing⟩
    rwa [step, hspacing, Nat.pow_zero, Nat.div_one]
  · rw [Nat.pow_add] at hlow hhigh
    exact ⟨(Nat.div_lt_iff_lt_mul hpos).2 hhigh, .inr ((Nat.le_div_iff_mul_le hpos).2 hlow)⟩

variable (num den) in
/-- No magnitude stands between the neighbours. -/
theorem le_or_le (size : Magnitude) : size.units ≤ steps num den * step num den ∨
    (steps num den + 1) * step num den ≤ size.units := by
  by_contra hbetween
  rw [not_or, Nat.not_le, Nat.not_le] at hbetween
  obtain ⟨hlow, hhigh⟩ := hbetween
  -- Between the neighbours the spacing is theirs, so a magnitude there is a multiple of the step.
  have hspacing : spacing size.units = spacing (num / den) := by
    obtain ⟨hlt, hnormal⟩ := @steps_cases num den
    exact spacing_of_between _ hnormal (Nat.le_of_lt hlow)
      (Nat.lt_of_lt_of_le hhigh (Nat.mul_le_mul_right _ hlt))
  obtain ⟨multiple, hunits⟩ := size.spacing_dvd
  rw [hspacing, Nat.mul_comm] at hunits
  rw [hunits] at hlow hhigh
  have hlow' := Nat.lt_of_mul_lt_mul_right hlow
  have hhigh' := Nat.lt_of_mul_lt_mul_right hhigh
  omega

end Neighbours

/-! ### Nearest magnitudes -/

/-- The magnitude has an even mantissa of at most 53 bits. If its mantissa at its own spacing is odd
then it has none, since there is no room to double that one. -/
def EvenMantissa (size : Magnitude) : Prop :=
  ∃ mantissa shift, mantissa ≤ 2 ^ 53 ∧ mantissa % 2 = 0 ∧ size.units = mantissa * 2 ^ shift

/-- No finite magnitude is nearer to `num / den` units, and if another one is as near then this one
has an even mantissa. -/
structure IsNearest (size : Magnitude) (num den : Nat) : Prop where
  nearest : ∀ other : Magnitude,
    Nat.dist (size.units * den) num ≤ Nat.dist (other.units * den) num
  even_of_tie : ∀ other : Magnitude, other ≠ size →
    Nat.dist (size.units * den) num = Nat.dist (other.units * den) num → size.EvenMantissa

theorem isNearest_of_units {size : Magnitude} {num den : Nat} (hden : 0 < den)
    (hsize : size.units = roundUnits num den) : size.IsNearest num den := by
  let width := den * step num den
  have hwidth : 0 < width := Nat.mul_pos hden (Nat.two_pow_pos _)
  have hnum : num = steps num den * width + num % width := by
    rw [Nat.mul_comm]
    exact (Nat.div_add_mod num width).symm
  have hrest : num % width < width := Nat.mod_lt num hwidth
  have hunits : size.units * den = roundDiv num width * width := by
    rw [hsize, roundUnits_eq_mul]
    ring
  have hside (other : Magnitude) : other.units * den ≤ steps num den * width ∨
      steps num den * width + width ≤ other.units * den := by
    rcases le_or_le num den other with h | h
    · refine .inl (Nat.le_trans (Nat.mul_le_mul_right den h) (Nat.le_of_eq ?_))
      ring
    · refine .inr (Nat.le_trans (Nat.le_of_eq ?_) (Nat.mul_le_mul_right den h))
      ring
  have hne {other : Magnitude} (hother : other ≠ size) :
      other.units * den ≠ roundDiv num width * width := by
    intro heq
    have hsame := Nat.eq_of_mul_eq_mul_right hden (heq.trans hunits.symm)
    cases other
    cases size
    cases hsame
    exact hother rfl
  have hupper : (steps num den + 1) * width = steps num den * width + width := Nat.succ_mul ..
  -- Rounding down or up: every other magnitude lies beyond one of the two neighbours.
  rcases roundDiv_cases num width with ⟨hround, hnear, htie⟩ | ⟨hround, hnear, htie⟩
  · have hround : roundDiv num width = steps num den := hround
    rw [hround] at hunits hne
    constructor
    · intro other
      rw [hunits]
      unfold Nat.dist
      rcases hside other with h | h <;> omega
    · intro other hother hdist
      have hne := hne hother
      rw [hunits] at hdist
      unfold Nat.dist at hdist
      have heven := htie (by rcases hside other with h | h <;> omega)
      refine ⟨steps num den, spacing (num / den), Nat.le_of_lt steps_cases.1, heven, ?_⟩
      rw [hsize, roundUnits_eq_mul, hround]
  · have hround : roundDiv num width = steps num den + 1 := hround
    rw [hround, hupper] at hunits hne
    constructor
    · intro other
      rw [hunits]
      unfold Nat.dist
      rcases hside other with h | h <;> omega
    · intro other hother hdist
      have hne := hne hother
      rw [hunits] at hdist
      unfold Nat.dist at hdist
      have hodd := htie (by rcases hside other with h | h <;> omega)
      refine ⟨steps num den + 1, spacing (num / den), steps_cases.1, ?_, ?_⟩
      · rw [Nat.add_mod, show steps num den % 2 = 1 from hodd]
      · rw [hsize, roundUnits_eq_mul, hround]

/-- Two even mantissas of one scale have another number between them. -/
theorem exists_between_of_scale {low high : Magnitude} {mantissa other shift : Nat}
    (hlow : low.units = mantissa * 2 ^ shift) (hhigh : high.units = other * 2 ^ shift)
    (hlt : low.units < high.units) (heven : mantissa % 2 = 0) (hother : other % 2 = 0)
    (hbits : mantissa < 2 ^ 53 ∨ other ≤ 2 ^ 53) :
    ∃ between : Magnitude, low.units < between.units ∧ between.units < high.units := by
  have hpos : 0 < 2 ^ shift := Nat.two_pow_pos _
  have hless : mantissa < other := by
    rw [hlow, hhigh] at hlt
    exact Nat.lt_of_mul_lt_mul_right hlt
  obtain ⟨middle, habove, hbelow, hmiddle⟩ :
      ∃ middle, mantissa < middle ∧ middle < other ∧ middle ≤ 2 ^ 53 := by
    rcases hbits with h | h
    · exact ⟨mantissa + 1, by omega, by omega, h⟩
    · exact ⟨other - 1, by omega, by omega, by omega⟩
  have habove' : low.units < middle * 2 ^ shift := hlow ▸ Nat.mul_lt_mul_of_pos_right habove hpos
  have hbelow' : middle * 2 ^ shift < high.units := hhigh ▸ Nat.mul_lt_mul_of_pos_right hbelow hpos
  exact ⟨⟨middle * 2 ^ shift, Nat.lt_trans hbelow' high.representable.1, middle, shift, hmiddle,
    rfl⟩, habove', hbelow'⟩

/-- Two numbers with even mantissas are no neighbours. -/
theorem exists_between {low high : Magnitude} (hlt : low.units < high.units)
    (hlow : low.EvenMantissa) (hhigh : high.EvenMantissa) :
    ∃ between : Magnitude, low.units < between.units ∧ between.units < high.units := by
  obtain ⟨m, s, hm, hmeven, hlow⟩ := hlow
  obtain ⟨n, t, hn, hneven, hhigh⟩ := hhigh
  have heven (factor : Nat) {k : Nat} (hk : k % 2 = 0) : k * factor % 2 = 0 := by
    rw [Nat.mul_mod, hk, Nat.zero_mul]
  rcases Nat.le_total t s with hts | hst
  · obtain ⟨k, rfl⟩ := Nat.exists_eq_add_of_le' hts
    rw [Nat.pow_add, ← Nat.mul_assoc] at hlow
    exact exists_between_of_scale hlow hhigh hlt (heven _ hmeven) hneven (.inr hn)
  · obtain ⟨k, rfl⟩ := Nat.exists_eq_add_of_le' hst
    rw [Nat.pow_add, ← Nat.mul_assoc] at hhigh
    rcases Nat.lt_or_eq_of_le hm with hless | rfl
    · exact exists_between_of_scale hlow hhigh hlt hmeven (heven _ hneven) (.inl hless)
    -- A power of two has a mantissa to spare: half of it, at twice the scale.
    cases k with
    | zero =>
      rw [Nat.pow_zero, Nat.mul_one] at hhigh
      exact exists_between_of_scale hlow hhigh hlt hmeven hneven (.inr hn)
    | succ k =>
      have hhalf : low.units = 2 ^ 52 * 2 ^ (s + 1) := by
        rw [hlow]
        ring
      have hdouble : high.units = n * 2 ^ k * 2 ^ (s + 1) := by
        rw [hhigh]
        ring
      exact exists_between_of_scale hhalf hdouble hlt rfl (heven _ hneven) (.inl (by decide))

/-- At most one number is the nearest. -/
theorem IsNearest.unique {a b : Magnitude} {num den : Nat} (hden : 0 < den)
    (ha : a.IsNearest num den) (hb : b.IsNearest num den) : a = b := by
  by_contra hne
  have hdist := Nat.le_antisymm (ha.nearest b) (hb.nearest a)
  have hevena := ha.even_of_tie b (Ne.symm hne) hdist
  have hevenb := hb.even_of_tie a hne hdist.symm
  have hnear {low high between : Magnitude} (hlow : low.IsNearest num den)
      (htie : Nat.dist (low.units * den) num = Nat.dist (high.units * den) num)
      (habove : low.units < between.units) (hbelow : between.units < high.units) : False := by
    have habove := Nat.mul_lt_mul_of_pos_right habove hden
    have hbelow := Nat.mul_lt_mul_of_pos_right hbelow hden
    have hbetween := hlow.nearest between
    unfold Nat.dist at htie hbetween
    omega
  rcases Nat.lt_trichotomy a.units b.units with hlt | heq | hlt
  · obtain ⟨_, habove, hbelow⟩ := exists_between hlt hevena hevenb
    exact hnear ha hdist habove hbelow
  · cases a
    cases b
    cases heq
    exact hne rfl
  · obtain ⟨_, habove, hbelow⟩ := exists_between hlt hevenb hevena
    exact hnear hb hdist.symm habove hbelow

/-- Rounding does not pass a power of two. -/
theorem roundUnits_le_two_pow {num den bits : Nat} (h : num / den < 2 ^ bits) :
    roundUnits num den ≤ 2 ^ bits := by
  have hround : roundUnits num den ≤ (steps num den + 1) * step num den :=
    Nat.mul_le_mul_right _ (roundDiv_le _ _)
  obtain ⟨hlt, -⟩ := @steps_cases num den
  rcases spacing_cases (num / den) with ⟨hspacing, -⟩ | ⟨hlow, -⟩
  · rw [← div_div_step, step, hspacing, Nat.pow_zero, Nat.div_one, Nat.mul_one] at hround
    omega
  · have hbits : 52 + spacing (num / den) < bits :=
      (Nat.pow_lt_pow_iff_right (by decide)).1 (Nat.lt_of_le_of_lt hlow h)
    calc roundUnits num den ≤ (steps num den + 1) * step num den := hround
      _ ≤ 2 ^ 53 * step num den := Nat.mul_le_mul_right _ hlt
      _ = 2 ^ (53 + spacing (num / den)) := (Nat.pow_add ..).symm
      _ ≤ 2 ^ bits := Nat.pow_le_pow_right (by decide) (by omega)

/-! ### The ratios that round to a magnitude -/

/-- The distance to the magnitude below, twice: half as much below a power of two. -/
def gapBelow (units : Nat) : Nat :=
  if 0 < spacing units ∧ units = Nat.pow 2 52 * Nat.pow 2 (spacing units) then
    Nat.pow 2 (spacing units)
  else 2 * Nat.pow 2 (spacing units)

/-- The ratio lies within half of the distances to the neighbours of the magnitude, the ends
included if its mantissa is even. All is taken four times, to stay with whole units. -/
structure Within (units num den : Nat) : Prop where
  low : 4 * units * den ≤ 4 * num + gapBelow units * den
  high : 4 * num ≤ 4 * units * den + 2 * 2 ^ spacing units * den
  inside : units / 2 ^ spacing units % 2 = 1 →
    4 * units * den < 4 * num + gapBelow units * den ∧
      4 * num < 4 * units * den + 2 * 2 ^ spacing units * den

theorem gapBelow_le (units : Nat) : gapBelow units ≤ 2 * 2 ^ spacing units := by
  have hpower : Nat.pow 2 (spacing units) = 2 ^ spacing units := rfl
  unfold gapBelow
  split <;> omega

/-- Where the ratio has the spacing of the magnitude, the mantissa is what rounding finds. -/
theorem roundUnits_eq_of_spacing {units num den mantissa : Nat} (hden : 0 < den)
    (hunits : units = mantissa * 2 ^ spacing units)
    (hspacing : spacing (num / den) = spacing units) (h : Within units num den) :
    roundUnits num den = units := by
  have hpos : 0 < 2 ^ spacing units := Nat.two_pow_pos _
  have hquotient : units / 2 ^ spacing units = mantissa :=
    Nat.div_eq_of_eq_mul_left hpos hunits
  obtain ⟨hlow, hhigh, hinside⟩ := h
  rw [hquotient] at hinside
  -- All terms are multiples of the width of a step.
  have hwidth : 0 < den * 2 ^ spacing units := Nat.mul_pos hden hpos
  have hproduct : 4 * units * den = 4 * (mantissa * (den * 2 ^ spacing units)) :=
    calc 4 * units * den = 4 * (mantissa * 2 ^ spacing units) * den := by rw [← hunits]
      _ = 4 * (mantissa * (den * 2 ^ spacing units)) := by ring
  have habove : 2 * 2 ^ spacing units * den = 2 * (den * 2 ^ spacing units) := by ring
  have hbelow : gapBelow units * den ≤ 2 * (den * 2 ^ spacing units) :=
    habove ▸ Nat.mul_le_mul_right den (gapBelow_le units)
  rw [hproduct] at hlow hhigh hinside
  rw [habove] at hhigh hinside
  have hround : roundDiv num (den * 2 ^ spacing units) = mantissa :=
    roundDiv_eq hwidth (by omega) (by omega) (by omega)
  rw [roundUnits_eq_mul, step, hspacing, hround, ← hunits]

/-- Below a power of two the spacing is half as wide, and so is the gap. -/
theorem roundUnits_eq_two_pow {num den shift : Nat} (hden : 0 < den)
    (hbelow : num < 2 ^ 53 * (2 ^ shift * den))
    (hlow : 2 * (2 ^ 53 * (2 ^ shift * den)) ≤ 2 * num + 2 ^ shift * den) :
    roundUnits num den = 2 ^ 53 * 2 ^ shift := by
  have hwidth : 0 < 2 ^ shift * den := Nat.mul_pos (Nat.two_pow_pos _) hden
  have hspacing : spacing (num / den) = shift := by
    refine spacing_of_between (2 ^ 52) (.inr (Nat.le_refl _)) ?_ ?_
    · refine (Nat.le_div_iff_mul_le hden).2 ?_
      rw [Nat.mul_assoc]
      omega
    · refine (Nat.div_lt_iff_lt_mul hden).2 ?_
      rwa [Nat.mul_assoc]
  rw [roundUnits_eq_mul, step, hspacing, Nat.mul_comm den]
  rw [roundDiv_eq hwidth hlow (by omega) fun _ => rfl]

section Around

variable {units num den mantissa : Nat} (hden : 0 < den) (hbits : mantissa < 2 ^ 53)
  (hunits : units = mantissa * 2 ^ spacing units) (hnormal : spacing units = 0 ∨ 2 ^ 52 ≤ mantissa)
include hden hbits hunits hnormal

/-- Just above a magnitude the spacing is the same. -/
theorem spacing_of_above (habove : units * den ≤ num)
    (hhigh : 4 * num ≤ 4 * units * den + 2 * 2 ^ spacing units * den) :
    spacing (num / den) = spacing units := by
  have hwidth : 0 < 2 ^ spacing units * den := Nat.mul_pos (Nat.two_pow_pos _) hden
  have hproduct : units * den = mantissa * (2 ^ spacing units * den) := by
    rw [← Nat.mul_assoc, ← hunits]
  have htop : mantissa * (2 ^ spacing units * den) + 2 ^ spacing units * den ≤
      2 ^ 53 * (2 ^ spacing units * den) := by
    rw [← Nat.succ_mul]
    exact Nat.mul_le_mul_right _ hbits
  rw [Nat.mul_assoc, hproduct, Nat.mul_assoc] at hhigh
  refine spacing_of_between mantissa hnormal ?_ ?_
  · rw [← hunits]
    exact (Nat.le_div_iff_mul_le hden).2 habove
  · refine (Nat.div_lt_iff_lt_mul hden).2 ?_
    rw [Nat.mul_assoc]
    omega

/-- Just below a magnitude that is no power of two it is, too. -/
theorem spacing_of_below
    (hpower : ¬ (0 < spacing units ∧ units = Nat.pow 2 52 * Nat.pow 2 (spacing units)))
    (hbelow : num < units * den) (hlow : 4 * units * den ≤ 4 * num + gapBelow units * den) :
    spacing (num / den) = spacing units := by
  have hwidth : 0 < 2 ^ spacing units * den := Nat.mul_pos (Nat.two_pow_pos _) hden
  have hgap : gapBelow units = 2 * 2 ^ spacing units := if_neg hpower
  have hpos : mantissa ≠ 0 := by
    intro hzero
    rw [hunits.trans (by rw [hzero, Nat.zero_mul]), Nat.zero_mul] at hbelow
    exact Nat.not_lt_zero _ hbelow
  -- The step below has the same spacing: the magnitude is not the least one with it.
  obtain ⟨less, rfl⟩ : ∃ less, mantissa = less + 1 := Nat.exists_eq_succ_of_ne_zero hpos
  have hproduct : units * den = less * (2 ^ spacing units * den) + 2 ^ spacing units * den := by
    rw [← Nat.succ_mul, ← Nat.mul_assoc, ← hunits]
  have htop : less * (2 ^ spacing units * den) + 2 ^ spacing units * den ≤
      2 ^ 53 * (2 ^ spacing units * den) := by
    rw [← Nat.succ_mul]
    exact Nat.mul_le_mul_right _ (Nat.le_of_lt hbits)
  rw [hgap, Nat.mul_assoc, hproduct, Nat.mul_assoc 2] at hlow
  refine spacing_of_between less ?_ ?_ ?_
  · rcases hnormal with hzero | hge
    · exact .inl hzero
    rcases Nat.eq_zero_or_pos (spacing units) with hzero | hspacing
    · exact .inl hzero
    · refine .inr (Nat.le_of_lt_succ (Nat.lt_of_le_of_ne hge fun heq => hpower ⟨hspacing, ?_⟩))
      rwa [← show 2 ^ 52 = less + 1 from heq] at hunits
  · refine (Nat.le_div_iff_mul_le hden).2 ?_
    rw [Nat.mul_assoc]
    omega
  · refine (Nat.div_lt_iff_lt_mul hden).2 ?_
    rw [Nat.mul_assoc]
    omega

end Around

/-- Just below a power of two the ratio rounds up to it. -/
theorem roundUnits_of_below_power {units num den : Nat} (hden : 0 < den)
    (hpower : 0 < spacing units ∧ units = Nat.pow 2 52 * Nat.pow 2 (spacing units))
    (hbelow : num < units * den) (hlow : 4 * units * den ≤ 4 * num + gapBelow units * den) :
    roundUnits num den = units := by
  have hgap : gapBelow units = 2 ^ spacing units := if_pos hpower
  obtain ⟨shift, hshift⟩ : ∃ shift, spacing units = shift + 1 :=
    Nat.exists_eq_succ_of_ne_zero hpower.1.ne'
  have hdouble : units = 2 ^ 53 * 2 ^ shift := by
    refine hpower.2.trans ?_
    show 2 ^ 52 * 2 ^ spacing units = _
    rw [hshift, ← Nat.pow_add, ← Nat.pow_add]
    congr 1
    omega
  have hunitsden : units * den = 2 ^ 53 * (2 ^ shift * den) := by rw [hdouble, Nat.mul_assoc]
  have hstep : 2 ^ spacing units * den = 2 * (2 ^ shift * den) := by
    rw [hshift]
    ring
  rw [hgap, Nat.mul_assoc, hunitsden, hstep] at hlow
  rw [hunitsden] at hbelow
  rw [roundUnits_eq_two_pow hden hbelow (by omega), hdouble]

/-- A ratio that lies within half of the distances to the neighbours of a magnitude rounds to it. -/
theorem roundUnits_eq_of_within {size : Magnitude} {num den : Nat} (hden : 0 < den)
    (h : Within size.units num den) : roundUnits num den = size.units := by
  obtain ⟨mantissa, hbits, hunits, hnormal⟩ := size.exists_mantissa
  rcases Nat.lt_or_ge num (size.units * den) with hbelow | habove
  · by_cases hpower : 0 < spacing size.units ∧
        size.units = Nat.pow 2 52 * Nat.pow 2 (spacing size.units)
    · exact roundUnits_of_below_power hden hpower hbelow h.low
    · exact roundUnits_eq_of_spacing hden hunits
        (spacing_of_below hden hbits hunits hnormal hpower hbelow h.low) h
  · exact roundUnits_eq_of_spacing hden hunits
      (spacing_of_above hden hbits hunits hnormal habove h.high) h

end Magnitude

/-- The number nearest to a ratio, from the magnitude that the ratio rounds to. -/
theorem Number.ofRatio_of_units {negative : Bool} {num den : Nat} {size : Magnitude}
    (h : Magnitude.roundUnits num den = size.units) :
    Number.ofRatio negative num den = .finite negative size := by
  obtain ⟨units, hrepresentable⟩ := size
  have hfinite : Magnitude.roundUnits num den < unitsLimit := h ▸ hrepresentable.1
  rw [Number.ofRatio, dif_pos hfinite]
  congr

end StaticConfig
