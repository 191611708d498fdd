import StaticConfig.Proofs.Number.Value

/-!
# The search for the shortest decimal

The search works in units of `10 ^ -1076` on the interval of the points that round to a magnitude,
and takes the coarsest decimal grid that has a point there.

- `Decimal.holds_iff_units`: the points of the interval are those that are read as the magnitude;
- `Decimal.pick?_cases`: which of the two points around the value a grid gives;
- `Decimal.coarsest_search`: what the search knows of the grid on which it ends.
-/

namespace StaticConfig

namespace Decimal

/-! ### The interval of a magnitude -/

/-- A quarter of a unit, `2 ^ -1076`, in units of `10 ^ -1076`. -/
def quarter : Nat := Nat.pow 5 1076

theorem quarter_pos : 0 < quarter := by
  unfold quarter
  generalize 1076 = exponent
  exact Nat.pow_pos (by decide)

theorem Interval.around_eq (size : Magnitude) : Interval.around size =
    { low := (4 * size.units - Magnitude.gapBelow size.units) * quarter
      value := 4 * size.units * quarter
      high := (4 * size.units + 2 * Nat.pow 2 (Magnitude.spacing size.units)) * quarter
      closed := size.units / Nat.pow 2 (Magnitude.spacing size.units) % 2 = 0 } := by
  unfold Interval.around Magnitude.gapBelow quarter
  rfl

/-- The points of the interval, as ratios of units, are those within half of the distances to the
neighbours of the magnitude. -/
theorem holds_iff_within {size : Magnitude} {num den point : Nat} (hpos : 0 < size.units)
    (hden : 0 < den) (hpoint : 4 * num * quarter = point * den) :
    (Interval.around size).holds point = true ↔ Magnitude.Within size.units num den := by
  rw [Interval.around_eq, Interval.holds]
  have hquarter := quarter_pos
  -- A comparison with the point is one with the ratio, times the positive denominator.
  have hlow (a : Nat) : a * quarter ≤ point ↔ a * den ≤ 4 * num := by
    rw [← Nat.mul_le_mul_right_iff hden, ← hpoint, Nat.mul_right_comm,
      Nat.mul_le_mul_right_iff hquarter]
  have hhigh (a : Nat) : point ≤ a * quarter ↔ 4 * num ≤ a * den := by
    rw [← Nat.mul_le_mul_right_iff hden, ← hpoint, Nat.mul_right_comm a,
      Nat.mul_le_mul_right_iff hquarter]
  have hstep : Nat.pow 2 (Magnitude.spacing size.units) = 2 ^ Magnitude.spacing size.units := rfl
  have hgap (a b : Nat) : (a - b) * den = a * den - b * den := Nat.sub_mul ..
  have hsum (a b : Nat) : (a + b) * den = a * den + b * den := Nat.add_mul ..
  -- The lower end is above zero, so nothing is cut off from it.
  have hleast : Magnitude.gapBelow size.units * den < 4 * size.units * den := by
    have hgapBelow := Magnitude.gapBelow_le size.units
    have hspacing := Nat.le_of_dvd hpos size.spacing_dvd
    exact Nat.mul_lt_mul_of_pos_right (by omega) hden
  split
  · rename_i heven
    simp only [Bool.and_eq_true, decide_eq_true_eq, hlow, hhigh, hgap, hsum, hstep] at heven ⊢
    constructor
    · exact fun h => ⟨by omega, by omega, by omega⟩
    · exact fun h => ⟨by have := h.low; omega, h.high⟩
  · rename_i hodd
    simp only [Bool.and_eq_true, decide_eq_true_eq, ← Nat.not_le, hlow, hhigh, hgap, hsum, hstep]
      at hodd ⊢
    constructor
    · exact fun h => ⟨by omega, by omega, by omega⟩
    · intro h
      have hinside := h.inside (by omega)
      exact ⟨by omega, by omega⟩

/-- The interval holds its own value. -/
theorem holds_value {size : Magnitude} (hpos : 0 < size.units) :
    (Interval.around size).holds (Interval.around size).value = true := by
  rw [Interval.around_eq, Interval.holds]
  have hquarter := quarter_pos
  have hgap : 0 < Magnitude.gapBelow size.units := by
    have hstep : 0 < Nat.pow 2 (Magnitude.spacing size.units) := powTwo_pos _
    unfold Magnitude.gapBelow
    split <;> omega
  have hstep : 0 < Nat.pow 2 (Magnitude.spacing size.units) := powTwo_pos _
  have hlow : (4 * size.units - Magnitude.gapBelow size.units) * quarter <
      4 * size.units * quarter := Nat.mul_lt_mul_of_pos_right (by omega) hquarter
  have hhigh : 4 * size.units * quarter <
      (4 * size.units + 2 * Nat.pow 2 (Magnitude.spacing size.units)) * quarter :=
    Nat.mul_lt_mul_of_pos_right (by omega) hquarter
  split
  · simp only [Bool.and_eq_true, decide_eq_true_eq]
    exact ⟨Nat.le_of_lt hlow, Nat.le_of_lt hhigh⟩
  · simp only [Bool.and_eq_true, decide_eq_true_eq]
    exact ⟨hlow, hhigh⟩

/-! ### Points as decimals -/

/-- The decimal of a point. -/
def atPoint (point : Nat) : Decimal := ⟨point, -1076⟩

theorem ten_pow_eq {exponent : Nat} (h : exponent = 1076) :
    10 ^ exponent = 4 * unitsInOne * quarter := by
  have hpower : Nat.pow 10 exponent = 4 * unitsInOne * quarter := by
    subst h
    decide +kernel
  exact hpower

/-- The points of the interval are those that round to the magnitude. -/
theorem holds_iff_units {size : Magnitude} {point : Nat} (hpos : 0 < size.units) :
    (Interval.around size).holds point = true ↔ (atPoint point).units = size.units := by
  obtain ⟨exponent, hexponent⟩ : ∃ exponent, exponent = 1076 := ⟨_, rfl⟩
  have hden : (atPoint point).denominator = 10 ^ exponent := by
    rw [hexponent]
    rfl
  have hnum : (atPoint point).numerator = point * unitsInOne := by
    unfold numerator atPoint
    rw [show Int.toNat (-1076) = 0 from rfl, Nat.pow_zero, Nat.mul_one]
  have hden' : 0 < 10 ^ exponent := Nat.pow_pos (by decide)
  rw [units, hden, hnum, Magnitude.roundUnits_eq_iff_within hden']
  refine holds_iff_within hpos hden' ?_
  rw [ten_pow_eq hexponent]
  ring

theorem value_atPoint_le_iff {point point' : Nat} :
    (atPoint point).value ≤ (atPoint point').value ↔ point ≤ point' := value_le_iff

/-- Between two points of the interval all points belong to it. -/
theorem holds_between {size : Magnitude} {low point high : Nat} (hpos : 0 < size.units)
    (hlow : (Interval.around size).holds low = true)
    (hhigh : (Interval.around size).holds high = true) (habove : low ≤ point)
    (hbelow : point ≤ high) : (Interval.around size).holds point = true := by
  rw [holds_iff_units hpos] at hlow hhigh ⊢
  rw [← hhigh]
  exact units_between (value_atPoint_le_iff.2 habove) (value_atPoint_le_iff.2 hbelow)
    (hlow.trans hhigh.symm)

/-- The decimal of a point of a grid. -/
theorem value_atGrid (digits grid : Nat) :
    (atPoint (digits * 10 ^ grid)).value = value ⟨digits, grid - 1076⟩ := by
  rw [atPoint, value_zeros, add_comm, ← sub_eq_add_neg]

theorem holds_grid_iff {size : Magnitude} {digits grid : Nat} (hpos : 0 < size.units) :
    (Interval.around size).holds (digits * 10 ^ grid) = true ↔
      units ⟨digits, grid - 1076⟩ = size.units := by
  rw [holds_iff_units hpos, units_congr (value_atGrid digits grid)]

/-! ### Picking a point of a grid -/

section Pick

variable {size : Magnitude} {tie : Tie} {width digits : Nat}

/-- What is picked is one of the two neighbours of the value, one inside the interval, and if both
are inside then the nearer one. -/
theorem pick?_cases {i : Interval} (h : i.pick? tie width = some digits) :
    (digits = i.value / width ∧ i.holds (i.value / width * width) = true ∧
        (i.holds ((i.value / width + 1) * width) = true → 2 * (i.value % width) ≤ width)) ∨
      (digits = i.value / width + 1 ∧ i.holds ((i.value / width + 1) * width) = true ∧
        (i.holds (i.value / width * width) = true → width ≤ 2 * (i.value % width))) := by
  unfold Interval.pick? at h
  dsimp only at h
  split at h
  case h_1 hlower hupper =>
    refine .inl ⟨(Option.some.inj h).symm, hlower, fun hholds => ?_⟩
    rw [hupper] at hholds
    cases hholds
  case h_2 hlower hupper =>
    refine .inr ⟨(Option.some.inj h).symm, hupper, fun hholds => ?_⟩
    rw [hlower] at hholds
    cases hholds
  case h_3 => cases h
  case h_4 hlower hupper =>
    -- Both neighbours are inside: the nearer one, or what the rule for ties says.
    split at h
    · exact .inl ⟨(Option.some.inj h).symm, hlower, fun _ => by omega⟩
    · split at h
      · exact .inr ⟨(Option.some.inj h).symm, hupper, fun _ => by omega⟩
      · cases tie with
        | up => exact .inr ⟨(Option.some.inj h).symm, hupper, fun _ => by omega⟩
        | even =>
          have hdigits := (Option.some.inj h).symm
          split at hdigits
          · exact .inl ⟨hdigits, hlower, fun _ => by omega⟩
          · exact .inr ⟨hdigits, hupper, fun _ => by omega⟩

/-- Nothing is picked only where both neighbours are outside. -/
theorem neighbours_of_pick?_eq_none {i : Interval} (h : i.pick? tie width = none) :
    i.holds (i.value / width * width) = false ∧
      i.holds ((i.value / width + 1) * width) = false := by
  unfold Interval.pick? at h
  dsimp only at h
  split at h
  case h_1 => cases h
  case h_2 => cases h
  case h_3 hlower hupper => exact ⟨hlower, hupper⟩
  case h_4 =>
    split at h
    · cases h
    · split at h
      · cases h
      · cases tie <;> cases h

theorem holds_of_pick? {i : Interval} (h : i.pick? tie width = some digits) :
    i.holds (digits * width) = true := by
  rcases pick?_cases h with ⟨rfl, hholds, -⟩ | ⟨rfl, hholds, -⟩ <;> exact hholds

theorem le_of_pick? {i : Interval} (h : i.pick? tie width = some digits) :
    digits ≤ i.value / width + 1 := by
  rcases pick?_cases h with ⟨rfl, -, -⟩ | ⟨rfl, -, -⟩ <;> omega

/-- A point of the grid inside the interval has the value or a neighbour of it between itself and
the value. -/
theorem holds_neighbour (hpos : 0 < size.units)
    (h : (Interval.around size).holds (digits * width) = true) (hwidth : 0 < width) :
    (digits ≤ (Interval.around size).value / width ∧
        (Interval.around size).holds ((Interval.around size).value / width * width) = true) ∨
      ((Interval.around size).value / width + 1 ≤ digits ∧
        (Interval.around size).holds (((Interval.around size).value / width + 1) * width) =
          true) := by
  have hvalue := holds_value hpos
  rcases Nat.lt_or_ge ((Interval.around size).value / width) digits with hlt | hge
  · refine .inr ⟨hlt, holds_between hpos hvalue h ?_ (Nat.mul_le_mul_right _ hlt)⟩
    exact Nat.le_of_lt (Nat.lt_mul_of_div_lt (Nat.lt_succ_self _) hwidth)
  · exact .inl ⟨hge, holds_between hpos h hvalue (Nat.mul_le_mul_right _ hge)
      (Nat.div_mul_le_self _ _)⟩

/-- Nothing is picked only where no point of the grid lies in the interval. -/
theorem not_holds_of_pick?_eq_none (hpos : 0 < size.units) (hwidth : 0 < width)
    (h : (Interval.around size).pick? tie width = none) :
    (Interval.around size).holds (digits * width) = false := by
  obtain ⟨hlower, hupper⟩ := neighbours_of_pick?_eq_none h
  by_contra hholds
  rw [Bool.not_eq_false] at hholds
  rcases holds_neighbour hpos hholds hwidth with ⟨-, hinside⟩ | ⟨-, hinside⟩
  · rw [hlower] at hinside
    cases hinside
  · rw [hupper] at hinside
    cases hinside

/-- No point of the grid inside the interval is nearer to the value than the one that is picked. -/
theorem dist_le_of_pick? {other : Nat} (hpos : 0 < size.units) (hwidth : 0 < width)
    (h : (Interval.around size).pick? tie width = some digits)
    (hother : (Interval.around size).holds (other * width) = true) :
    Nat.dist (digits * width) (Interval.around size).value ≤
      Nat.dist (other * width) (Interval.around size).value := by
  have hside := holds_neighbour hpos hother hwidth
  have hpick := pick?_cases h
  have hdiv := Nat.div_add_mod (Interval.around size).value width
  have hrest : (Interval.around size).value % width < width := Nat.mod_lt _ hwidth
  rw [Nat.mul_comm] at hdiv
  generalize (Interval.around size).value / width = lower at hpick hside hdiv
  have hupper : (lower + 1) * width = lower * width + width := Nat.succ_mul lower width
  have hbelow (hle : other ≤ lower) : other * width ≤ lower * width := Nat.mul_le_mul_right _ hle
  have habove (hle : lower + 1 ≤ other) : lower * width + width ≤ other * width :=
    hupper ▸ Nat.mul_le_mul_right _ hle
  unfold Nat.dist
  -- The other point lies beyond one of the neighbours, which is inside then.
  rcases hside with ⟨hle, hholds⟩ | ⟨hle, hholds⟩
  · have hmul := hbelow hle
    rcases hpick with ⟨rfl, -, -⟩ | ⟨rfl, -, hnear⟩
    · omega
    · have hhalf := hnear hholds
      omega
  · have hmul := habove hle
    rcases hpick with ⟨rfl, -, hnear⟩ | ⟨rfl, -, -⟩
    · have hhalf := hnear hholds
      omega
    · omega

end Pick

/-! ### The search -/

/-- A point of a grid that is inside the interval of a magnitude and as near to its value as any
other one there, where the value reaches the width of the grid and the next grid either has nothing
inside or is wider than the value. -/
structure Coarsest (size : Magnitude) (digits grid : Nat) : Prop where
  holds : (Interval.around size).holds (digits * 10 ^ grid) = true
  near : ∀ other, (Interval.around size).holds (other * 10 ^ grid) = true →
    Nat.dist (digits * 10 ^ grid) (Interval.around size).value ≤
      Nat.dist (other * 10 ^ grid) (Interval.around size).value
  reached : 10 ^ grid ≤ (Interval.around size).value
  last : digits ≤ 10 ∨
    ∀ other, (Interval.around size).holds (other * 10 ^ (grid + 1)) = false

section Search

variable {size : Magnitude}

theorem value_div_le {i : Interval} {top : Nat} (htop : i.value < 10 ^ (top + 1)) :
    i.value / 10 ^ top ≤ 9 := by
  rw [Nat.pow_succ, Nat.mul_comm] at htop
  exact Nat.le_of_lt_succ ((Nat.div_lt_iff_lt_mul (Nat.pow_pos (by decide))).2 htop)

/-- On its way down from a grid, the search ends on the coarsest one that has a point. -/
theorem coarsest_search (tie : Tie) (hpos : 0 < size.units) {grid : Nat}
    (hreached : 10 ^ grid ≤ (Interval.around size).value)
    (hlast : (Interval.around size).value < 10 ^ (grid + 1) ∨
      ∀ other, (Interval.around size).holds (other * 10 ^ (grid + 1)) = false) :
    ∃ digits last : Nat, (Interval.around size).search tie grid = ⟨digits, last - 1076⟩ ∧
      Coarsest size digits last := by
  induction grid with
  | zero =>
    refine ⟨(Interval.around size).value, 0, rfl, ?_, ?_, hreached, ?_⟩
    · rw [Nat.pow_zero, Nat.mul_one]
      exact holds_value hpos
    · intro other _
      rw [Nat.pow_zero, Nat.mul_one, Nat.dist_self]
      exact Nat.zero_le _
    · exact hlast.imp (fun h => by omega) id
  | succ grid ih =>
    have hwidth : 0 < Nat.pow 10 (grid + 1) := Nat.pow_pos (by decide)
    unfold Interval.search
    split
    · rename_i digits hpick
      refine ⟨digits, grid + 1, rfl, holds_of_pick? hpick,
        fun other => dist_le_of_pick? hpos hwidth hpick, hreached, ?_⟩
      refine hlast.imp (fun htop => ?_) id
      exact (le_of_pick? hpick).trans (Nat.succ_le_succ (value_div_le htop))
    · rename_i hnone
      refine ih ?_ (.inr fun other => not_holds_of_pick?_eq_none hpos hwidth hnone)
      exact Nat.le_trans (Nat.pow_le_pow_right (by decide) (Nat.le_succ grid)) hreached

end Search

end Decimal

end StaticConfig
