import StaticConfig.Proofs.Number.Interval

/-!
# The shortest decimal of a magnitude

The decimal on which the search ends is read as the magnitude, none that is has fewer digits, and of
those with as few none is nearer (`Decimal.isShortest_shortest`). Where the next coarser grid has no
point in the interval, no decimal of the magnitude reaches that grid, so a power of ten would stand
between the one that is found and any shorter one.
-/

namespace StaticConfig

namespace Decimal

/-! ### Trailing zeros -/

/-- The value stays when zeros move from the digits into the exponent. -/
theorem value_strip (digits : Nat) (exponent : Int) :
    (strip digits exponent).value = value ⟨digits, exponent⟩ := by
  induction digits, exponent using strip.induct with
  | case1 exponent =>
    rw [strip, dif_pos rfl, value, value, Nat.cast_zero, zero_mul, zero_mul]
  | case2 digits exponent hne hten ih =>
    have hdigits : digits / 10 * 10 ^ 1 = digits := by omega
    rw [strip, dif_neg hne, if_pos hten, ih, ← Nat.cast_one, ← value_zeros, hdigits]
  | case3 digits exponent hne hten => rw [strip, dif_neg hne, if_neg hten]

theorem strip_of_mod_ne {digits : Nat} (exponent : Int) (h : digits % 10 ≠ 0) :
    strip digits exponent = ⟨digits, exponent⟩ := by
  have hne : digits ≠ 0 := fun hzero => h (by rw [hzero])
  rw [strip, dif_neg hne, if_neg h]

/-- Up to ten, one digit is left. -/
theorem length_strip {digits : Nat} (exponent : Int) (hne : digits ≠ 0) (h : digits ≤ 10) :
    (strip digits exponent).length = 1 := by
  rcases Nat.lt_or_eq_of_le h with hlt | rfl
  · rw [strip_of_mod_ne exponent (by omega)]
    exact length_of_lt_ten exponent hlt
  · rw [strip, dif_neg hne, if_pos rfl, strip_of_mod_ne _ (by decide)]
    exact length_of_lt_ten _ (by decide)

/-! ### No decimal is shorter -/

section Fewest

variable {size : Magnitude} {digits grid : Nat}

theorem Coarsest.units_eq (h : Coarsest size digits grid) (hpos : 0 < size.units) :
    units ⟨digits, grid - 1076⟩ = size.units := (holds_grid_iff hpos).1 h.holds

theorem digits_ne_zero {d : Decimal} (hpos : 0 < size.units) (h : d.units = size.units) :
    d.digits ≠ 0 := by
  intro hzero
  rw [units_of_digits_eq_zero hzero] at h
  omega

/-- A decimal whose exponent reaches the grid is a point of it. -/
theorem exists_on_grid {d : Decimal} (h : (grid : ℤ) - 1076 ≤ d.exponent) :
    ∃ point, d.value = value ⟨point, grid - 1076⟩ := by
  obtain ⟨zeros, hzeros⟩ : ∃ zeros : Nat, d.exponent = grid - 1076 + zeros :=
    ⟨(d.exponent - (grid - 1076)).toNat, by omega⟩
  exact ⟨d.digits * 10 ^ zeros, by rw [value_zeros, ← hzeros]⟩

/-- Where the next grid has no point inside, a power of ten that is one is no decimal of the
interval, and neither is one whose exponent reaches that grid. -/
theorem lt_of_no_coarser (hpos : 0 < size.units)
    (hnone : ∀ other, (Interval.around size).holds (other * 10 ^ (grid + 1)) = false)
    {d : Decimal} (h : d.units = size.units) : d.exponent < grid + 1 - 1076 := by
  by_contra hreaches
  have hgrid : ((grid + 1 : Nat) : ℤ) - 1076 ≤ d.exponent := by omega
  obtain ⟨point, hpoint⟩ := exists_on_grid hgrid
  have hholds := (holds_grid_iff hpos).2 ((units_congr hpoint).symm.trans h)
  rw [hnone point] at hholds
  cases hholds

/-- So no digits at the grid end in a zero, … -/
theorem mod_ne_of_no_coarser (hpos : 0 < size.units)
    (hnone : ∀ other, (Interval.around size).holds (other * 10 ^ (grid + 1)) = false)
    (h : units ⟨digits, grid - 1076⟩ = size.units) : digits % 10 ≠ 0 := by
  intro hten
  have hdigits : digits / 10 * 10 ^ 1 = digits := by omega
  have hcoarser : units ⟨digits / 10, grid - 1076 + (1 : Nat)⟩ = size.units := by
    rw [← h, ← units_congr (value_zeros (digits / 10) 1 _), hdigits]
  have habsurd := lt_of_no_coarser hpos hnone hcoarser
  dsimp only at habsurd
  omega

/-- … and in particular they are no power of ten. -/
theorem units_power_ne (hpos : 0 < size.units)
    (hnone : ∀ other, (Interval.around size).holds (other * 10 ^ (grid + 1)) = false)
    (count : Nat) : units ⟨10 ^ (count + 1), grid - 1076⟩ ≠ size.units := by
  intro h
  refine mod_ne_of_no_coarser hpos hnone h ?_
  rw [Nat.pow_succ, Nat.mul_mod_left]

/-- A decimal of the magnitude with fewer digits than a point of the grid has would put a power of
ten between the two. -/
theorem length_le_of_no_coarser (hpos : 0 < size.units)
    (hnone : ∀ other, (Interval.around size).holds (other * 10 ^ (grid + 1)) = false)
    (hdigits : units ⟨digits, grid - 1076⟩ = size.units) {d : Decimal}
    (h : d.units = size.units) : (Decimal.mk digits (grid - 1076)).length ≤ d.length := by
  by_contra hfewer
  obtain ⟨count, hcount⟩ : ∃ count, (Decimal.mk digits (grid - 1076)).length = count + 2 :=
    ⟨_, (Nat.sub_add_cancel (by have := d.length_pos; omega)).symm⟩
  have hexponent := lt_of_no_coarser hpos hnone h
  have hpower : d.digits ≤ 10 ^ (count + 1) :=
    Nat.le_of_lt (Nat.lt_of_lt_of_le d.digits_lt (Nat.pow_le_pow_right (by decide) (by omega)))
  have hleast : 10 ^ (count + 1) ≤ digits := by
    have hle := pow_le_digits (digits_ne_zero hpos hdigits)
    rwa [hcount] at hle
  refine units_power_ne hpos hnone count ?_
  rw [← hdigits]
  refine units_between (value_mono hpower ?_) (value_mono hleast (le_refl _))
    (h.trans hdigits.symm)
  show d.exponent ≤ grid - 1076
  omega

end Fewest

/-! ### None as short is nearer -/

section Nearest

variable {size : Magnitude} {digits grid : Nat}

theorem value_around (size : Magnitude) :
    (atPoint (Interval.around size).value).value = size.value := by
  obtain ⟨exponent, hexponent⟩ : ∃ exponent, exponent = 1076 := ⟨_, rfl⟩
  have hten : (10 : ℚ) ^ exponent = 4 * unitsInOne * quarter := by
    exact_mod_cast congrArg (Nat.cast (R := ℚ)) (ten_pow_eq hexponent)
  have hvalue : (Interval.around size).value = 4 * size.units * quarter := by
    rw [Interval.around_eq]
  have hpower : (10 : ℚ) ^ (-1076 : ℤ) = ((10 : ℚ) ^ exponent)⁻¹ := by
    rw [hexponent, ← zpow_natCast, ← zpow_neg]
    rfl
  have hunits := cast_unitsInOne_pos
  have hquarter : (0 : ℚ) < quarter := Nat.cast_pos.2 quarter_pos
  unfold value atPoint Magnitude.value
  dsimp only
  rw [hpower, hten, hvalue]
  push_cast
  generalize (unitsInOne : ℚ) = a at hunits ⊢
  generalize (quarter : ℚ) = b at hquarter ⊢
  field_simp

theorem dist_atPoint (point point' : Nat) :
    |(atPoint point).value - (atPoint point').value| =
      Nat.dist point point' * (10 : ℚ) ^ (-1076 : ℤ) := by
  have hpower := ten_zpow_pos (-1076)
  have hdist : ((Nat.dist point point' : Nat) : ℚ) = |(point : ℚ) - point'| := by
    rcases Nat.le_total point point' with h | h
    · rw [Nat.dist_eq_sub_of_le h, Nat.cast_sub h, abs_sub_comm, abs_of_nonneg]
      exact sub_nonneg.2 (Nat.cast_le.2 h)
    · rw [Nat.dist_eq_sub_of_le_right h, Nat.cast_sub h, abs_of_nonneg]
      exact sub_nonneg.2 (Nat.cast_le.2 h)
  unfold value atPoint
  dsimp only
  rw [← sub_mul, abs_mul, abs_of_pos hpower, hdist]

/-- No point of the grid that is read as the magnitude is nearer. -/
theorem Coarsest.abs_sub_le (h : Coarsest size digits grid) (hpos : 0 < size.units) {other : Nat}
    (hother : units ⟨other, grid - 1076⟩ = size.units) :
    |value ⟨digits, grid - 1076⟩ - size.value| ≤ |value ⟨other, grid - 1076⟩ - size.value| := by
  rw [← value_atGrid, ← value_atGrid, ← value_around, dist_atPoint, dist_atPoint]
  refine mul_le_mul_of_nonneg_right ?_ (ten_zpow_pos _).le
  exact Nat.cast_le.2 (h.near other ((holds_grid_iff hpos).2 hother))

/-- A decimal of the magnitude that is on no such grid but has as few digits lies below the first
point of the grid. -/
theorem Coarsest.digits_lt_ten (h : Coarsest size digits grid) (hpos : 0 < size.units)
    {d : Decimal} (hunits : d.units = size.units) (hexponent : d.exponent < grid - 1076)
    (hlength : d.length ≤ (strip digits (grid - 1076)).length) : d.digits < 10 := by
  have hfound := h.units_eq hpos
  have hdigits := digits_ne_zero hpos hfound
  have hone (hone : (strip digits (grid - 1076)).length = 1) : d.digits < 10 := by
    have hpower : 10 ^ d.length ≤ 10 ^ 1 := Nat.pow_le_pow_right (by decide) (by omega)
    exact Nat.lt_of_lt_of_le d.digits_lt hpower
  rcases h.last with hten | hnone
  · exact hone (length_strip _ hdigits hten)
  · rw [strip_of_mod_ne _ (mod_ne_of_no_coarser hpos hnone hfound)] at hlength hone
    by_contra hge
    obtain ⟨count, hcount⟩ : ∃ count, (Decimal.mk digits (grid - 1076)).length = count + 2 := by
      have hpos := (Decimal.mk digits (grid - 1076)).length_pos
      refine ⟨_, (Nat.sub_add_cancel ?_).symm⟩
      by_contra hshort
      exact hge (hone (by omega))
    -- With two digits or more, a power of ten of the grid would lie between the two.
    have hless : d.value ≤ value ⟨10 ^ (count + 1), grid - 1076⟩ := by
      refine value_le_of_exponent_lt (Nat.le_of_lt (Nat.lt_of_lt_of_le d.digits_lt ?_)) hexponent
      rw [← Nat.pow_succ]
      exact Nat.pow_le_pow_right (by decide) (by omega)
    have hleast : 10 ^ (count + 1) ≤ digits := by
      have hle := pow_le_digits hdigits
      rwa [hcount] at hle
    refine units_power_ne hpos hnone count ?_
    rw [← hfound]
    exact units_between hless (value_mono hleast (le_refl _)) (hunits.trans hfound.symm)

/-- Of the decimals of the magnitude with as few digits none is nearer. -/
theorem Coarsest.nearest (h : Coarsest size digits grid) (hpos : 0 < size.units)
    {d : Decimal} (hunits : d.units = size.units)
    (hlength : d.length ≤ (strip digits (grid - 1076)).length) :
    |value ⟨digits, grid - 1076⟩ - size.value| ≤ |d.value - size.value| := by
  by_cases hgrid : (grid : ℤ) - 1076 ≤ d.exponent
  · obtain ⟨point, hpoint⟩ := exists_on_grid hgrid
    rw [hpoint]
    exact h.abs_sub_le hpos ((units_congr hpoint).symm.trans hunits)
  · -- Below the first point of the grid, and so farther away than the one below the value.
    have hdigits := h.digits_lt_ten hpos hunits (Int.not_le.1 hgrid) hlength
    obtain ⟨lower, hlower⟩ : ∃ lower, (Interval.around size).value / 10 ^ grid = lower := ⟨_, rfl⟩
    have hten : 0 < 10 ^ grid := Nat.pow_pos (by decide)
    have hone : 1 ≤ lower := hlower ▸ (Nat.le_div_iff_mul_le hten).2 (by
      rw [Nat.one_mul]
      exact h.reached)
    have hbelow : d.value ≤ value ⟨lower, grid - 1076⟩ :=
      value_le_of_exponent_lt (by omega) (Int.not_le.1 hgrid)
    have habove : value ⟨lower, grid - 1076⟩ ≤ size.value := by
      rw [← value_around, ← value_atGrid, value_atPoint_le_iff, ← hlower]
      exact Nat.div_mul_le_self _ _
    have hvalue : (atPoint (Interval.around size).value).units = size.units :=
      (holds_iff_units hpos).1 (holds_value hpos)
    have hmiddle : units ⟨lower, grid - 1076⟩ = size.units := by
      rw [← hvalue]
      refine units_between hbelow ?_ (hunits.trans hvalue.symm)
      rw [value_around]
      exact habove
    refine (h.abs_sub_le hpos hmiddle).trans ?_
    rw [abs_of_nonpos (sub_nonpos.2 habove), abs_of_nonpos (sub_nonpos.2 (hbelow.trans habove))]
    exact neg_le_neg (sub_le_sub_right hbelow _)

end Nearest

/-! ### The decimal that is found -/

/-- The decimal is read as the magnitude, no decimal that is has fewer digits, and none that has as
few is nearer to it. -/
structure IsShortest (d : Decimal) (size : Magnitude) : Prop where
  read : Number.ofDecimal false d = .finite false size
  fewest : ∀ other : Decimal, Number.ofDecimal false other = .finite false size →
    d.length ≤ other.length
  nearest : ∀ other : Decimal, Number.ofDecimal false other = .finite false size →
    other.length = d.length → |d.value - size.value| ≤ |other.value - size.value|

theorem Coarsest.isShortest {size : Magnitude} {digits grid : Nat}
    (h : Coarsest size digits grid) (hpos : 0 < size.units) :
    (strip digits (grid - 1076)).IsShortest size := by
  have hfound := h.units_eq hpos
  have hvalue := value_strip digits (grid - 1076)
  constructor
  · exact Number.ofDecimal_eq_finite_iff.2 ((units_congr hvalue).trans hfound)
  · intro other hother
    rw [Number.ofDecimal_eq_finite_iff] at hother
    rcases h.last with hten | hnone
    · rw [length_strip _ (digits_ne_zero hpos hfound) hten]
      exact other.length_pos
    · rw [strip_of_mod_ne _ (mod_ne_of_no_coarser hpos hnone hfound)]
      exact length_le_of_no_coarser hpos hnone hfound hother
  · intro other hother hlength
    rw [Number.ofDecimal_eq_finite_iff] at hother
    rw [hvalue]
    exact h.nearest hpos hother (Nat.le_of_eq hlength)

/-- The search finds a shortest decimal of every magnitude but zero. -/
theorem isShortest_shortest {size : Magnitude} (tie : Tie) (hpos : 0 < size.units) :
    (shortest tie size).IsShortest size := by
  have hvalue : (Interval.around size).value ≠ 0 := by
    rw [Interval.around_eq]
    exact (Nat.mul_pos (Nat.mul_pos (by decide) hpos) quarter_pos).ne'
  have hcount := digitCount_eq_length (Interval.around size).value
  have hlength : 0 < (Nat.toDigits 10 (Interval.around size).value).length :=
    Nat.length_toDigits_pos
  have htop : (Interval.around size).value <
      10 ^ (digitCount (Interval.around size).value - 1 + 1) := by
    rw [hcount, Nat.sub_add_cancel hlength]
    exact lt_pow_length_toDigits _
  have hreached : 10 ^ (digitCount (Interval.around size).value - 1) ≤
      (Interval.around size).value := by
    rw [hcount]
    exact pow_length_toDigits_le hvalue
  obtain ⟨digits, last, hsearch, hcoarsest⟩ := coarsest_search tie hpos hreached (.inl htop)
  unfold shortest
  dsimp only
  rw [hsearch]
  exact hcoarsest.isShortest hpos

theorem units_shortest {size : Magnitude} (tie : Tie) (hpos : 0 < size.units) :
    (shortest tie size).units = size.units :=
  Number.ofDecimal_eq_finite_iff.1 (isShortest_shortest tie hpos).read

end Decimal

end StaticConfig
