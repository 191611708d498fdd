import Mathlib.Algebra.Order.Field.Power
import Mathlib.Data.Rat.Cast.Order
import Mathlib.Tactic.FieldSimp
import Mathlib.Tactic.Positivity
import StaticConfig.Proofs.Number.Digits
import StaticConfig.Proofs.Number.Monotone

/-!
# The value of a decimal

A decimal is a rational number, and reading it rounds that number, also where the power of ten is so
large or so small that it is not computed (`Number.ofDecimal_eq_ofRatio`). A decimal of greater
value is read as no smaller number (`Decimal.units_mono`).
-/

namespace StaticConfig

theorem unitsInOne_pos : 0 < unitsInOne := by
  unfold unitsInOne
  generalize 1074 = exponent
  exact powTwo_pos exponent

theorem cast_unitsInOne_pos : (0 : ℚ) < unitsInOne := by
  have hpos := unitsInOne_pos
  generalize unitsInOne = units at hpos ⊢
  exact Nat.cast_pos.2 hpos

/-- The value of a magnitude. -/
def Magnitude.value (size : Magnitude) : ℚ := size.units / unitsInOne

namespace Decimal

/-! ### Values as ratios -/

/-- The rational number that a decimal stands for. -/
def value (d : Decimal) : ℚ := d.digits * (10 : ℚ) ^ d.exponent

/-- The value in units is `d.numerator / d.denominator`. -/
def numerator (d : Decimal) : Nat := d.digits * 10 ^ d.exponent.toNat * unitsInOne

@[inherit_doc numerator]
def denominator (d : Decimal) : Nat := 10 ^ (-d.exponent).toNat

/-- The units of the magnitude to which the value rounds. -/
def units (d : Decimal) : Nat := Magnitude.roundUnits d.numerator d.denominator

theorem denominator_pos (d : Decimal) : 0 < d.denominator := Nat.pow_pos (by decide)

/-- A power of ten, as a quotient of two powers with natural exponents. -/
theorem ten_zpow_eq (exponent : ℤ) :
    (10 : ℚ) ^ exponent = (10 : ℚ) ^ exponent.toNat / (10 : ℚ) ^ (-exponent).toNat := by
  rw [← zpow_natCast, ← zpow_natCast, ← zpow_sub₀ (by decide)]
  congr 1
  omega

theorem numerator_div_denominator (d : Decimal) :
    (d.numerator : ℚ) / d.denominator = d.value * unitsInOne := by
  unfold numerator denominator value
  rw [ten_zpow_eq]
  push_cast
  ring

/-- Values compare like the ratios. -/
theorem cross_le_iff {d d' : Decimal} :
    d.numerator * d'.denominator ≤ d'.numerator * d.denominator ↔ d.value ≤ d'.value := by
  have hden : (0 : ℚ) < d.denominator := Nat.cast_pos.2 d.denominator_pos
  have hden' : (0 : ℚ) < d'.denominator := Nat.cast_pos.2 d'.denominator_pos
  have hvalue := d.numerator_div_denominator
  have hvalue' := d'.numerator_div_denominator
  have hunits := cast_unitsInOne_pos
  generalize (unitsInOne : ℚ) = units at hvalue hvalue' hunits
  generalize d.numerator = a, d'.numerator = b at hvalue hvalue' ⊢
  rw [← mul_le_mul_iff_left₀ hunits, ← hvalue, ← hvalue', div_le_div_iff₀ hden hden']
  exact_mod_cast Iff.rfl

/-- A decimal of greater value rounds to no smaller magnitude. -/
theorem units_mono {d d' : Decimal} (h : d.value ≤ d'.value) : d.units ≤ d'.units :=
  Magnitude.roundUnits_mono d.denominator_pos d'.denominator_pos (cross_le_iff.2 h)

/-- What lies between two decimals that round to one magnitude rounds to it. -/
theorem units_between {low d high : Decimal} (hlow : low.value ≤ d.value)
    (hhigh : d.value ≤ high.value) (h : low.units = high.units) : d.units = high.units :=
  Nat.le_antisymm (units_mono hhigh) ((Nat.le_of_eq h.symm).trans (units_mono hlow))

theorem units_congr {d d' : Decimal} (h : d.value = d'.value) : d.units = d'.units :=
  Nat.le_antisymm (units_mono h.le) (units_mono h.ge)

/-! ### Digits and the point -/

theorem ten_zpow_pos (exponent : ℤ) : (0 : ℚ) < (10 : ℚ) ^ exponent := zpow_pos (by decide) _

/-- Zeros that move from the exponent into the digits keep the value. -/
theorem value_zeros (digits zeros : Nat) (exponent : ℤ) :
    value ⟨digits * 10 ^ zeros, exponent⟩ = value ⟨digits, exponent + zeros⟩ := by
  unfold value
  push_cast
  rw [zpow_add₀ (by decide), zpow_natCast]
  ring

/-- More digits at one exponent are more. -/
theorem value_le_iff {digits digits' : Nat} {exponent : ℤ} :
    value ⟨digits, exponent⟩ ≤ value ⟨digits', exponent⟩ ↔ digits ≤ digits' := by
  unfold value
  rw [mul_le_mul_iff_left₀ (ten_zpow_pos _)]
  exact Nat.cast_le

/-- Fewer digits at no larger an exponent are less. -/
theorem value_mono {a b : Decimal} (hdigits : a.digits ≤ b.digits)
    (hexponent : a.exponent ≤ b.exponent) : a.value ≤ b.value := by
  have hpower : (10 : ℚ) ^ a.exponent ≤ (10 : ℚ) ^ b.exponent :=
    zpow_le_zpow_right₀ (by decide) hexponent
  exact mul_le_mul (Nat.cast_le.2 hdigits) hpower (ten_zpow_pos _).le (Nat.cast_nonneg _)

/-- At a smaller exponent it takes a digit more to be as much. -/
theorem value_le_of_exponent_lt {d : Decimal} {digits : Nat} {exponent : ℤ}
    (hdigits : d.digits ≤ digits * 10) (hexponent : d.exponent < exponent) :
    d.value ≤ value ⟨digits, exponent⟩ := by
  have hshift := value_zeros digits 1 (exponent - 1)
  rw [Nat.cast_one, sub_add_cancel, Nat.pow_one] at hshift
  rw [← hshift]
  exact value_mono hdigits (Int.le_sub_one_of_lt hexponent)

theorem length_eq (d : Decimal) : d.length = (Nat.toDigits 10 d.digits).length :=
  digitCount_eq_length d.digits

theorem length_pos (d : Decimal) : 0 < d.length := by
  rw [length_eq]
  exact Nat.length_toDigits_pos

theorem length_of_lt_ten {digit : Nat} (exponent : Int) (h : digit < 10) :
    (Decimal.mk digit exponent).length = 1 := by
  rw [length_eq, Nat.toDigits_of_lt_base h, List.length_singleton]

/-- The digits stand below the power of ten that the point gives, … -/
theorem digits_lt (d : Decimal) : d.digits < 10 ^ d.length := by
  rw [length_eq]
  exact lt_pow_length_toDigits d.digits

/-- … and, where the first one is not zero, not below the power before it. -/
theorem pow_le_digits {d : Decimal} (h : d.digits ≠ 0) : 10 ^ (d.length - 1) ≤ d.digits := by
  rw [length_eq]
  exact pow_length_toDigits_le h

theorem value_lt_of_point {d : Decimal} {exponent : ℤ} (h : d.point ≤ exponent) :
    d.value < (10 : ℚ) ^ exponent := by
  have hdigits : (d.digits : ℚ) < (10 : ℚ) ^ (d.length : ℤ) := by
    rw [zpow_natCast]
    exact_mod_cast d.digits_lt
  calc d.value < (10 : ℚ) ^ (d.length : ℤ) * (10 : ℚ) ^ d.exponent :=
        mul_lt_mul_of_pos_right hdigits (ten_zpow_pos _)
    _ = (10 : ℚ) ^ d.point := (zpow_add₀ (by decide) _ _).symm
    _ ≤ (10 : ℚ) ^ exponent := zpow_le_zpow_right₀ (by decide) h

theorem le_value_of_point {d : Decimal} {exponent : ℤ} (hdigits : d.digits ≠ 0)
    (h : exponent < d.point) : (10 : ℚ) ^ exponent ≤ d.value := by
  have hpower : (10 : ℚ) ^ ((d.length - 1 : Nat) : ℤ) ≤ d.digits := by
    rw [zpow_natCast]
    exact_mod_cast pow_le_digits hdigits
  have hlength := d.length_pos
  have hpoint : exponent ≤ ((d.length - 1 : Nat) : ℤ) + d.exponent := by
    unfold point at h
    omega
  calc (10 : ℚ) ^ exponent ≤ (10 : ℚ) ^ (((d.length - 1 : Nat) : ℤ) + d.exponent) :=
        zpow_le_zpow_right₀ (by decide) hpoint
    _ = (10 : ℚ) ^ ((d.length - 1 : Nat) : ℤ) * (10 : ℚ) ^ d.exponent := zpow_add₀ (by decide) _ _
    _ ≤ d.value := mul_le_mul_of_nonneg_right hpower (ten_zpow_pos _).le

/-- Where the point stands says between which powers of ten the value lies. -/
theorem lt_point_iff {d : Decimal} {exponent : ℤ} (hdigits : d.digits ≠ 0) :
    exponent < d.point ↔ (10 : ℚ) ^ exponent ≤ d.value := by
  refine ⟨le_value_of_point hdigits, fun h => ?_⟩
  by_contra hpoint
  exact absurd (value_lt_of_point (Int.not_lt.1 hpoint)) (not_lt.2 h)

/-! ### Reading -/

/-- A value this small is nearer to zero than to any other magnitude. -/
theorem units_eq_zero {d : Decimal} (h : d.point < -400) : d.units = 0 := by
  have htiny : units ⟨1, -401⟩ = 0 := by decide +kernel
  have hpower : value ⟨1, -401⟩ = (10 : ℚ) ^ (-401 : ℤ) := by
    rw [value, Nat.cast_one, one_mul]
  have hvalue : d.value ≤ value ⟨1, -401⟩ := hpower ▸ (value_lt_of_point (by omega)).le
  exact Nat.le_zero.1 (htiny ▸ units_mono hvalue)

/-- A value this large is beyond all magnitudes. -/
theorem unitsLimit_le_units {d : Decimal} (hdigits : d.digits ≠ 0) (h : 400 < d.point) :
    unitsLimit ≤ d.units := by
  have hhuge : unitsLimit ≤ units ⟨1, 400⟩ := by decide +kernel
  have hpower : value ⟨1, 400⟩ = (10 : ℚ) ^ (400 : ℤ) := by
    rw [value, Nat.cast_one, one_mul]
  have hvalue : value ⟨1, 400⟩ ≤ d.value := hpower ▸ le_value_of_point hdigits h
  exact hhuge.trans (units_mono hvalue)

theorem units_of_digits_eq_zero {d : Decimal} (h : d.digits = 0) : d.units = 0 := by
  have hvalue : d.value = value ⟨0, 0⟩ := by
    rw [value, value, h, Nat.cast_zero, zero_mul, zero_mul]
  rw [units_congr hvalue]
  decide +kernel

end Decimal

namespace Number

/-- The number of a decimal is its value, rounded, however large or small the power of ten is. -/
theorem ofDecimal_eq_ofRatio (negative : Bool) (d : Decimal) :
    ofDecimal negative d = ofRatio negative d.numerator d.denominator := by
  unfold ofDecimal
  split
  · rename_i hsmall
    refine (ofRatio_eq_finite_iff.2 ?_).symm
    rcases hsmall with hzero | hpoint
    · exact Decimal.units_of_digits_eq_zero hzero
    · exact Decimal.units_eq_zero hpoint
  · rename_i hsmall
    rw [not_or] at hsmall
    split
    · rename_i hlarge
      exact (ofRatio_of_limit_le (Decimal.unitsLimit_le_units hsmall.1 hlarge)).symm
    · unfold Decimal.numerator Decimal.denominator
      split <;> rename_i e he <;> rw [he]
      · simp
      · simp

/-- A decimal is read as the correctly rounded number of its value. -/
theorem ofDecimal_eq_iff {negative : Bool} {d : Decimal} {n : Number} :
    ofDecimal negative d = n ↔ Rounds negative d.numerator d.denominator n := by
  rw [ofDecimal_eq_ofRatio, ofRatio_eq_iff d.denominator_pos]

theorem ofDecimal_eq_finite_iff {negative : Bool} {d : Decimal} {size : Magnitude} :
    ofDecimal negative d = .finite negative size ↔ d.units = size.units := by
  rw [ofDecimal_eq_ofRatio, ofRatio_eq_finite_iff, Decimal.units]

end Number

end StaticConfig
