import StaticConfig.Proofs.Number.RoundTrip
import StaticConfig.Proofs.Number.Wrapping

/-!
# The text of whole numbers

Below `2 ^ 53` every integer is a number, and the text of the number has the digits of the integer
(`Number.text_of_isExactly`): the shortest decimal of the number has no fraction, because a power of
ten would stand between it and the integer, and as an integer it can be no other one.

In the other direction digits are the text of no number but the one that is nearest to what they
stand for (`Number.equals_of_text`). From `2 ^ 53` on that may be another integer.
-/

namespace StaticConfig

theorem toDigits_mul_ten_pow {n : Nat} (hpos : 0 < n) (zeros : Nat) :
    Nat.toDigits 10 (n * 10 ^ zeros) = Nat.toDigits 10 n ++ List.replicate zeros '0' := by
  induction zeros with
  | zero => simp
  | succ zeros ih =>
    have hmul : 0 < n * 10 ^ zeros := Nat.mul_pos hpos (Nat.pow_pos (by decide))
    have hten : 1 < 10 ∧ 0 < 10 := by decide
    have happend := Nat.toDigits_append_toDigits hten.1 hmul hten.2
    rw [Nat.add_zero] at happend
    rw [Nat.pow_succ, ← Nat.mul_assoc, Nat.mul_comm, ← happend, ih, List.append_assoc,
      Nat.toDigits_of_lt_base hten.2, List.replicate_succ']
    rfl

namespace Decimal

/-! ### Decimals of integers -/

/-- The decimal of an integer. -/
def whole (n : Nat) : Decimal := ⟨n, 0⟩

theorem numerator_whole (n : Nat) : (whole n).numerator = n * unitsInOne := by
  rw [numerator, show (whole n).exponent.toNat = 0 from rfl, Nat.pow_zero, Nat.mul_one, whole]

theorem denominator_whole (n : Nat) : (whole n).denominator = 1 := Nat.pow_zero 10

theorem units_whole {n : Nat} (h : n ≤ 2 ^ 53) : (whole n).units = n * unitsInOne := by
  rw [units, numerator_whole, denominator_whole]
  exact Magnitude.roundUnits_units ⟨_, representable_whole h⟩

theorem units_whole_mono {m n : Nat} (h : m ≤ n) : (whole m).units ≤ (whole n).units :=
  units_mono (value_le_iff.2 h)

/-- Below `2 ^ 53` every integer is a number of its own. -/
theorem eq_of_units_whole {m n : Nat} (hn : n < 2 ^ 53) (h : (whole m).units = n * unitsInOne) :
    m = n := by
  have hpos := unitsInOne_pos
  rcases Nat.lt_or_ge (2 ^ 53) m with hlt | hle
  · have hle := units_whole_mono hlt.le
    rw [units_whole le_rfl, h] at hle
    exact absurd (Nat.le_of_mul_le_mul_right hle hpos) (Nat.not_le.2 hn)
  · rw [units_whole hle] at h
    exact Nat.eq_of_mul_eq_mul_right hpos h

theorem value_whole_mul (digits zeros : Nat) :
    (whole (digits * 10 ^ zeros)).value = value ⟨digits, zeros⟩ := by
  rw [whole, value_zeros, zero_add]

/-- With a fraction and no more digits than an integer a decimal stays below the first integer of so
many digits. -/
theorem value_le_of_fraction {d : Decimal} {n : Nat} (hlength : d.length ≤ (whole n).length)
    (hfraction : d.exponent < 0) : d.value ≤ (whole (10 ^ ((whole n).length - 1))).value := by
  refine value_le_of_exponent_lt ?_ hfraction
  rw [← Nat.pow_succ, Nat.succ_eq_add_one, Nat.sub_add_cancel (whole n).length_pos]
  exact d.digits_lt.le.trans (Nat.pow_le_pow_right (by decide) hlength)

section Shortest

variable {d : Decimal} {size : Magnitude} {n : Nat}

/-- The shortest decimal of an integer has no fraction. Otherwise the integer would be a power of
ten, the decimal would have one digit like it, and no digit behind the point makes an integer. -/
theorem IsShortest.exponent_nonneg (h : d.IsShortest size) (hn : n < 2 ^ 53) (hpos : 0 < n)
    (hsize : size.units = n * unitsInOne) : 0 ≤ d.exponent := by
  by_contra hfraction
  rw [Int.not_le] at hfraction
  have hunits : d.units = n * unitsInOne := (Number.ofDecimal_eq_finite_iff.1 h.read).trans hsize
  have hfewest {other : Decimal} (hother : other.units = n * unitsInOne) :
      d.length ≤ other.length :=
    h.fewest other (Number.ofDecimal_eq_finite_iff.2 (hother.trans hsize.symm))
  have hwhole : (whole n).units = n * unitsInOne := units_whole hn.le
  -- With no more digits than the integer it lies below the first integer of so many digits.
  have hbelow := value_le_of_fraction (hfewest hwhole) hfraction
  have hpower : 10 ^ ((whole n).length - 1) ≤ n := pow_le_digits (d := whole n) hpos.ne'
  generalize (whole n).length - 1 = zeros at hbelow hpower
  have hbetween : (whole (10 ^ zeros)).units = n * unitsInOne :=
    (units_between hbelow (value_le_iff.2 hpower) (hunits.trans hwhole.symm)).trans hwhole
  -- So both are read as that power of ten, which one digit is enough for.
  have hone : d.length ≤ 1 := by
    have hvalue := value_whole_mul 1 zeros
    rw [Nat.one_mul] at hvalue
    have hlength := hfewest ((units_congr hvalue).symm.trans hbetween)
    exact hlength.trans_eq (length_of_lt_ten zeros (by decide))
  have hdigits : d.digits < 10 ^ 1 :=
    d.digits_lt.trans_le (Nat.pow_le_pow_right (by decide) hone)
  have hnine : d.value ≤ value ⟨9, -1⟩ := value_mono (by dsimp only; omega) (by dsimp only; omega)
  have hgap : units ⟨9, -1⟩ < (whole 1).units := by decide +kernel
  have hless := ((units_mono hnine).trans_lt hgap).trans_le (units_whole_mono hpos)
  omega

/-- So its digits, with zeros after them, are those of the integer. -/
theorem IsShortest.digits_eq (h : d.IsShortest size) (hn : n < 2 ^ 53) (hpos : 0 < n)
    (hsize : size.units = n * unitsInOne) :
    ∃ zeros : Nat, d.exponent = zeros ∧ d.digits * 10 ^ zeros = n := by
  obtain ⟨zeros, hzeros⟩ := Int.eq_ofNat_of_zero_le (h.exponent_nonneg hn hpos hsize)
  have hvalue : d.value = (whole (d.digits * 10 ^ zeros)).value := by
    rw [value_whole_mul, ← hzeros]
  refine ⟨zeros, hzeros, eq_of_units_whole hn ?_⟩
  rw [← units_congr hvalue, Number.ofDecimal_eq_finite_iff.1 h.read, hsize]

end Shortest

end Decimal

/-- Without a fraction and with at most 21 places the digits of a decimal stand in full. -/
theorem Layout.render_whole {d : Decimal} {zeros : Nat} (hdigits : d.digits ≠ 0)
    (hexponent : d.exponent = zeros) (hlength : d.length + zeros ≤ 21) :
    Layout.display.render d = Nat.toDigits 10 (d.digits * 10 ^ zeros) := by
  have hpoint : d.point = (d.length + zeros : Nat) := by
    rw [Decimal.point, hexponent, Int.natCast_add]
  have hpos := d.length_pos
  have hlow : Layout.display.low = -6 := rfl
  have hhigh : Layout.display.high = 21 := rfl
  have hmark : Layout.display.markWhole = false := rfl
  rw [Decimal.length_eq] at hpoint hlength hpos
  rw [Layout.render, Decimal.text, if_pos (by omega), Layout.positional, if_neg (by omega),
    if_pos (by omega), hmark, if_neg Bool.false_ne_true, List.append_nil,
    toDigits_mul_ten_pow (Nat.pos_of_ne_zero hdigits), hpoint, Int.toNat_natCast,
    Nat.add_sub_cancel_left]

namespace Number

/-! ### Integers as text -/

/-- The text of an integer below `2 ^ 53` has the digits of the integer. -/
theorem text_of_isExactly {n : Number} {i : Nat} (h : n.IsExactly i) (hi : i < 2 ^ 53) :
    n.text = Nat.toDigits 10 i := by
  obtain ⟨negative, size, rfl, -⟩ := h.finite
  obtain ⟨hunits, hnegative, -⟩ := isExactly_finite_iff.1 h
  rw [Int.natAbs_natCast] at hunits
  rw [text_finite, hunits]
  rcases Nat.eq_zero_or_pos i with rfl | hpos
  · rw [Nat.zero_mul, if_pos rfl]
    rfl
  · have hsize : 0 < size.units := hunits ▸ Nat.mul_pos hpos unitsInOne_pos
    have hsign : negative = false := by
      cases negative with
      | false => rfl
      | true => exact absurd (hnegative rfl) (by omega)
    rw [if_neg (hunits ▸ hsize.ne'), hsign, if_neg Bool.false_ne_true, List.nil_append]
    have hshortest := Decimal.isShortest_shortest .up hsize
    obtain ⟨zeros, hexponent, hdigits⟩ := hshortest.digits_eq hi hpos hunits
    generalize Decimal.shortest .up size = d at hexponent hdigits ⊢
    have hne : d.digits ≠ 0 := by
      rintro hzero
      rw [hzero, Nat.zero_mul] at hdigits
      omega
    -- An integer below `2 ^ 53` has at most 16 places.
    have hlength : d.length + zeros ≤ 21 := by
      have hplaces : 10 ^ (d.length - 1 + zeros) < 10 ^ 16 :=
        calc 10 ^ (d.length - 1 + zeros) = 10 ^ (d.length - 1) * 10 ^ zeros := Nat.pow_add ..
          _ ≤ d.digits * 10 ^ zeros := Nat.mul_le_mul_right _ (Decimal.pow_le_digits hne)
          _ < 10 ^ 16 := hdigits ▸ hi.trans (by decide)
      rw [Nat.pow_lt_pow_iff_right (by decide)] at hplaces
      omega
    rw [Layout.render_whole hne hexponent hlength, hdigits]

/-- `2 ^ 60` is `1152921504606846976`, but fewer digits are enough to tell it from other numbers. -/
example : (ofNat (2 ^ 60)).text = Nat.toDigits 10 1152921504606847000 := by decide +kernel

/-- Digits are the text of no number but the one nearest to what they stand for. -/
theorem equals_of_text {n : Number} {i : Nat} (h : n.text = Nat.toDigits 10 i) :
    n.equals (ofNat i) = true := by
  have hread : n.unsignedZero = ofNat i := by
    rw [← ofText_text, h, ofText_of_form .plain (Decimal.Form.of_whole (denotes_toDigits i)),
      ofDecimal_eq_ofRatio, ← Decimal.whole, Decimal.numerator_whole, Decimal.denominator_whole,
      ofNat]
  have hsame : n.Same n.unsignedZero := same_iff.2 (same_iff.1 n.unsignedZero_same).symm
  rw [hread] at hsame
  exact hsame.resolve_right fun hnan => ofNat_ne_nan i hnan.2

theorem IsExactly.of_equals {n m : Number} {i : Int} (hm : m.IsExactly i)
    (h : n.equals m = true) : n.IsExactly i := by
  obtain ⟨t, size', rfl, -⟩ := hm.finite
  obtain ⟨hunits', hsign'⟩ := isExactly_finite_iff.1 hm
  cases n with
  | nan | infinite => cases h
  | finite s size =>
    obtain ⟨hunits, hsign⟩ := equals_finite_iff.1 h
    refine isExactly_finite_iff.2 ⟨hunits.trans hunits', ?_⟩
    rcases hsign with rfl | hzero
    · exact hsign'
    · rw [hunits, hunits', Nat.mul_eq_zero, or_iff_left unitsInOne_pos.ne', Int.natAbs_eq_zero]
        at hzero
      exact ⟨fun _ => hzero.le, fun _ => hzero.ge⟩

/-- Up to `2 ^ 53` an integer is equal to a number only if the number is that integer. -/
theorem equals_ofNat_iff {n : Number} {i : Nat} (hi : i ≤ 2 ^ 53) :
    n.equals (ofNat i) = true ↔ n.IsExactly i :=
  ⟨(isExactly_ofNat hi).of_equals, fun h => (h.equals_iff (isExactly_ofNat hi)).2 rfl⟩

/-- From `2 ^ 53` on numbers are even. -/
theorem IsExactly.two_dvd {n : Number} {i : Nat} (h : n.IsExactly i) (hi : 2 ^ 53 ≤ i) :
    2 ∣ i := by
  obtain ⟨negative, size, rfl, -⟩ := h.finite
  obtain ⟨hunits, -⟩ := isExactly_finite_iff.1 h
  have hdvd := size.spacing_dvd
  rw [hunits, Int.natAbs_natCast] at hdvd
  unfold unitsInOne at hdvd
  generalize 1074 = exponent at hdvd
  have hlow : 2 ^ (53 + exponent) ≤ i * Nat.pow 2 exponent := by
    rw [Nat.pow_add]
    exact Nat.mul_le_mul_right _ hi
  have hspacing : exponent + 1 ≤ Magnitude.spacing (i * Nat.pow 2 exponent) := by
    rcases Magnitude.spacing_cases (i * Nat.pow 2 exponent) with ⟨-, hhigh⟩ | ⟨-, hhigh⟩
    · have hpower := (Nat.pow_lt_pow_iff_right (by decide)).1 (hlow.trans_lt hhigh)
      omega
    · have hpower := (Nat.pow_lt_pow_iff_right (by decide)).1 (hlow.trans_lt hhigh)
      omega
  have hstep : 2 ^ exponent * 2 ∣ 2 ^ exponent * i := by
    rw [← Nat.pow_succ, Nat.mul_comm _ i]
    exact (Nat.pow_dvd_pow 2 hspacing).trans hdvd
  exact Nat.dvd_of_mul_dvd_mul_left (Nat.two_pow_pos exponent) hstep

/-- So an integer and the next one are both numbers only below that. -/
theorem IsExactly.lt_of_succ {n next : Number} {i : Nat} (h : n.IsExactly i)
    (hnext : next.IsExactly (i + 1 : Nat)) : i < 2 ^ 53 := by
  by_contra hle
  have heven := h.two_dvd (Nat.le_of_not_lt hle)
  have heven' := hnext.two_dvd (Nat.le_succ_of_le (Nat.le_of_not_lt hle))
  omega

theorem equals_iff_signedUnits {s t : Bool} {size size' : Magnitude} :
    (finite s size).equals (finite t size') = true ↔ signedUnits s size = signedUnits t size' := by
  rw [equals_finite_iff]
  unfold signedUnits
  cases s <;> cases t <;> simp <;> omega

theorem atMost_iff_signedUnits {s t : Bool} {size size' : Magnitude} :
    (finite s size).atMost (finite t size') = true ↔ signedUnits s size ≤ signedUnits t size' := by
  rw [atMost, Bool.or_eq_true, equals_iff_signedUnits, below, decide_eq_true_iff,
    Int.le_iff_lt_or_eq]

/-- What is equal to an integer from `2 ^ 53` on is at least `2 ^ 53`. -/
theorem atMost_of_equals {n : Number} {i : Nat} (hi : 2 ^ 53 ≤ i)
    (h : n.equals (ofNat i) = true) : (ofNat (2 ^ 53)).atMost n = true := by
  have hlimit : ofNat (2 ^ 53) = .finite false ⟨_, representable_whole le_rfl⟩ :=
    ofRatio_of_representable (representable_whole le_rfl) false
  rw [hlimit]
  unfold ofNat ofRatio at h
  split at h
  · cases n with
    | nan | infinite => cases h
    | finite s size =>
      rw [atMost_iff_signedUnits, equals_iff_signedUnits.1 h]
      have hmono : Magnitude.roundUnits (2 ^ 53 * unitsInOne) 1 ≤
          Magnitude.roundUnits (i * unitsInOne) 1 :=
        Magnitude.roundUnits_mono Nat.one_pos Nat.one_pos
          (Nat.mul_le_mul_right _ (Nat.mul_le_mul_right _ hi))
      rw [Magnitude.roundUnits_units ⟨_, representable_whole le_rfl⟩] at hmono
      exact Int.ofNat_le.2 hmono
  · cases n with
    | nan | finite => cases h
    | infinite s => rw [equals_infinite_iff.1 h]; rfl

end Number

end StaticConfig
