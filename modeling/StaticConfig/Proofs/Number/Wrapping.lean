import Mathlib.Data.Int.ModEq
import StaticConfig.Evaluation.Operation
import StaticConfig.Proofs.Number.Equality
import StaticConfig.Proofs.Number.Value

/-!
# Wrapping around to words of 32 bits

An integer of at most 53 bits is a number, and so is the whole part of any finite number. On such
numbers (`Number.IsExactly`) the remainder, the sum and the comparisons are those of the integers,
so `Number.toInt32` computes without rounding (`Number.toInt32_exact`). Its result is the one word
that is congruent to the whole part, and the complement of a value is `-1` minus that word.
-/

namespace StaticConfig

/-! ### Whole magnitudes -/

theorem representable_whole {count : Nat} (h : count ≤ 2 ^ 53) :
    Representable (count * unitsInOne) := by
  have hexponents : 53 + 1074 < limitExponent := by decide
  unfold Representable unitsInOne unitsLimit
  generalize 1074 = exponent, limitExponent = limit at hexponents ⊢
  refine ⟨?_, count, exponent, h, rfl⟩
  calc count * Nat.pow 2 exponent ≤ 2 ^ 53 * 2 ^ exponent := Nat.mul_le_mul_right _ h
    _ = 2 ^ (53 + exponent) := (Nat.pow_add 2 53 exponent).symm
    _ < 2 ^ limit := Nat.pow_lt_pow_right (by decide) hexponents

/-- The whole part of a magnitude is a magnitude: there is no fraction to cut off, or at most 53
bits stand before it. -/
theorem representable_truncated (size : Magnitude) :
    Representable (size.units / unitsInOne * unitsInOne) := by
  obtain ⟨-, mantissa, shift, hmantissa, hunits⟩ := size.representable
  by_cases hwhole : unitsInOne ∣ size.units
  · rw [Nat.div_mul_cancel hwhole]
    exact size.representable
  · refine representable_whole (Nat.div_le_of_le_mul ?_)
    have hpower : Nat.pow 2 shift ≤ unitsInOne := by
      unfold unitsInOne at hwhole ⊢
      generalize 1074 = exponent at hwhole ⊢
      refine Nat.pow_le_pow_right (by decide) (Nat.le_of_not_le fun hshift => hwhole ?_)
      rw [hunits]
      exact Dvd.dvd.mul_left (Nat.pow_dvd_pow 2 hshift) mantissa
    rw [hunits, Nat.mul_comm]
    exact Nat.mul_le_mul hpower hmantissa

namespace Number

/-- What is a magnitude is not rounded. -/
theorem ofRatio_of_representable {units : Nat} (h : Representable units) (negative : Bool) :
    ofRatio negative units 1 = .finite negative ⟨units, h⟩ :=
  ofRatio_eq_finite_iff.2 (Magnitude.roundUnits_units ⟨units, h⟩)

/-! ### Numbers that are integers -/

theorem intCast_unitsInOne_pos : (0 : Int) < unitsInOne := Int.ofNat_lt.2 unitsInOne_pos

/-- The number is this integer. -/
def IsExactly (n : Number) (k : Int) : Prop := n.units? = some (k * unitsInOne)

theorem natAbs_signedUnits (negative : Bool) (size : Magnitude) :
    (signedUnits negative size).natAbs = size.units := by
  unfold signedUnits
  split <;> simp

/-- Its size is that many ones, and its sign is not the opposite one. -/
theorem isExactly_finite_iff {negative : Bool} {size : Magnitude} {k : Int} :
    (finite negative size).IsExactly k ↔ size.units = k.natAbs * unitsInOne ∧
      (negative = true → k ≤ 0) ∧ (negative = false → 0 ≤ k) := by
  have hpos := intCast_unitsInOne_pos
  unfold IsExactly units?
  rw [Option.some_inj]
  constructor
  · intro h
    refine ⟨?_, ?_, ?_⟩
    · rw [← natAbs_signedUnits negative, h, Int.natAbs_mul, Int.natAbs_natCast]
    · rintro rfl
      have hsize : signedUnits true size ≤ 0 := Int.neg_nonpos_of_nonneg (Int.natCast_nonneg _)
      exact nonpos_of_mul_nonpos_left (h ▸ hsize) hpos
    · rintro rfl
      have hsize : 0 ≤ signedUnits false size := Int.natCast_nonneg _
      exact nonneg_of_mul_nonneg_left (h ▸ hsize) hpos
  · rintro ⟨hunits, hnegative, hpositive⟩
    cases negative with
    | true =>
      show -(size.units : Int) = k * unitsInOne
      rw [hunits, Int.natCast_mul, Int.ofNat_natAbs_of_nonpos (hnegative rfl), Int.neg_mul,
        Int.neg_neg]
    | false =>
      show (size.units : Int) = k * unitsInOne
      rw [hunits, Int.natCast_mul, Int.natAbs_of_nonneg (hpositive rfl)]

/-- A number that is an integer is finite. -/
theorem IsExactly.finite {n : Number} {k : Int} (h : n.IsExactly k) :
    ∃ negative size, n = .finite negative size ∧ signedUnits negative size = k * unitsInOne := by
  cases n with
  | nan | infinite => cases h
  | finite negative size => exact ⟨negative, size, rfl, Option.some.inj h⟩

/-- What rounds an integer of at most 53 bits, with its sign, is that integer. -/
theorem isExactly_ofRatio {negative : Bool} {k : Int} (h : k.natAbs ≤ 2 ^ 53)
    (hnegative : negative = true → k ≤ 0) (hpositive : negative = false → 0 ≤ k) :
    (ofRatio negative (k.natAbs * unitsInOne) 1).IsExactly k := by
  rw [ofRatio_of_representable (representable_whole h)]
  exact isExactly_finite_iff.2 ⟨rfl, hnegative, hpositive⟩

theorem isExactly_ofNat {n : Nat} (h : n ≤ 2 ^ 53) : (ofNat n).IsExactly n := by
  have hexact := @isExactly_ofRatio false n h (by simp) (by simp)
  rwa [Int.natAbs_natCast] at hexact

theorem isExactly_ofInt {k : Int} (h : k.natAbs ≤ 2 ^ 53) : (ofInt k).IsExactly k := by
  cases k with
  | ofNat n => exact isExactly_ofNat h
  | negSucc n =>
    have hexact := @isExactly_ofRatio true (.negSucc n) h (fun _ => (Int.negSucc_lt_zero n).le)
      (by simp)
    rwa [Int.natAbs_negSucc] at hexact

theorem isExactly_ofUnits {negativeZero : Bool} {k : Int} (h : k.natAbs ≤ 2 ^ 53) :
    (ofUnits negativeZero (k * unitsInOne)).IsExactly k := by
  have hpos := intCast_unitsInOne_pos
  have hzero : k * unitsInOne = 0 ↔ k = 0 := by
    rw [Int.mul_eq_zero, or_iff_left hpos.ne']
  have hneg : k * unitsInOne < 0 ↔ k < 0 := by
    have hcancel := mul_lt_mul_iff_left₀ (b := k) (c := 0) hpos
    rwa [Int.zero_mul] at hcancel
  unfold ofUnits
  rw [Int.natAbs_mul, Int.natAbs_natCast]
  simp only [hzero, hneg]
  refine isExactly_ofRatio h (fun hsign => ?_) fun hsign => ?_ <;> split at hsign
  · omega
  · exact (of_decide_eq_true hsign).le
  · omega
  · exact Int.not_lt.1 (of_decide_eq_false hsign)

/-! ### Arithmetic without rounding -/

theorem IsExactly.add {a b : Number} {i j : Int} (ha : a.IsExactly i) (hb : b.IsExactly j)
    (h : (i + j).natAbs ≤ 2 ^ 53) : (a.add b).IsExactly (i + j) := by
  obtain ⟨s, m, rfl, hi⟩ := ha.finite
  obtain ⟨t, n, rfl, hj⟩ := hb.finite
  unfold Number.add
  dsimp only
  rw [hi, hj, ← Int.add_mul]
  exact isExactly_ofUnits h

theorem IsExactly.neg {a : Number} {i : Int} (ha : a.IsExactly i) : a.neg.IsExactly (-i) := by
  obtain ⟨s, m, rfl, -⟩ := ha.finite
  obtain ⟨hunits, hnegative, hpositive⟩ := isExactly_finite_iff.1 ha
  refine isExactly_finite_iff.2 ⟨?_, ?_, ?_⟩
  · rw [Int.natAbs_neg, hunits]
  · cases s <;> simp_all
  · cases s <;> simp_all

theorem IsExactly.sub {a b : Number} {i j : Int} (ha : a.IsExactly i) (hb : b.IsExactly j)
    (h : (i - j).natAbs ≤ 2 ^ 53) : (a.sub b).IsExactly (i - j) := ha.add hb.neg h

theorem IsExactly.abs {a : Number} {i : Int} (ha : a.IsExactly i) :
    a.abs.IsExactly i.natAbs := by
  obtain ⟨s, m, rfl, -⟩ := ha.finite
  obtain ⟨hunits, -, -⟩ := isExactly_finite_iff.1 ha
  exact isExactly_finite_iff.2 ⟨by rwa [Int.natAbs_natCast], by simp, by simp⟩

/-- The remainder is never longer than the divisor. -/
theorem IsExactly.rem {a b : Number} {i j : Int} (ha : a.IsExactly i) (hb : b.IsExactly j)
    (hne : j ≠ 0) (h : j.natAbs ≤ 2 ^ 53) : (a.rem b).IsExactly (i.tmod j) := by
  obtain ⟨s, m, rfl, -⟩ := ha.finite
  obtain ⟨t, n, rfl, -⟩ := hb.finite
  obtain ⟨hm, hnegative, hpositive⟩ := isExactly_finite_iff.1 ha
  obtain ⟨hn, -, -⟩ := isExactly_finite_iff.1 hb
  have hdivisor : n.units ≠ 0 := by
    rw [hn]
    exact Nat.mul_ne_zero (Int.natAbs_ne_zero.2 hne) unitsInOne_pos.ne'
  have hrest : m.units % n.units = (i.tmod j).natAbs * unitsInOne := by
    rw [hm, hn, Nat.mul_mod_mul_right, Int.natAbs_tmod]
  have hbound : (i.tmod j).natAbs ≤ 2 ^ 53 := by
    rw [Int.natAbs_tmod]
    exact (Nat.mod_lt _ (Int.natAbs_pos.2 hne)).le.trans h
  unfold Number.rem
  dsimp only
  rw [if_neg hdivisor, hrest]
  -- The remainder has the sign of the dividend, as that of the integers does.
  refine isExactly_ofRatio hbound (fun hs => ?_) fun hs => Int.tmod_nonneg j (hpositive hs)
  have hflip : 0 ≤ (-i).tmod j := Int.tmod_nonneg j (Int.neg_nonneg_of_nonpos (hnegative hs))
  rw [Int.neg_tmod] at hflip
  omega

theorem IsExactly.below_iff {a b : Number} {i j : Int} (ha : a.IsExactly i) (hb : b.IsExactly j) :
    a.below b = true ↔ i < j := by
  obtain ⟨s, m, rfl, hi⟩ := ha.finite
  obtain ⟨t, n, rfl, hj⟩ := hb.finite
  have hpos := intCast_unitsInOne_pos
  unfold below
  rw [decide_eq_true_iff, hi, hj]
  exact mul_lt_mul_iff_left₀ hpos

theorem IsExactly.equals_iff {a b : Number} {i j : Int} (ha : a.IsExactly i)
    (hb : b.IsExactly j) : a.equals b = true ↔ i = j := by
  obtain ⟨s, m, rfl, -⟩ := ha.finite
  obtain ⟨t, n, rfl, -⟩ := hb.finite
  obtain ⟨hm, hs, hs'⟩ := isExactly_finite_iff.1 ha
  obtain ⟨hn, ht, ht'⟩ := isExactly_finite_iff.1 hb
  have hpos := unitsInOne_pos
  have hzero : m.units = 0 ↔ i = 0 := by
    rw [hm, Nat.mul_eq_zero, or_iff_left hpos.ne', Int.natAbs_eq_zero]
  rw [equals_finite_iff, hzero, hm, hn, Nat.mul_left_inj hpos.ne']
  -- Numbers of opposite signs are equal only if both are zeros.
  cases s <;> cases t <;> simp only [reduceCtorEq, forall_const, false_implies] at hs hs' ht ht' <;>
    simp only [reduceCtorEq, true_or, false_or, and_true] <;> omega

theorem IsExactly.atMost_iff {a b : Number} {i j : Int} (ha : a.IsExactly i)
    (hb : b.IsExactly j) : a.atMost b = true ↔ i ≤ j := by
  rw [atMost, Bool.or_eq_true, ha.below_iff hb, ha.equals_iff hb, Int.le_iff_lt_or_eq]

/-- The remainder that is not negative is that of the integers. -/
theorem IsExactly.euclideanRem {a b : Number} {i j : Int} (ha : a.IsExactly i)
    (hb : b.IsExactly j) (hne : j ≠ 0) (h : j.natAbs ≤ 2 ^ 53) :
    (a.euclideanRem b).IsExactly (i % j) := by
  have hrest := ha.rem hb hne h
  have hzero : (0 : Number).IsExactly 0 := isExactly_ofNat (Nat.zero_le _)
  have hnonneg := Int.emod_nonneg i hne
  have hlt := Int.emod_lt i hne
  -- The two remainders differ by the divisor where the one with the sign is below zero.
  have hmod : i % j = if i.tmod j < 0 then i.tmod j + j.natAbs else i.tmod j := by
    have hadd := Int.emod_eq_tmod (a := i) (b := j)
    split at hadd <;> split <;> omega
  unfold Number.euclideanRem
  dsimp only
  simp only [hrest.below_iff hzero]
  by_cases hneg : i.tmod j < 0
  · rw [if_pos hneg] at hmod ⊢
    rw [hmod]
    exact hrest.add hb.abs (by omega)
  · rw [if_neg hneg] at hmod ⊢
    rw [hmod]
    exact hrest

theorem IsExactly.trunc?_eq {a : Number} {i : Int} (ha : a.IsExactly i) : a.trunc? = some i := by
  obtain ⟨s, m, rfl, -⟩ := ha.finite
  obtain ⟨hm, hnegative, hpositive⟩ := isExactly_finite_iff.1 ha
  have hcount : m.units / unitsInOne = i.natAbs := by
    rw [hm, Nat.mul_div_cancel _ unitsInOne_pos]
  cases s with
  | true =>
    show some (-((m.units / unitsInOne : Nat) : Int)) = some i
    rw [hcount, Int.ofNat_natAbs_of_nonpos (hnegative rfl), Int.neg_neg]
  | false =>
    show some ((m.units / unitsInOne : Nat) : Int) = some i
    rw [hcount, Int.natAbs_of_nonneg (hpositive rfl)]

/-- An integer in the range of a word is that word. -/
theorem IsExactly.clampInt32 {a : Number} {i : Int} (ha : a.IsExactly i) (hlow : -2 ^ 31 ≤ i)
    (hhigh : i < 2 ^ 31) : a.clampInt32.toInt = i := by
  obtain ⟨s, m, rfl, -⟩ := ha.finite
  unfold Number.clampInt32
  dsimp only
  rw [ha.trunc?_eq, Option.getD_some]
  have hmin : Int32.minValue.toInt = -2 ^ 31 := by decide
  have hmax : Int32.maxValue.toInt = 2 ^ 31 - 1 := by decide
  exact Int32.toInt_ofIntClamp (by omega) (by omega)

/-- The whole part is cut off without rounding. -/
theorem isExactly_trunc (negative : Bool) (size : Magnitude) :
    (finite negative size).trunc.IsExactly ((signedUnits negative size).tdiv unitsInOne) := by
  have hcount : ((signedUnits negative size).tdiv unitsInOne).natAbs =
      size.units / unitsInOne := by
    rw [Int.natAbs_tdiv, natAbs_signedUnits, Int.natAbs_natCast]
    rfl
  have htrunc : (finite negative size).trunc = .finite negative ⟨_, representable_truncated size⟩ :=
    ofRatio_of_representable (representable_truncated size) negative
  rw [htrunc]
  refine isExactly_finite_iff.2 ⟨by rw [hcount], fun hs => ?_, fun hs => ?_⟩
  · subst hs
    have hnonneg : 0 ≤ (size.units : Int).tdiv unitsInOne :=
      Int.tdiv_nonneg (Int.natCast_nonneg _) (Int.natCast_nonneg _)
    show (-(size.units : Int)).tdiv unitsInOne ≤ 0
    rw [Int.neg_tdiv]
    omega
  · subst hs
    exact Int.tdiv_nonneg (Int.natCast_nonneg _) (Int.natCast_nonneg _)

/-! ### The word of a number -/

theorem isExactly_wordCount : wordCount.IsExactly (2 ^ 32) := by
  have hcast : ((Nat.pow 2 32 : Nat) : Int) = 2 ^ 32 := by decide
  rw [wordCount, ← hcast]
  exact isExactly_ofNat (by decide)

theorem isExactly_wordLimit : wordLimit.IsExactly (2 ^ 31) := by
  have hcast : ((Nat.pow 2 31 : Nat) : Int) = 2 ^ 31 := by decide
  rw [wordLimit, ← hcast]
  exact isExactly_ofNat (by decide)

/-- Every step on the way to the word of a finite number is exact. -/
theorem toInt32_exact {negative : Bool} {size : Magnitude} {i : Int}
    (hi : i = (signedUnits negative size).tdiv unitsInOne) :
    let n := finite negative size
    n.trunc.IsExactly i ∧ (n.trunc.rem wordCount).IsExactly (i.tmod (2 ^ 32)) ∧
      (n.trunc.euclideanRem wordCount).IsExactly (i % 2 ^ 32) ∧
      ((n.trunc.euclideanRem wordCount).sub wordCount).IsExactly (i % 2 ^ 32 - 2 ^ 32) := by
  have htrunc := isExactly_trunc negative size
  rw [← hi] at htrunc
  have hrest := htrunc.euclideanRem isExactly_wordCount (by decide) (by decide)
  refine ⟨htrunc, htrunc.rem isExactly_wordCount (by decide) (by decide), hrest, ?_⟩
  exact hrest.sub isExactly_wordCount (by omega)

/-- The word of a finite number, as an integer. -/
theorem toInt_toInt32 {negative : Bool} {size : Magnitude} {i : Int}
    (hi : i = (signedUnits negative size).tdiv unitsInOne) :
    (finite negative size).toInt32.toInt =
      if 2 ^ 31 ≤ i % 2 ^ 32 then i % 2 ^ 32 - 2 ^ 32 else i % 2 ^ 32 := by
  obtain ⟨-, -, hwrapped, hword⟩ := toInt32_exact hi
  unfold toInt32
  dsimp only
  simp only [isExactly_wordLimit.atMost_iff hwrapped]
  split
  · exact hword.clampInt32 (by omega) (by omega)
  · exact hwrapped.clampInt32 (by omega) (by omega)

/-- The word is the integer in its range that is congruent to the whole part. -/
theorem toInt_toInt32_eq_iff {negative : Bool} {size : Magnitude} {k : Int} :
    (finite negative size).toInt32.toInt = k ↔ -2 ^ 31 ≤ k ∧ k < 2 ^ 31 ∧
      k ≡ (signedUnits negative size).tdiv unitsInOne [ZMOD 2 ^ 32] := by
  rw [toInt_toInt32 rfl]
  generalize (signedUnits negative size).tdiv unitsInOne = i
  unfold Int.ModEq
  split <;> omega

/-- A word is not changed by the way through the numbers. -/
theorem toInt32_ofInt (word : Int32) : (ofInt word.toInt).toInt32 = word := by
  have hlow := word.le_toInt
  have hhigh := word.toInt_lt
  have hexact : (ofInt word.toInt).IsExactly word.toInt := isExactly_ofInt (by omega)
  obtain ⟨negative, size, hfinite, hunits⟩ := hexact.finite
  rw [hfinite]
  rw [← Int32.toInt_inj, toInt_toInt32_eq_iff, hunits,
    Int.mul_tdiv_cancel _ (Int.ofNat_ne_zero.2 unitsInOne_pos.ne')]
  exact ⟨hlow, hhigh, Int.ModEq.refl _⟩

theorem toInt_complement (word : Int32) : (~~~word).toInt = -1 - word.toInt := by
  have hlow := word.le_toInt
  have hhigh := word.toInt_lt
  rw [Int32.toInt_not, Int.bmod_eq_of_le (by omega) (by omega)]
  omega

theorem apply_complement (v : Value) : UnaryOp.complement.apply v =
    .ok (.number (.ofInt (-1 - v.toNumber.toInt32.toInt))) := by
  rw [← toInt_complement]
  rfl

/-- The complement of a word. -/
theorem apply_complement_word (word : Int32) :
    UnaryOp.complement.apply (.number (.ofInt word.toInt)) =
      .ok (.number (.ofInt (~~~word).toInt)) := by
  rw [apply_complement, Value.toNumber, toInt32_ofInt, toInt_complement]

/-- **Conversion to a word wraps the whole part around, without rounding.** What is not finite is
zero. The whole part of a finite number, its remainders and their difference to `2 ^ 32` are
numbers, so no step rounds, and the result is the one word that is congruent to the whole part. The
complement of a value is `-1` minus its word, twice the complement is the word itself, and three
times the complement is the complement. -/
theorem toInt32_wraps :
    nan.toInt32 = 0 ∧ (∀ negative, (infinite negative).toInt32 = 0) ∧
      (∀ (negative : Bool) (size : Magnitude),
        let n := finite negative size
        let i := (signedUnits negative size).tdiv unitsInOne
        (n.trunc.IsExactly i ∧ (n.trunc.rem wordCount).IsExactly (i.tmod (2 ^ 32)) ∧
          (n.trunc.euclideanRem wordCount).IsExactly (i % 2 ^ 32) ∧
          ((n.trunc.euclideanRem wordCount).sub wordCount).IsExactly (i % 2 ^ 32 - 2 ^ 32)) ∧
        ∀ k, n.toInt32.toInt = k ↔ -2 ^ 31 ≤ k ∧ k < 2 ^ 31 ∧ k ≡ i [ZMOD 2 ^ 32]) ∧
      ∀ v : Value,
        let word := v.toNumber.toInt32.toInt
        let complement := UnaryOp.complement.apply
        complement v = .ok (.number (.ofInt (-1 - word))) ∧
        (complement v >>= complement) = .ok (.number (.ofInt word)) ∧
        (complement v >>= complement >>= complement) = complement v ∧
        (ofInt (-1 - word)).IsExactly (-1 - word) ∧ (ofInt word).IsExactly word := by
  refine ⟨rfl, fun _ => rfl, fun negative size => ⟨toInt32_exact rfl, fun k => ?_⟩, fun v => ?_⟩
  · exact toInt_toInt32_eq_iff
  · have honce : UnaryOp.complement.apply v =
        .ok (.number (.ofInt (~~~v.toNumber.toInt32).toInt)) := rfl
    have htwice : (UnaryOp.complement.apply v >>= UnaryOp.complement.apply) =
        .ok (.number (.ofInt v.toNumber.toInt32.toInt)) := by
      rw [honce]
      exact (apply_complement_word _).trans (by rw [Int32.not_not])
    have hlow := v.toNumber.toInt32.le_toInt
    have hhigh := v.toNumber.toInt32.toInt_lt
    refine ⟨apply_complement v, htwice, ?_, isExactly_ofInt (by omega), isExactly_ofInt (by omega)⟩
    rw [htwice, honce]
    exact apply_complement_word _

/-- `-2147483649.5` has the whole part `-2147483649`, which wraps around to the largest word. -/
example : (finite true ⟨4294967299 * Nat.pow 2 1073, by decide +kernel, 4294967299, 1073, by decide,
    by decide +kernel⟩).toInt32 = 2147483647 := by decide +kernel

end Number

end StaticConfig
