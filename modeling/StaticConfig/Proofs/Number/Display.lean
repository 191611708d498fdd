import StaticConfig.Proofs.Number.Shortest

/-!
# The text of numbers

In strings and messages a number is written with the digits of its shortest decimal. The place of
their point decides how they stand, by the rules of `Decimal.Written`. The number itself is
compared with `1e-6` and `1e21`, though, and next to these bounds the shortest decimal could lie on
the other side than the number. It never does (`Decimal.lt_point_shortest_iff`).
-/

namespace StaticConfig

namespace Decimal

/-! ### Where the point stands -/

/-- A number reaches the one nearest to a power of ten exactly if its shortest decimal reaches the
power of ten, as long as nine tenths of the power are read as another number. -/
theorem lt_point_shortest_iff {size : Magnitude} {tie : Tie} {exponent : ℤ}
    (hpos : 0 < size.units) (hgap : units ⟨9, exponent - 1⟩ < units ⟨1, exponent⟩) :
    exponent < (shortest tie size).point ↔ units ⟨1, exponent⟩ ≤ size.units := by
  have hshortest := isShortest_shortest tie hpos
  have hunits := units_shortest tie hpos
  generalize shortest tie size = d at hshortest hunits ⊢
  have hdigits := digits_ne_zero hpos hunits
  have hpower : value ⟨1, exponent⟩ = (10 : ℚ) ^ exponent := by
    rw [value, Nat.cast_one, one_mul]
  rw [lt_point_iff hdigits, ← hpower, ← hunits]
  refine ⟨units_mono, fun h => ?_⟩
  by_contra hbelow
  rw [not_le] at hbelow
  -- Both decimals are read as the number, so the one below the power of ten has one digit, too.
  have hsame : units ⟨1, exponent⟩ = size.units :=
    Nat.le_antisymm (h.trans (Nat.le_of_eq hunits)) (hunits ▸ units_mono hbelow.le)
  have hlength : d.length ≤ 1 := by
    have hfewest := hshortest.fewest _ (Number.ofDecimal_eq_finite_iff.2 hsame)
    rwa [length_of_lt_ten exponent (by decide)] at hfewest
  have hdigit : d.digits < 10 ^ 1 :=
    Nat.lt_of_lt_of_le d.digits_lt (Nat.pow_le_pow_right (by decide) hlength)
  have hexponent : d.exponent < exponent := by
    by_contra hge
    refine absurd (value_mono ?_ (Int.not_lt.1 hge)) (not_le.2 hbelow)
    exact Nat.one_le_iff_ne_zero.2 hdigits
  have hnine : d.value ≤ value ⟨9, exponent - 1⟩ := by
    refine value_mono ?_ ?_
    · show d.digits ≤ 9
      omega
    · show d.exponent ≤ exponent - 1
      omega
  have hless := units_mono hnine
  omega

/-- The bounds of positional notation, by the number and by the place of the point. -/
theorem positional_iff {size : Magnitude} {tie : Tie} (hpos : 0 < size.units) :
    leastPositional ≤ size.units ∧ size.units < positionalLimit ↔
      -6 < (shortest tie size).point ∧ (shortest tie size).point ≤ 21 := by
  have hlow : units ⟨1, -6⟩ = leastPositional := by decide +kernel
  have hhigh : units ⟨1, 21⟩ = positionalLimit := by decide +kernel
  have hgapLow : units ⟨9, -6 - 1⟩ < units ⟨1, -6⟩ := by decide +kernel
  have hgapHigh : units ⟨9, 21 - 1⟩ < units ⟨1, 21⟩ := by decide +kernel
  rw [← hlow, ← hhigh, ← lt_point_shortest_iff hpos hgapLow, ← Nat.not_le,
    ← lt_point_shortest_iff hpos hgapHigh, Int.not_lt]

end Decimal

/-! ### The text of a number -/

/-- The digits are laid out as the place of the point says. -/
theorem Magnitude.display_eq_render {size : Magnitude} (hpos : 0 < size.units) :
    size.display = Layout.display.render (Decimal.shortest .up size) := by
  have hiff := @Decimal.positional_iff size .up hpos
  unfold Magnitude.display Layout.render
  dsimp only
  by_cases h : leastPositional ≤ size.units ∧ size.units < positionalLimit
  · rw [if_pos h]
    exact (if_pos (hiff.1 h)).symm
  · rw [if_neg h]
    exact (if_neg (mt hiff.2 h)).symm

namespace Decimal

/-- The digits with a point after the first one, if there are more. -/
def mantissa : List Char → List Char
  | first :: rest => if rest = [] then [first] else first :: '.' :: rest
  | [] => []

/-- How `0.digits · 10 ^ point` is written. -/
inductive Written (digits : List Char) (point : ℤ) : List Char → Prop
  /-- All digits stand before the point, with zeros after them as needed. -/
  | padded : digits.length ≤ point → point ≤ 21 →
      Written digits point (digits ++ List.replicate (point - digits.length).toNat '0')
  /-- The point stands between two digits. -/
  | inside : 0 < point → point < digits.length → point ≤ 21 →
      Written digits point (digits.take point.toNat ++ '.' :: digits.drop point.toNat)
  /-- The point stands before all digits, with zeros after it as needed. -/
  | leading : -6 < point → point ≤ 0 →
      Written digits point ('0' :: '.' :: List.replicate (-point).toNat '0' ++ digits)
  /-- The digits stand far from the point, and the exponent says how far. -/
  | scientific : point ≤ -6 ∨ 21 < point →
      Written digits point (mantissa digits ++
        'e' :: (if 0 < point then '+' else '-') :: Nat.toDigits 10 (point - 1).natAbs)

theorem written_render (d : Decimal) :
    Written d.text d.point (Layout.display.render d) := by
  have hlow : Layout.display.low = -6 := rfl
  have hhigh : Layout.display.high = 21 := rfl
  unfold Layout.render
  rw [hlow, hhigh]
  split
  · rename_i hpositional
    unfold Layout.positional
    split
    · exact .leading hpositional.1 (by assumption)
    · split
      · rename_i hpoint hlength
        have hzeros : d.point.toNat - d.text.length = (d.point - d.text.length).toNat := by omega
        rw [hzeros]
        have hwhole : Layout.display.markWhole = false := rfl
        rw [hwhole, if_neg Bool.false_ne_true, List.append_nil]
        exact .padded hlength hpositional.2
      · exact .inside (by omega) (by omega) hpositional.2
  · rename_i hscientific
    unfold Layout.scientific
    have hsign : (if d.point - 1 < 0 then ['-'] else
        if Layout.display.signExponent = true then ['+'] else []) =
          [if 0 < d.point then '+' else '-'] := by
      have hsigned : Layout.display.signExponent = true := rfl
      rw [hsigned, if_pos rfl]
      split <;> split <;> first | rfl | omega
    have hmantissa : d.text.take 1 ++
        (if d.text.length ≤ 1 then [] else '.' :: d.text.drop 1) = mantissa d.text := by
      cases d.text with
      | nil => rfl
      | cons first rest =>
        cases rest with
        | nil => rfl
        | cons => rfl
    dsimp only
    rw [hsign, hmantissa]
    simp only [List.cons_append, List.append_assoc, List.nil_append]
    exact .scientific (by omega)

end Decimal

namespace Number

theorem text_finite (negative : Bool) (size : Magnitude) : (finite negative size).text =
    if size.units = 0 then ['0']
    else (if negative then ['-'] else []) ++ Layout.display.render (Decimal.shortest .up size) := by
  by_cases hzero : size.units = 0
  · rw [if_pos hzero]
    exact if_pos hzero
  · rw [if_neg hzero, ← Magnitude.display_eq_render (Nat.pos_of_ne_zero hzero)]
    exact if_neg hzero

/-- **Numbers are written by the place of their point.** The two zeros are `0`, and `nan` and the
infinities have names. Any other finite number has the digits of a shortest decimal: one that is
read as the number, of fewest digits, and the nearest of those. They stand positionally where the
point is at most 21 places after the first digit and at most five zeros precede it, and in
scientific notation elsewhere. -/
theorem toString_written :
    nan.toString = "NaN" ∧ (infinite false).toString = "Infinity" ∧
      (infinite true).toString = "-Infinity" ∧
      ∀ (negative : Bool) (size : Magnitude),
        (size.units = 0 → (finite negative size).toString = "0") ∧
        (0 < size.units → ∃ (d : Decimal) (digits body : List Char), d.IsShortest size ∧
          digits = Nat.toDigits 10 d.digits ∧
          Decimal.Written digits (digits.length + d.exponent) body ∧
          (finite negative size).toString =
            String.ofList ((if negative then ['-'] else []) ++ body)) := by
  refine ⟨rfl, rfl, rfl, fun negative size => ⟨fun hzero => ?_, fun hpos => ?_⟩⟩
  · rw [toString, text_finite, if_pos hzero]
  · have hwritten := (Decimal.shortest .up size).written_render
    rw [Decimal.point, Decimal.length_eq] at hwritten
    refine ⟨Decimal.shortest .up size, _, _, Decimal.isShortest_shortest .up hpos, rfl, hwritten,
      ?_⟩
    rw [toString, text_finite, if_neg hpos.ne']

/-- The number before `1e21`. -/
def belowLimit : Magnitude where
  units := 7629394531249999 * Nat.pow 2 1091
  representable := ⟨by decide +kernel, 7629394531249999, 1091, by decide, by decide +kernel⟩

/-- Next to the bound the digits still stand positionally. -/
theorem toString_written_belowLimit :
    ∃ (d : Decimal) (digits body : List Char), d.IsShortest belowLimit ∧
      digits = Nat.toDigits 10 d.digits ∧
      Decimal.Written digits (digits.length + d.exponent) body ∧
      String.ofList body = "999999999999999900000" := by
  have hpos : 0 < belowLimit.units := by decide +kernel
  have htext : (finite false belowLimit).toString = "999999999999999900000" := by decide +kernel
  obtain ⟨-, -, -, hfinite⟩ := toString_written
  obtain ⟨d, digits, body, hshortest, hdigits, hwritten, hbody⟩ := (hfinite false belowLimit).2 hpos
  exact ⟨d, digits, body, hshortest, hdigits, hwritten, hbody.symm.trans htext⟩

end Number

end StaticConfig
