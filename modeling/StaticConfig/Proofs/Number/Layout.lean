import StaticConfig.Proofs.Number.Grammar

/-!
# Laid out digits read back

However a layout writes a decimal, the text is of the grammar of decimals, and what it stands for
is the decimal that was written. Only trailing zeros may have moved from the exponent into the
digits (`Layout.form_render`).
-/

namespace StaticConfig

/-! ### Digits -/

theorem isDigit_toDigits {n : Nat} : ∀ c ∈ Nat.toDigits 10 n, c.isDigit = true :=
  fun _ hc => Nat.isDigit_of_mem_toDigits (by decide) (by decide) hc

theorem ofDigitChars_toDigits (n : Nat) : Nat.ofDigitChars 10 (Nat.toDigits 10 n) 0 = n :=
  Nat.ofDigitChars_toDigits (by decide) (by decide)

theorem toDigits_ne_nil (n : Nat) : Nat.toDigits 10 n ≠ [] :=
  List.ne_nil_of_length_pos Nat.length_toDigits_pos

theorem denotes_of_isDigit {cs : List Char} (hne : cs ≠ []) (h : ∀ c ∈ cs, c.isDigit = true) :
    Denotes 10 cs (Nat.ofDigitChars 10 cs 0) :=
  readDigits?_ten_iff.1 (readDigits?_of_isDigit hne h)

theorem denotes_toDigits (n : Nat) : Denotes 10 (Nat.toDigits 10 n) n := by
  have hdenotes := denotes_of_isDigit (toDigits_ne_nil n) isDigit_toDigits
  rwa [ofDigitChars_toDigits] at hdenotes

theorem isDigit_replicate {count : Nat} : ∀ c ∈ List.replicate count '0', c.isDigit = true := by
  intro c hc
  rw [List.eq_of_mem_replicate hc]
  rfl

theorem ofDigitChars_zeros (digits : List Char) (count : Nat) :
    Nat.ofDigitChars 10 (digits ++ List.replicate count '0') 0 =
      Nat.ofDigitChars 10 digits 0 * 10 ^ count := by
  rw [Nat.ofDigitChars_append, Nat.ofDigitChars_replicate_zero, Nat.mul_comm]

theorem zeros_ofDigitChars (digits : List Char) (count : Nat) :
    Nat.ofDigitChars 10 (List.replicate count '0' ++ digits) 0 = Nat.ofDigitChars 10 digits 0 := by
  rw [Nat.ofDigitChars_append, Nat.ofDigitChars_replicate_zero, Nat.mul_zero]

namespace Decimal

/-- A decimal without an exponent part. -/
theorem Form.of_whole {whole : List Char} {digits : Nat} (h : Denotes 10 whole digits) :
    Form whole ⟨digits, 0⟩ := by
  have hform := Form.whole h .none
  rwa [List.append_nil] at hform

@[inherit_doc Form.of_whole]
theorem Form.of_point {whole fraction : List Char} {digits : Nat}
    (h : Denotes 10 (whole ++ fraction) digits) :
    Form (whole ++ '.' :: fraction) ⟨digits, -fraction.length⟩ := by
  have hform := Form.point h .none
  rwa [List.append_nil, Int.zero_sub] at hform

end Decimal

/-! ### The two ways of laying out digits -/

namespace Layout

variable (l : Layout)

theorem form_exponent (exponent : Int) :
    Decimal.ExponentForm
      ('e' :: (if exponent < 0 then ['-'] else if l.signExponent then ['+'] else []) ++
        Nat.toDigits 10 exponent.natAbs) exponent := by
  have hdigits := denotes_toDigits exponent.natAbs
  by_cases hsign : exponent < 0
  · rw [if_pos hsign]
    have hvalue : exponent = -(exponent.natAbs : Int) := by omega
    nth_rewrite 2 [hvalue]
    exact .minus (.inl rfl) hdigits
  · rw [if_neg hsign]
    have hvalue : exponent = (exponent.natAbs : Int) := by omega
    nth_rewrite 2 [hvalue]
    split
    · exact .plus (.inl rfl) hdigits
    · exact .plain (.inl rfl) hdigits

theorem form_scientific {digits : List Char} (hne : digits ≠ [])
    (hdigits : ∀ c ∈ digits, c.isDigit = true) (exponent : Int) :
    Decimal.Form (l.scientific digits exponent)
      ⟨Nat.ofDigitChars 10 digits 0, exponent + 1 - digits.length⟩ := by
  have hexponent := l.form_exponent exponent
  have hdenotes := denotes_of_isDigit hne hdigits
  obtain ⟨first, rest, rfl⟩ := List.exists_cons_of_ne_nil hne
  unfold scientific
  dsimp only
  split
  · rename_i hone
    obtain rfl : rest = [] := List.eq_nil_of_length_eq_zero (by simpa using hone)
    have hform := Decimal.Form.whole hdenotes hexponent
    have hlast : exponent + 1 - ([first].length : Int) = exponent := by simp
    rwa [hlast]
  · have hform := @Decimal.Form.point [first] rest _ _ _ hdenotes hexponent
    have hplaces : exponent + 1 - ((first :: rest).length : Int) = exponent - rest.length := by
      rw [List.length_cons]
      omega
    rw [hplaces]
    simpa using hform

/-- The point stands before all digits, after all digits, or between two of them. -/
theorem form_positional {digits : List Char} (hne : digits ≠ [])
    (hdigits : ∀ c ∈ digits, c.isDigit = true) (point : Int) :
    ∃ zeros : Nat, Decimal.Form (l.positional digits point)
      ⟨Nat.ofDigitChars 10 digits 0 * 10 ^ zeros, point - digits.length - zeros⟩ := by
  unfold positional
  split
  case isTrue hbefore =>
    -- Before all digits: a zero, the point and perhaps more zeros come first.
    have hall : ∀ c ∈ ['0'] ++ (List.replicate (-point).toNat '0' ++ digits),
        c.isDigit = true :=
      List.forall_mem_append.2
        ⟨@isDigit_replicate 1, List.forall_mem_append.2 ⟨isDigit_replicate, hdigits⟩⟩
    have hform := Decimal.Form.of_point (denotes_of_isDigit (by simp) hall)
    rw [Nat.ofDigitChars_append, show Nat.ofDigitChars 10 ['0'] 0 = 0 from rfl,
      zeros_ofDigitChars, List.length_append, List.length_replicate] at hform
    have hplaces : point - digits.length - (0 : Nat) =
        -(((-point).toNat + digits.length : Nat) : Int) := by omega
    refine ⟨0, ?_⟩
    rw [Nat.pow_zero, Nat.mul_one, hplaces]
    exact hform
  split
  case isTrue hafter =>
    -- After all digits: zeros fill the places up to the point.
    have hwhole := List.forall_mem_append.2
      ⟨hdigits, @isDigit_replicate (point.toNat - digits.length)⟩
    split
    · have hall := List.forall_mem_append.2 ⟨hwhole, @isDigit_replicate 1⟩
      have hform := Decimal.Form.of_point (denotes_of_isDigit (by simp) hall)
      rw [ofDigitChars_zeros, ofDigitChars_zeros, Nat.mul_assoc, ← Nat.pow_add] at hform
      refine ⟨point.toNat - digits.length + 1, ?_⟩
      have hplaces : point - digits.length - (point.toNat - digits.length + 1 : Nat) =
          -((List.replicate 1 '0').length : Int) := by
        rw [List.length_replicate]
        omega
      rw [hplaces]
      exact hform
    · have hform := Decimal.Form.of_whole (denotes_of_isDigit (by simp [hne]) hwhole)
      rw [ofDigitChars_zeros] at hform
      refine ⟨point.toNat - digits.length, ?_⟩
      have hplaces : point - digits.length - (point.toNat - digits.length : Nat) = 0 := by omega
      rwa [hplaces, List.append_nil]
  · -- Between two digits.
    have hsplit : digits.take point.toNat ++ digits.drop point.toNat = digits :=
      List.take_append_drop _ _
    have hform := Decimal.Form.of_point (hsplit.symm ▸ denotes_of_isDigit hne hdigits)
    rw [hsplit] at hform
    refine ⟨0, ?_⟩
    have hplaces : point - digits.length - (0 : Nat) =
        -((digits.drop point.toNat).length : Int) := by
      rw [List.length_drop]
      omega
    rwa [Nat.pow_zero, Nat.mul_one, hplaces]

/-- What a layout writes stands for the decimal that it writes, perhaps with more zeros. -/
theorem form_render (d : Decimal) :
    ∃ zeros : Nat, Decimal.Form (l.render d) ⟨d.digits * 10 ^ zeros, d.exponent - zeros⟩ := by
  have hlength : d.point = (Nat.toDigits 10 d.digits).length + d.exponent := by
    rw [Decimal.point, Decimal.length, Decimal.digitCount_eq_length]
  unfold render Decimal.text
  split
  · obtain ⟨zeros, hform⟩ :=
      l.form_positional (toDigits_ne_nil d.digits) isDigit_toDigits d.point
    refine ⟨zeros, ?_⟩
    rw [ofDigitChars_toDigits] at hform
    have hplaces : d.exponent - zeros =
        d.point - (Nat.toDigits 10 d.digits).length - zeros := by omega
    rwa [hplaces]
  · have hform := l.form_scientific (toDigits_ne_nil d.digits) isDigit_toDigits (d.point - 1)
    refine ⟨0, ?_⟩
    rw [ofDigitChars_toDigits] at hform
    have hplaces : d.exponent - (0 : Nat) =
        d.point - 1 + 1 - (Nat.toDigits 10 d.digits).length := by omega
    rwa [hplaces, Nat.pow_zero, Nat.mul_one]

end Layout

end StaticConfig
