import StaticConfig.Proofs.Number.Grammar
import StaticConfig.Proofs.Number.Radix
import StaticConfig.Proofs.Number.Value

/-!
# Texts without a radix mark

Conversion of a text to a number ignores the blanks around it. What is left, if no radix mark starts
it, is read by the grammar of decimals, and the number is the value of the decimal, correctly
rounded. `Number.ofText_decimal` says so of every text.
-/

namespace StaticConfig

namespace Number

/-! ### Decimals and names -/

/-- No radix mark starts the text. -/
def NoRadixMark (cs : List Char) : Prop :=
  ∀ entry ∈ radixMarks, ∀ rest, cs ≠ '0' :: entry.1 :: rest

theorem ofText_of_noRadixMark {cs body : List Char} (htrim : Trimmed isBlank cs body)
    (hradix : NoRadixMark body) (hne : body ≠ []) : ofText cs = ofSigned body := by
  unfold ofText
  rw [htrim.trimEnds_eq]
  split
  · exact absurd rfl hne
  · rename_i mark rest
    have hmark (entry : Char × Nat) (hentry : entry ∈ radixMarks) : mark ≠ entry.1 := by
      rintro rfl
      exact hradix entry hentry rest rfl
    simp only [radixMarks, List.forall_mem_cons] at hmark
    obtain ⟨hx, hX, ho, hO, hb, hB, -⟩ := hmark
    rw [if_neg (not_or.2 ⟨hx, hX⟩), if_neg (not_or.2 ⟨ho, hO⟩), if_neg (not_or.2 ⟨hb, hB⟩)]
  · rfl

theorem isBlank_of_isDecimalChar {c : Char} (h : isDecimalChar c = true) : isBlank c = false := by
  have hcode : (48 ≤ c.toNat ∧ c.toNat ≤ 57) ∨ c.toNat ∈ [46, 101, 69, 43, 45] := by
    simp only [isDecimalChar, Bool.or_eq_true, List.contains_iff_mem, List.mem_cons,
      List.not_mem_nil, or_false] at h
    rcases h with hdigit | rfl | rfl | rfl | rfl | rfl
    · exact .inl (Char.isDigit_iff_toNat.1 hdigit)
    all_goals decide
  simp only [List.mem_cons, List.not_mem_nil, or_false] at hcode
  simp only [isBlank, Bool.or_eq_false_iff, Bool.and_eq_false_iff, decide_eq_false_iff_not,
    beq_eq_false_iff_ne]
  omega

theorem noRadixMark_of_isDecimalChar {cs : List Char} (h : ∀ c ∈ cs, isDecimalChar c = true) :
    NoRadixMark cs := by
  rintro entry hentry rest rfl
  have hmark : isDecimalChar entry.1 = true := h entry.1 (by simp)
  have hletters : ∀ entry ∈ radixMarks, isDecimalChar entry.1 = false := by decide
  rw [hletters entry hentry] at hmark
  cases hmark

/-- A signed decimal has no blanks to trim and no radix mark. -/
theorem ofText_of_form {negative : Bool} {unsigned cs : List Char} {d : Decimal}
    (hsigned : Signed negative unsigned cs) (hform : Decimal.Form unsigned d) :
    ofText cs = ofDecimal negative d := by
  have hchars : ∀ c ∈ cs, isDecimalChar c = true := by
    cases hsigned with
    | plain => exact hform.isDecimalChar
    | plus | minus => exact List.forall_mem_cons.2 ⟨rfl, hform.isDecimalChar⟩
  have htrim : Trimmed isBlank cs cs :=
    trimmed_of_forall fun c hc => isBlank_of_isDecimalChar (hchars c hc)
  have hne : cs ≠ [] := by
    rintro rfl
    cases hsigned
    obtain ⟨first, rest, hnil, -⟩ := hform.head
    cases hnil
  rw [ofText_of_noRadixMark htrim (noRadixMark_of_isDecimalChar hchars) hne,
    ofSigned_of_form hsigned hform]

theorem ofDecimal_ne_nan (negative : Bool) (d : Decimal) : ofDecimal negative d ≠ .nan := by
  intro h
  cases ofDecimal_eq_iff.1 h

/-- **Texts without a radix mark are read by the grammar of decimals.** The empty text is zero and
`Infinity` after an optional sign an infinity. A signed decimal is its value, rounded to the nearest
number, ties to even, or to an infinity from the overflow bound on. No other text is a number. -/
theorem ofText_decimal (cs : List Char) :
    (∃! body, Trimmed isBlank cs body) ∧ ∀ body, Trimmed isBlank cs body → NoRadixMark body →
      (body = [] → ofText cs = .finite false .zero) ∧
      (∀ negative, Signed negative "Infinity".toList body → ofText cs = .infinite negative) ∧
      (∀ negative unsigned d n, Signed negative unsigned body → Decimal.Form unsigned d →
        (ofText cs = n ↔ Rounds negative d.numerator d.denominator n)) ∧
      (ofText cs = .nan ↔ body ≠ [] ∧
        (∀ negative, ¬ Signed negative "Infinity".toList body) ∧
        ∀ negative unsigned d, Signed negative unsigned body → ¬ Decimal.Form unsigned d) := by
  refine ⟨⟨_, trimmed_trimEnds isBlank cs, fun _ h => h.trimEnds_eq.symm⟩, ?_⟩
  intro body htrim hradix
  have hempty (hbody : body = []) : ofText cs = .finite false .zero := by
    rw [ofText, htrim.trimEnds_eq, hbody]
  have hinfinity (negative : Bool) (h : Signed negative "Infinity".toList body) :
      ofText cs = .infinite negative := by
    have hne : body ≠ [] := by
      rintro rfl
      cases h
    rw [ofText_of_noRadixMark htrim hradix hne, ofSigned_of_infinity h]
  have hdecimal (negative : Bool) (unsigned : List Char) (d : Decimal)
      (hsigned : Signed negative unsigned body) (hform : Decimal.Form unsigned d) :
      ofText cs = ofDecimal negative d := by
    have hne : body ≠ [] := by
      rintro rfl
      cases hsigned
      obtain ⟨first, rest, hnil, -⟩ := hform.head
      cases hnil
    rw [ofText_of_noRadixMark htrim hradix hne, ofSigned_of_form hsigned hform]
  -- Whatever has one of the forms is a number, so a text that is none has none of them.
  refine ⟨hempty, hinfinity, fun negative unsigned d n hsigned hform => ?_, fun hnan => ?_, ?_⟩
  · rw [hdecimal negative unsigned d hsigned hform, ofDecimal_eq_iff]
  · refine ⟨fun hbody => ?_, fun negative h => ?_, fun negative unsigned d hsigned hform => ?_⟩
    · cases (hempty hbody).symm.trans hnan
    · cases (hinfinity negative h).symm.trans hnan
    · exact ofDecimal_ne_nan negative d ((hdecimal _ _ d hsigned hform).symm.trans hnan)
  · rintro ⟨hne, hnoInfinity, hnoForm⟩
    rw [ofText_of_noRadixMark htrim hradix hne, ofSigned_of_forall_not hnoInfinity hnoForm]

/-- Blanks, a sign, a point and an exponent around digits, and a value beyond all finite numbers. -/
theorem ofText_decimal_overflow : ofText " -12.5E+400\n".toList = .infinite true := by
  have htrim : Trimmed isBlank " -12.5E+400\n".toList "-12.5E+400".toList :=
    trimmed_iff.2 (by decide)
  have hradix : NoRadixMark "-12.5E+400".toList := by
    rintro entry - rest heq
    cases heq
  have hform : Decimal.Form "12.5E+400".toList ⟨125, 399⟩ :=
    Decimal.read?_eq_some_iff.1 (by decide)
  have hbeyond : Magnitude.overflowBound * Decimal.denominator ⟨125, 399⟩ ≤
      Decimal.numerator ⟨125, 399⟩ := by decide +kernel
  obtain ⟨-, hrules⟩ := ofText_decimal " -12.5E+400\n".toList
  obtain ⟨-, -, hdecimal, -⟩ := hrules _ htrim hradix
  exact (hdecimal true _ _ _ .minus hform).2 (.infinite hbeyond)

/-- Names of the full notation other than `Infinity` are let through in no case. -/
example : ofText "inf".toList = .nan ∧ ofText "infinity".toList = .nan ∧
    ofText "NaN".toList = .nan := by decide

end Number

end StaticConfig
