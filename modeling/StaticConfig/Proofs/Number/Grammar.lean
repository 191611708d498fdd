import StaticConfig.Proofs.Number.Digits
import StaticConfig.Proofs.Text.Trimming

/-!
# The grammar of decimals

`Decimal.Form` and `Decimal.ExponentForm` are the grammar of unsigned decimal notation,

    (digits [. digits?] | . digits) ([eE] [+-]? digits)?

with the decimal that each text stands for, and `Decimal.read?` accepts exactly these texts
(`Decimal.read?_eq_some_iff`). The full notation of numbers knows more, but none of its names is
spelled with characters of decimals. So what is let through of it, besides `Infinity`, are the
signed decimals (`Number.ofSigned_eq`).
-/

namespace StaticConfig

/-! ### Runs of digits -/

/-- The text does not go on with a digit. -/
def EndsDigits (cs : List Char) : Prop := ∀ c ∈ cs.head?, c.isDigit = false

/-- What denotes a number to the base ten is a run of digits. -/
theorem Denotes.isDigit {cs : List Char} {n : Nat} (h : Denotes 10 cs n) :
    ∀ c ∈ cs, c.isDigit = true := by
  obtain ⟨values, -, hvalues, -⟩ := h
  induction hvalues with
  | nil => exact fun c hc => absurd hc List.not_mem_nil
  | cons hdigit _ ih =>
    refine List.forall_mem_cons.2 ⟨?_, ih⟩
    obtain ⟨hvalue, hcode⟩ := (isDigit_iff (by decide)).1 hdigit
    rw [if_pos hvalue] at hcode
    have hmarks : '0'.toNat = 48 ∧ '9'.toNat = 57 := by decide
    rw [Char.isDigit_iff_toNat]
    omega

theorem Denotes.ne_nil {radix n : Nat} {cs : List Char} (h : Denotes radix cs n) : cs ≠ [] := by
  rintro rfl
  obtain ⟨values, hne, hvalues, -⟩ := h
  exact hne (List.forall₂_nil_left_iff.1 hvalues)

theorem readDigits?_ten_iff {cs : List Char} {n : Nat} :
    readDigits? 10 cs = some n ↔ Denotes 10 cs n := readDigits?_eq_some_iff (by decide)

namespace Decimal

/-! ### Exponents -/

/-- The text is an exponent part: nothing, or the letter in either case, a sign perhaps, and
digits. -/
inductive ExponentForm : List Char → Int → Prop
  | none : ExponentForm [] 0
  | plain {letter : Char} {ds : List Char} {n : Nat} : letter = 'e' ∨ letter = 'E' →
      Denotes 10 ds n → ExponentForm (letter :: ds) n
  | plus {letter : Char} {ds : List Char} {n : Nat} : letter = 'e' ∨ letter = 'E' →
      Denotes 10 ds n → ExponentForm (letter :: '+' :: ds) n
  | minus {letter : Char} {ds : List Char} {n : Nat} : letter = 'e' ∨ letter = 'E' →
      Denotes 10 ds n → ExponentForm (letter :: '-' :: ds) (-n)

theorem readExponent?_plain {letter : Char} {ds : List Char} {n : Nat}
    (hletter : letter = 'e' ∨ letter = 'E') (h : Denotes 10 ds n) :
    readExponent? (letter :: ds) = some (n : Int) := by
  have hread := readDigits?_ten_iff.2 h
  simp only [readExponent?, hletter, if_true]
  split
  · exact absurd (h.isDigit '+' List.mem_cons_self) (by decide)
  · exact absurd (h.isDigit '-' List.mem_cons_self) (by decide)
  · rw [hread]
    rfl

theorem readExponent?_eq_some_iff {cs : List Char} {exponent : Int} :
    readExponent? cs = some exponent ↔ ExponentForm cs exponent := by
  constructor
  · intro h
    cases cs with
    | nil =>
      obtain rfl := Option.some.inj h
      exact .none
    | cons letter cs =>
      unfold readExponent? at h
      dsimp only at h
      split at h
      · rename_i hletter
        -- One case for each sign that may follow the letter.
        split at h <;>
          simp only [Option.map_eq_some_iff, Option.bind_eq_bind, Option.bind_eq_some_iff,
            Option.pure_def, Option.some_inj, readDigits?_ten_iff] at h
        all_goals obtain ⟨-, ⟨n, hdigits, rfl⟩, rfl⟩ := h
        · exact .plus hletter hdigits
        · exact .minus hletter hdigits
        · exact .plain hletter hdigits
      · cases h
  · intro h
    cases h with
    | none => rfl
    | plain hletter hdigits => exact readExponent?_plain hletter hdigits
    | plus hletter hdigits =>
      simp [readExponent?, hletter, readDigits?_ten_iff.2 hdigits]
    | minus hletter hdigits =>
      simp [readExponent?, hletter, readDigits?_ten_iff.2 hdigits]

theorem ExponentForm.endsDigits {cs : List Char} {exponent : Int} (h : ExponentForm cs exponent) :
    EndsDigits cs := by
  have hletters {letter : Char} (hletter : letter = 'e' ∨ letter = 'E') :
      letter.isDigit = false := by
    rcases hletter with rfl | rfl <;> rfl
  cases h with
  | none => simp [EndsDigits]
  | plain hletter | plus hletter | minus hletter => simp [EndsDigits, hletters hletter]

/-! ### Decimals -/

/-- The text is a decimal: digits with a point among, before or behind them, or none, and an
exponent part. -/
inductive Form : List Char → Decimal → Prop
  | whole {whole rest : List Char} {digits : Nat} {exponent : Int} :
      Denotes 10 whole digits → ExponentForm rest exponent →
      Form (whole ++ rest) ⟨digits, exponent⟩
  | point {whole fraction rest : List Char} {digits : Nat} {exponent : Int} :
      Denotes 10 (whole ++ fraction) digits → ExponentForm rest exponent →
      Form (whole ++ '.' :: (fraction ++ rest)) ⟨digits, exponent - fraction.length⟩

theorem Form.read? {cs : List Char} {d : Decimal} (h : Form cs d) : read? cs = some d := by
  cases h with
  | whole hdigits hexponent =>
    obtain ⟨htake, hdrop⟩ := span_append hdigits.isDigit hexponent.endsDigits
    have hread := readDigits?_ten_iff.2 hdigits
    have hrest := readExponent?_eq_some_iff.2 hexponent
    unfold Decimal.read?
    rw [htake, hdrop]
    cases hexponent with
    | none => simp [hread, hrest]
    | plain hletter | plus hletter | minus hletter =>
      rcases hletter with rfl | rfl <;> simp [hread, hrest]
  | point hdigits hexponent =>
    have hboth := List.forall_mem_append.1 hdigits.isDigit
    have hpoint {cs : List Char} : EndsDigits ('.' :: cs) := by simp [EndsDigits]
    obtain ⟨htake, hdrop⟩ := span_append hboth.1 hpoint
    obtain ⟨htake', hdrop'⟩ := span_append hboth.2 hexponent.endsDigits
    have hread := readDigits?_ten_iff.2 hdigits
    have hrest := readExponent?_eq_some_iff.2 hexponent
    unfold Decimal.read?
    rw [htake, hdrop]
    simp only [htake', hdrop', hread, hrest]
    rfl

/-- Reading accepts exactly the decimals of the grammar, and gives what they stand for. -/
theorem read?_eq_some_iff {cs : List Char} {d : Decimal} : read? cs = some d ↔ Form cs d := by
  refine ⟨fun h => ?_, Form.read?⟩
  have hsplit : cs.takeWhile Char.isDigit ++ cs.dropWhile Char.isDigit = cs :=
    List.takeWhile_append_dropWhile
  unfold Decimal.read? at h
  dsimp only at h
  generalize cs.takeWhile Char.isDigit = whole at h hsplit
  -- What follows the first digits decides between the two forms.
  split at h
  · rename_i rest hpoint
    have hsplit' : rest.takeWhile Char.isDigit ++ rest.dropWhile Char.isDigit = rest :=
      List.takeWhile_append_dropWhile
    rw [hpoint, ← hsplit'] at hsplit
    obtain ⟨digits, hdigits, exponent, hexponent, rfl⟩ :
        ∃ digits, readDigits? 10 (whole ++ rest.takeWhile Char.isDigit) = some digits ∧
          ∃ exponent, readExponent? (rest.dropWhile Char.isDigit) = some exponent ∧
            Decimal.mk digits (exponent - (rest.takeWhile Char.isDigit).length) = d := by
      simpa [Option.bind_eq_some_iff] using h
    rw [← hsplit]
    exact .point (readDigits?_ten_iff.1 hdigits) (readExponent?_eq_some_iff.1 hexponent)
  · obtain ⟨digits, hdigits, exponent, hexponent, rfl⟩ :
        ∃ digits, readDigits? 10 whole = some digits ∧
          ∃ exponent, readExponent? (cs.dropWhile Char.isDigit) = some exponent ∧
            Decimal.mk digits exponent = d := by
      simpa [Option.bind_eq_some_iff] using h
    rw [← hsplit]
    exact .whole (readDigits?_ten_iff.1 hdigits) (readExponent?_eq_some_iff.1 hexponent)

/-! ### The characters of decimals -/

theorem isDecimalChar_of_isDigit {c : Char} (h : c.isDigit = true) :
    Number.isDecimalChar c = true := by
  simp [Number.isDecimalChar, h]

theorem ExponentForm.isDecimalChar {cs : List Char} {exponent : Int}
    (h : ExponentForm cs exponent) : ∀ c ∈ cs, Number.isDecimalChar c = true := by
  have hletters {letter : Char} (hletter : letter = 'e' ∨ letter = 'E') :
      Number.isDecimalChar letter = true := by
    rcases hletter with rfl | rfl <;> rfl
  cases h with
  | none => exact fun c hc => absurd hc List.not_mem_nil
  | plain hletter hdigits =>
    exact List.forall_mem_cons.2
      ⟨hletters hletter, fun c hc => isDecimalChar_of_isDigit (hdigits.isDigit c hc)⟩
  | plus hletter hdigits | minus hletter hdigits =>
    refine List.forall_mem_cons.2 ⟨hletters hletter, List.forall_mem_cons.2 ⟨rfl, fun c hc => ?_⟩⟩
    exact isDecimalChar_of_isDigit (hdigits.isDigit c hc)

theorem Form.isDecimalChar {cs : List Char} {d : Decimal} (h : Form cs d) :
    ∀ c ∈ cs, Number.isDecimalChar c = true := by
  cases h with
  | whole hdigits hexponent =>
    refine List.forall_mem_append.2 ⟨fun c hc => ?_, hexponent.isDecimalChar⟩
    exact isDecimalChar_of_isDigit (hdigits.isDigit c hc)
  | point hdigits hexponent =>
    have hboth := List.forall_mem_append.1 hdigits.isDigit
    refine List.forall_mem_append.2 ⟨fun c hc => isDecimalChar_of_isDigit (hboth.1 c hc), ?_⟩
    refine List.forall_mem_cons.2 ⟨rfl, List.forall_mem_append.2 ⟨fun c hc => ?_, ?_⟩⟩
    · exact isDecimalChar_of_isDigit (hboth.2 c hc)
    · exact hexponent.isDecimalChar

/-- A decimal starts with a digit or the point. -/
theorem Form.head {cs : List Char} {d : Decimal} (h : Form cs d) :
    ∃ first rest, cs = first :: rest ∧ (first.isDigit = true ∨ first = '.') := by
  cases h with
  | whole hdigits =>
    obtain ⟨first, rest, rfl⟩ := List.exists_cons_of_ne_nil hdigits.ne_nil
    exact ⟨first, _, rfl, .inl (hdigits.isDigit first List.mem_cons_self)⟩
  | @point whole _ _ _ _ hdigits =>
    cases whole with
    | nil => exact ⟨'.', _, rfl, .inr rfl⟩
    | cons first rest => exact ⟨first, _, rfl, .inl (hdigits.isDigit first List.mem_cons_self)⟩

end Decimal

/-! ### Signed decimals -/

/-- The text is the unsigned text after an optional sign; `true` is a minus. -/
inductive Signed : Bool → List Char → List Char → Prop
  | plain {unsigned : List Char} : Signed false unsigned unsigned
  | plus {unsigned : List Char} : Signed false unsigned ('+' :: unsigned)
  | minus {unsigned : List Char} : Signed true unsigned ('-' :: unsigned)

namespace Number

theorem signed_splitSign (cs : List Char) : Signed (splitSign cs).1 (splitSign cs).2 cs := by
  unfold splitSign
  split
  · exact .minus
  · exact .plus
  · exact .plain

/-- A sign is split off where the rest does not start with another one. -/
theorem splitSign_of_signed {negative : Bool} {first : Char} {rest cs : List Char}
    (h : Signed negative (first :: rest) cs) (hminus : first ≠ '-') (hplus : first ≠ '+') :
    splitSign cs = (negative, first :: rest) := by
  cases h with
  | plus | minus => rfl
  | plain =>
    unfold splitSign
    split
    · rename_i heq
      exact absurd (List.cons.inj heq).1 hminus
    · rename_i heq
      exact absurd (List.cons.inj heq).1 hplus
    · rfl

/-- The names of the full notation start with letters that decimals do not have. -/
theorem toLower_of_isDecimalChar {c : Char} (h : isDecimalChar c = true) :
    c.toLower ≠ 'i' ∧ c.toLower ≠ 'n' := by
  simp only [isDecimalChar, Bool.or_eq_true, List.contains_iff_mem, List.mem_cons,
    List.not_mem_nil, or_false] at h
  rcases h with hdigit | rfl | rfl | rfl | rfl | rfl
  · have hsame : c.toLower = c := by
      have hcode : c.val.toNat ≤ '9'.toNat := (Char.isDigit_iff_toNat.1 hdigit).2
      refine dif_neg fun hupper => ?_
      have hlow : 'A'.toNat ≤ c.val.toNat := UInt32.le_iff_toNat_le.1 hupper.1
      exact absurd (hlow.trans hcode) (by decide)
    rw [hsame]
    constructor <;> rintro rfl <;> cases hdigit
  all_goals decide

/-- The full notation of a text with only characters of decimals is a signed decimal. -/
theorem read?_of_isDecimalChar {cs : List Char}
    (h : ∀ c ∈ (splitSign cs).2, isDecimalChar c = true) :
    read? cs = (Decimal.read? (splitSign cs).2).map (ofDecimal (splitSign cs).1) := by
  unfold read?
  generalize splitSign cs = parts at h
  obtain ⟨negative, unsigned⟩ := parts
  -- So no name matches, and the decimal is what is left to try.
  have hname (first : Char) (rest : List Char) (hfirst : first = 'i' ∨ first = 'n') :
      unsigned.map Char.toLower ≠ first :: rest := by
    intro heq
    cases unsigned with
    | nil => cases heq
    | cons c cs =>
      obtain ⟨hi, hn⟩ := toLower_of_isDecimalChar (h c List.mem_cons_self)
      have hc : c.toLower = first := (List.cons.inj heq).1
      rcases hfirst with rfl | rfl
      · exact hi hc
      · exact hn hc
  have hinf := hname 'i' "nf".toList (.inl rfl)
  have hinfinity := hname 'i' "nfinity".toList (.inl rfl)
  have hnan := hname 'n' "an".toList (.inr rfl)
  exact (if_neg (not_or.2 ⟨hinf, hinfinity⟩)).trans (if_neg hnan)

/-- What is let through of the full notation are `Infinity` and the decimals, after an optional
sign. -/
theorem ofSigned_eq (cs : List Char) : ofSigned cs =
    if (splitSign cs).2 = "Infinity".toList then .infinite (splitSign cs).1
    else ((Decimal.read? (splitSign cs).2).map (ofDecimal (splitSign cs).1)).getD .nan := by
  unfold ofSigned
  dsimp only
  split
  · rfl
  · split
    · rename_i hchars
      rw [read?_of_isDecimalChar (List.all_eq_true.1 hchars)]
    · rename_i hchars
      have hnone : Decimal.read? (splitSign cs).2 = none := by
        by_contra hsome
        obtain ⟨d, hread⟩ := Option.ne_none_iff_exists'.1 hsome
        exact hchars (List.all_eq_true.2 (Decimal.read?_eq_some_iff.1 hread).isDecimalChar)
      rw [hnone]
      rfl

theorem ofSigned_of_infinity {negative : Bool} {cs : List Char}
    (h : Signed negative "Infinity".toList cs) : ofSigned cs = .infinite negative := by
  have hsplit : splitSign cs = (negative, "Infinity".toList) :=
    splitSign_of_signed h (by decide) (by decide)
  rw [ofSigned_eq, hsplit]
  exact if_pos rfl

/-- A decimal after an optional sign is read as that decimal with the sign. -/
theorem ofSigned_of_form {negative : Bool} {unsigned cs : List Char} {d : Decimal}
    (hsigned : Signed negative unsigned cs) (hform : Decimal.Form unsigned d) :
    ofSigned cs = ofDecimal negative d := by
  obtain ⟨first, rest, rfl, hfirst⟩ := hform.head
  have hmark {c : Char} (hdigit : c.isDigit = false) (hpoint : c ≠ '.') : first ≠ c := by
    rintro rfl
    rcases hfirst with hfirst | hfirst
    · rw [hdigit] at hfirst
      cases hfirst
    · exact hpoint hfirst
  have hinfinity : first :: rest ≠ "Infinity".toList := fun heq =>
    hmark (c := 'I') rfl (by decide) (List.cons.inj heq).1
  rw [ofSigned_eq, splitSign_of_signed hsigned (hmark rfl (by decide)) (hmark rfl (by decide)),
    if_neg hinfinity, hform.read?]
  rfl

/-- Anything else is no number. -/
theorem ofSigned_of_forall_not {cs : List Char}
    (hinfinity : ∀ negative, ¬ Signed negative "Infinity".toList cs)
    (hform : ∀ negative unsigned d, Signed negative unsigned cs → ¬ Decimal.Form unsigned d) :
    ofSigned cs = .nan := by
  have hsigned := signed_splitSign cs
  have hunsigned : (splitSign cs).2 ≠ "Infinity".toList := by
    intro heq
    rw [heq] at hsigned
    exact hinfinity _ hsigned
  have hread : Decimal.read? (splitSign cs).2 = none := by
    by_contra hsome
    obtain ⟨d, hread⟩ := Option.ne_none_iff_exists'.1 hsome
    exact hform _ _ d hsigned (Decimal.read?_eq_some_iff.1 hread)
  rw [ofSigned_eq, if_neg hunsigned, hread]
  rfl

end Number

end StaticConfig
