import StaticConfig.Proofs.Number.Digits
import StaticConfig.Proofs.Number.Rounding

/-!
# Texts with a radix mark

A text that starts with `0x`, `0o` or `0b` is a number if digits of that radix follow and they
denote less than `2 ^ 64`; one plus sign may stand before the digits. The number is then the one
nearest to what they denote.

The notation of JavaScript has no bound and no plus sign. `Number.ofText_radix` says for which
texts that makes a difference, and `Number.ofText_radix_differs` shows one of either kind.
-/

namespace StaticConfig

/-- The letters that mark a radix after a leading zero. -/
def radixMarks : List (Char × Nat) :=
  [('x', 16), ('X', 16), ('o', 8), ('O', 8), ('b', 2), ('B', 2)]

namespace Number

/-! ### Integers of 64 bits -/

theorem roundUnits_lt {n bits shift top : Nat} (h : n < 2 ^ bits) (htop : bits + shift < top) :
    Magnitude.roundUnits (n * Nat.pow 2 shift) 1 < Nat.pow 2 top := by
  have hquotient : n * Nat.pow 2 shift / 1 < 2 ^ (bits + shift) := by
    rw [Nat.div_one, Nat.pow_add]
    exact Nat.mul_lt_mul_of_pos_right h (powTwo_pos _)
  exact Nat.lt_of_le_of_lt (Magnitude.roundUnits_le_two_pow hquotient)
    (Nat.pow_lt_pow_right (by decide) htop)

/-- An integer of 64 bits rounds to a finite number, the only one that is nearest to it. -/
theorem ofNat_of_lt {n : Nat} (h : n < 2 ^ 64) :
    ∃ size, ofNat n = .finite false size ∧
      ∀ other : Magnitude, other.IsNearest (n * unitsInOne) 1 ↔ other = size := by
  have hlimit : 64 + 1074 < limitExponent := by decide
  have hfinite : Magnitude.roundUnits (n * unitsInOne) 1 < unitsLimit := by
    unfold unitsInOne unitsLimit
    generalize 1074 = shift, limitExponent = top at hlimit ⊢
    exact roundUnits_lt h hlimit
  let size : Magnitude := ⟨_, hfinite, Magnitude.roundUnits_form _ _⟩
  have hnearest : size.IsNearest (n * unitsInOne) 1 := Magnitude.isNearest_of_units Nat.one_pos rfl
  refine ⟨size, ofRatio_of_units rfl, fun other => ⟨fun h => h.unique Nat.one_pos hnearest, ?_⟩⟩
  rintro rfl
  exact hnearest

/-! ### Reading -/

theorem ofText_eq_ofRadixDigits {cs rest : List Char} {mark : Char} {radix : Nat}
    (hmark : (mark, radix) ∈ radixMarks) (htext : trimEnds isBlank cs = '0' :: mark :: rest) :
    ofText cs = ofRadixDigits radix rest := by
  unfold ofText
  rw [htext]
  simp only [radixMarks, List.mem_cons, Prod.mk.injEq, List.not_mem_nil, or_false] at hmark
  rcases hmark with h | h | h | h | h | h <;> obtain ⟨rfl, rfl⟩ := h <;> rfl

theorem radix_le {mark : Char} {radix : Nat} (hmark : (mark, radix) ∈ radixMarks) :
    radix ≤ 16 := by
  simp only [radixMarks, List.mem_cons, Prod.mk.injEq, List.not_mem_nil, or_false] at hmark
  omega

/-- What may stand after the mark: digits, or a plus sign and digits. -/
inductive Reads (radix : Nat) : List Char → Nat → Prop
  | digits {cs n} (h : Denotes radix cs n) : Reads radix cs n
  | plus {cs n} (h : Denotes radix cs n) : Reads radix ('+' :: cs) n

theorem reads_iff {radix : Nat} (hradix : radix ≤ 16) {cs : List Char} {n : Nat} :
    Reads radix cs n ↔
      readDigits? radix (match cs with | '+' :: digits => digits | digits => digits) = some n := by
  rw [readDigits?_eq_some_iff hradix]
  split
  · constructor
    · rintro (h | h)
      · exact absurd h (not_denotes_plus hradix)
      · exact h
    · exact .plus
  · rename_i hplus
    constructor
    · rintro (h | h)
      · exact h
      · exact absurd rfl (hplus _)
    · exact .digits

/-- After the mark an integer of 64 bits is read, and nothing else. -/
theorem ofRadixDigits_cases {radix : Nat} (hradix : radix ≤ 16) (cs : List Char) :
    (∃ n, Reads radix cs n ∧ n < 2 ^ 64 ∧ ofRadixDigits radix cs = ofNat n) ∨
      (∀ n, Reads radix cs n → ¬ n < 2 ^ 64) ∧ ofRadixDigits radix cs = .nan := by
  unfold ofRadixDigits
  simp only [reads_iff hradix]
  cases readDigits? radix (match cs with | '+' :: digits => digits | digits => digits) with
  | none => exact .inr ⟨by simp, rfl⟩
  | some n =>
    by_cases h : n < Nat.pow 2 64
    · exact .inl ⟨n, rfl, h, if_pos h⟩
    · refine .inr ⟨?_, if_neg h⟩
      rintro _ ⟨⟩
      exact h

theorem ofNat_ne_nan (n : Nat) : ofNat n ≠ .nan := by
  unfold ofNat ofRatio
  split <;> simp

theorem ofRadixDigits_ne_nan_iff {radix : Nat} (hradix : radix ≤ 16) {cs : List Char} :
    ofRadixDigits radix cs ≠ .nan ↔ ∃ n, Reads radix cs n ∧ n < 2 ^ 64 := by
  rcases ofRadixDigits_cases hradix cs with ⟨n, hreads, hlt, hvalue⟩ | ⟨hnone, hvalue⟩ <;>
    rw [hvalue]
  · exact iff_of_true (ofNat_ne_nan n) ⟨n, hreads, hlt⟩
  · exact iff_of_false (fun h => h rfl) fun ⟨n, hreads, hlt⟩ => hnone n hreads hlt

theorem ofRadixDigits_of_reads {radix n : Nat} (hradix : radix ≤ 16) {cs : List Char}
    (hn : Reads radix cs n) (hlt : n < 2 ^ 64) : ofRadixDigits radix cs = ofNat n := by
  rcases ofRadixDigits_cases hradix cs with ⟨m, hm, -, hvalue⟩ | ⟨hnone, -⟩
  · rw [reads_iff hradix] at hm hn
    rw [hvalue, Option.some_inj.1 (hm.symm.trans hn)]
  · exact absurd hlt (hnone n hn)

/-- A text with a radix mark is a number exactly if digits of the radix follow, perhaps after a
plus sign, and they denote an integer of 64 bits; it is then the number nearest to that integer. The
texts for which it matters that plus signs are read and longer integers are not are those that have
a plus sign before such digits or denote an integer of more than 64 bits. -/
theorem ofText_radix {cs rest : List Char} {mark : Char} {radix : Nat}
    (hmark : (mark, radix) ∈ radixMarks) (htext : trimEnds isBlank cs = '0' :: mark :: rest) :
    (ofText cs ≠ .nan ↔ ∃ n, Reads radix rest n ∧ n < 2 ^ 64) ∧
      (∀ n, Reads radix rest n → n < 2 ^ 64 →
        ∃ size, ofText cs = .finite false size ∧
          ∀ other : Magnitude, other.IsNearest (n * unitsInOne) 1 ↔ other = size) ∧
      ((ofText cs ≠ .nan ↔ ∃ n, Denotes radix rest n) ↔
        (∀ n, Denotes radix rest n → n < 2 ^ 64) ∧
          ∀ digits n, rest = '+' :: digits → Denotes radix digits n → ¬ n < 2 ^ 64) := by
  have hradix := radix_le hmark
  rw [ofText_eq_ofRadixDigits hmark htext]
  refine ⟨ofRadixDigits_ne_nan_iff hradix, fun n hn hlt => ?_, ?_⟩
  · rw [ofRadixDigits_of_reads hradix hn hlt]
    exact ofNat_of_lt hlt
  · rw [ofRadixDigits_ne_nan_iff hradix]
    constructor
    · intro hiff
      refine ⟨fun n hn => ?_, ?_⟩
      · -- Digits alone are accepted, and no plus sign begins them, so their integer is short.
        obtain ⟨m, hm | hm, hlt⟩ := hiff.2 ⟨n, hn⟩
        · rwa [hn.unique hradix hm]
        · exact absurd hn (not_denotes_plus hradix)
      · -- A plus sign before such digits would be accepted, though the text is no digits alone.
        rintro digits n rfl hn hlt
        obtain ⟨_, hplus⟩ := hiff.1 ⟨n, .plus hn, hlt⟩
        exact not_denotes_plus hradix hplus
    · rintro ⟨hshort, hplain⟩
      constructor
      · rintro ⟨n, hn | hn, hlt⟩
        · exact ⟨n, hn⟩
        · exact absurd hlt (hplain _ n rfl hn)
      · rintro ⟨n, hn⟩
        exact ⟨n, .digits hn, hshort n hn⟩

theorem ofText_radix_mixedCase :
    ∃ size, ofText " 0X1fF\n".toList = .finite false size ∧
      ∀ other : Magnitude, other.IsNearest (511 * unitsInOne) 1 ↔ other = size := by
  have hmark : ('X', 16) ∈ radixMarks := by decide
  have htext : trimEnds isBlank " 0X1fF\n".toList = '0' :: 'X' :: "1fF".toList := by decide
  have hdigits : Denotes 16 "1fF".toList 511 := (readDigits?_eq_some_iff (by decide)).1 (by decide)
  exact (ofText_radix hmark htext).2.1 511 (.digits hdigits) (by decide)

/-- Seventeen hexadecimal digits are not read although they denote an integer, and a plus sign is
read although it is no digit. -/
theorem ofText_radix_differs :
    ¬ (ofText "0x10000000000000000".toList ≠ .nan ↔
        ∃ n, Denotes 16 "10000000000000000".toList n) ∧
      ¬ (ofText "0x+1".toList ≠ .nan ↔ ∃ n, Denotes 16 "+1".toList n) := by
  constructor
  · intro h
    have hdigits : readDigits? 16 "10000000000000000".toList = some (2 ^ 64) := by decide
    exact h.2 ⟨2 ^ 64, (readDigits?_eq_some_iff (by decide)).1 hdigits⟩ rfl
  · intro h
    have hmark : ('x', 16) ∈ radixMarks := by decide
    have htext : ofText "0x+1".toList = ofRadixDigits 16 "+1".toList :=
      ofText_eq_ofRadixDigits hmark (by decide)
    have hdigits : Denotes 16 "1".toList 1 := (readDigits?_eq_some_iff (by decide)).1 (by decide)
    rw [htext, ofRadixDigits_ne_nan_iff (by decide)] at h
    obtain ⟨n, hn⟩ := h.1 ⟨1, .plus hdigits, by decide⟩
    exact not_denotes_plus (by decide) hn

end Number

end StaticConfig
