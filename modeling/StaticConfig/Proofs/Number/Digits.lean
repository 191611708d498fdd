import Mathlib.Data.List.Forall2
import Mathlib.Data.Nat.Digits.Defs
import StaticConfig.Number.Text

/-!
# Digit strings

- `Denotes`: what a sequence of digits of a radix denotes, from the values of its digits;
- `readDigits?_eq_some_iff`: reading accepts exactly the sequences that denote a number;
- `readDigits?_of_isDigit`: decimal digits, in terms of `Nat.ofDigitChars`;
- `Decimal.digitCount_eq_length`: how many decimal digits a number is written with.
-/

namespace StaticConfig

/-! ### What digits denote -/

/-- The character is the digit of this value, a letter in either case. -/
def IsDigit (radix : Nat) (c : Char) (value : Nat) : Prop :=
  value < radix ∧ (c = value.digitChar ∨ c = value.digitChar.toUpper)

/-- The text is a sequence of one or more digits of the radix, which denotes `n`. -/
def Denotes (radix : Nat) (cs : List Char) (n : Nat) : Prop :=
  ∃ values : List Nat, values ≠ [] ∧ List.Forall₂ (IsDigit radix) cs values ∧
    n = Nat.ofDigits radix values.reverse

theorem toNat_digitChar_cases : ∀ value < 16,
    value.digitChar.toNat = (if value < 10 then 48 + value else 87 + value) ∧
      value.digitChar.toUpper.toNat = (if value < 10 then 48 + value else 55 + value) := by
  decide

/-- The digits of a radix of at most 16, by their code points. -/
theorem isDigit_iff {radix value : Nat} {c : Char} (hradix : radix ≤ 16) :
    IsDigit radix c value ↔ value < radix ∧
      if value < 10 then c.toNat = 48 + value else c.toNat = 87 + value ∨ c.toNat = 55 + value := by
  refine and_congr_right fun hvalue => ?_
  obtain ⟨hlower, hupper⟩ := toNat_digitChar_cases value (Nat.lt_of_lt_of_le hvalue hradix)
  rw [← Char.toNat_inj, ← Char.toNat_inj, hlower, hupper]
  split <;> simp

theorem digitValue?_eq_some_iff {radix value : Nat} {c : Char} (hradix : radix ≤ 16) :
    digitValue? radix c = some value ↔ IsDigit radix c value := by
  have hle (a b : Char) : a ≤ b ↔ a.toNat ≤ b.toNat := Iff.rfl
  have hmarks : '0'.toNat = 48 ∧ '9'.toNat = 57 ∧ 'a'.toNat = 97 ∧ 'z'.toNat = 122 ∧
      'A'.toNat = 65 ∧ 'Z'.toNat = 90 := by decide
  rw [isDigit_iff hradix]
  simp only [digitValue?, hle, hmarks, Option.filter_eq_some_iff, decide_eq_true_eq]
  rw [and_comm]
  refine and_congr_right fun hvalue => ?_
  split
  · rw [Option.some_inj]
    split <;> omega
  · split
    · rw [Option.some_inj]
      split <;> omega
    · split
      · rw [Option.some_inj]
        split <;> omega
      · simp only [reduceCtorEq, false_iff]
        split <;> omega

/-! ### Reading digits -/

theorem foldlM_digits {radix : Nat} (hradix : radix ≤ 16) {cs : List Char} {start n : Nat} :
    cs.foldlM (fun n c => (digitValue? radix c).map (n * radix + ·)) start = some n ↔
      ∃ values, List.Forall₂ (IsDigit radix) cs values ∧
        n = values.foldl (fun n value => n * radix + value) start := by
  induction cs generalizing start with
  | nil => simp [eq_comm]
  | cons c cs ih =>
    simp only [List.foldlM_cons, Option.bind_eq_bind, Option.bind_eq_some_iff,
      Option.map_eq_some_iff, digitValue?_eq_some_iff hradix, ih, List.forall₂_cons_left_iff]
    constructor
    · rintro ⟨-, ⟨value, hvalue, rfl⟩, values, hvalues, rfl⟩
      exact ⟨value :: values, ⟨value, values, hvalue, hvalues, rfl⟩, rfl⟩
    · rintro ⟨-, ⟨value, values, hvalue, hvalues, rfl⟩, rfl⟩
      exact ⟨_, ⟨value, hvalue, rfl⟩, values, hvalues, rfl⟩

/-- Reading accepts exactly the digit strings, and gives what they denote. -/
theorem readDigits?_eq_some_iff {radix : Nat} (hradix : radix ≤ 16) {cs : List Char} {n : Nat} :
    readDigits? radix cs = some n ↔ Denotes radix cs n := by
  have hfold (values : List Nat) : Nat.ofDigits radix values.reverse =
      values.foldl (fun n value => n * radix + value) 0 := by
    rw [Nat.ofDigits_eq_foldr, List.foldr_reverse]
    simp only [Nat.cast_id, Nat.add_comm, Nat.mul_comm]
  unfold Denotes
  simp only [hfold]
  cases cs with
  | nil => simp [readDigits?]
  | cons c cs =>
    rw [readDigits?, foldlM_digits hradix]
    · refine exists_congr fun values => ?_
      constructor
      · rintro ⟨hvalues, hn⟩
        refine ⟨?_, hvalues, hn⟩
        rintro rfl
        cases hvalues
      · exact And.right
    · simp

theorem Denotes.unique {radix m n : Nat} {cs : List Char} (hradix : radix ≤ 16)
    (hm : Denotes radix cs m) (hn : Denotes radix cs n) : m = n := by
  rw [← readDigits?_eq_some_iff hradix] at hm hn
  exact Option.some_inj.1 (hm.symm.trans hn)

theorem not_denotes_plus {radix n : Nat} {cs : List Char} (hradix : radix ≤ 16) :
    ¬ Denotes radix ('+' :: cs) n := by
  rintro ⟨_, -, hvalues, -⟩
  obtain ⟨value, _, hvalue, -, -⟩ := List.forall₂_cons_left_iff.1 hvalues
  have hcode := ((isDigit_iff hradix).1 hvalue).2
  have hplus : '+'.toNat = 43 := by decide
  split at hcode <;> omega

/-- Decimal digits are read as the library reads them. -/
theorem readDigits?_of_isDigit {cs : List Char} (hne : cs ≠ [])
    (h : ∀ c ∈ cs, c.isDigit = true) : readDigits? 10 cs = some (Nat.ofDigitChars 10 cs 0) := by
  have hvalue {c : Char} (hc : c.isDigit = true) :
      digitValue? 10 c = some (c.toNat - '0'.toNat) := by
    have hrange := Char.isDigit_iff_toNat.1 hc
    have hle (a b : Char) : a ≤ b ↔ a.toNat ≤ b.toNat := Iff.rfl
    have hmarks : '0'.toNat = 48 ∧ '9'.toNat = 57 := by decide
    simp only [hmarks] at hrange
    simp only [digitValue?, hle, hmarks, hrange, and_self, if_true, Option.filter_eq_some_iff,
      decide_eq_true_eq, true_and]
    omega
  have hfold (start : Nat) :
      cs.foldlM (fun n c => (digitValue? 10 c).map (n * 10 + ·)) start =
        some (Nat.ofDigitChars 10 cs start) := by
    clear hne
    induction cs generalizing start with
    | nil => rfl
    | cons c cs ih =>
      rw [List.forall_mem_cons] at h
      rw [List.foldlM_cons, hvalue h.1, Nat.ofDigitChars_cons, Nat.mul_comm 10]
      exact ih h.2 _
  cases cs with
  | nil => exact absurd rfl hne
  | cons c cs => exact hfold 0

/-! ### Counting digits -/

namespace Decimal

theorem countDigits_eq_length (n : Nat) : countDigits n = (Nat.toDigits 10 n).length := by
  induction n using countDigits.induct with
  | case1 n h => rw [countDigits, if_pos h, Nat.toDigits_of_lt_base h, List.length_singleton]
  | case2 n h ih =>
    rw [countDigits, if_neg h, Nat.toDigits_eq_if (by decide), if_neg h, List.length_append, ih,
      List.length_singleton]

theorem lt_pow_length_toDigits (n : Nat) : n < 10 ^ (Nat.toDigits 10 n).length :=
  (Nat.length_toDigits_le_iff (by decide) Nat.length_toDigits_pos).1 (Nat.le_refl _)

theorem pow_length_toDigits_le {n : Nat} (hn : n ≠ 0) :
    10 ^ ((Nat.toDigits 10 n).length - 1) ≤ n := by
  by_contra hlt
  have hlength : 0 < (Nat.toDigits 10 n).length := Nat.length_toDigits_pos
  rcases Nat.eq_zero_or_pos ((Nat.toDigits 10 n).length - 1) with hone | hpos
  · rw [hone] at hlt
    omega
  · have hless := (Nat.length_toDigits_le_iff (by decide) hpos).2 (Nat.not_le.1 hlt)
    omega

theorem length_toDigits_eq {n count : Nat} (hcount : 0 < count) (hlow : 10 ^ (count - 1) ≤ n)
    (hhigh : n < 10 ^ count) : (Nat.toDigits 10 n).length = count := by
  refine Nat.le_antisymm ((Nat.length_toDigits_le_iff (by decide) hcount).2 hhigh) ?_
  rcases Nat.eq_zero_or_pos (count - 1) with hone | hpos
  · have hlength : 0 < (Nat.toDigits 10 n).length := Nat.length_toDigits_pos
    omega
  · by_contra hless
    have hlength : (Nat.toDigits 10 n).length ≤ count - 1 := by omega
    exact Nat.not_lt.2 hlow ((Nat.length_toDigits_le_iff (by decide) hpos).1 hlength)

/-- A guess that passes the check is right, and one that does not is not used. -/
theorem digitCount_eq_length (n : Nat) : digitCount n = (Nat.toDigits 10 n).length := by
  have hchecked {guess : Nat} (hguess : 0 < guess) :
      (if Nat.pow 10 (guess - 1) ≤ n ∧ n < Nat.pow 10 guess then guess else countDigits n) =
        (Nat.toDigits 10 n).length := by
    split
    · rename_i hcheck
      exact (length_toDigits_eq hguess hcheck.1 hcheck.2).symm
    · exact countDigits_eq_length n
  refine hchecked ?_
  split <;> omega

end Decimal

end StaticConfig
