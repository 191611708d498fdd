import StaticConfig.Evaluation.Evaluate
import StaticConfig.Proofs.Number.Display
import StaticConfig.Proofs.Number.Equality
import StaticConfig.Proofs.Number.Layout
import StaticConfig.Proofs.Number.Reading
import StaticConfig.Proofs.Snippet

/-!
# Numbers survive their text

The text of a number reads back as that number, but for the sign of a zero
(`Number.ofText_text`). So texts of numbers are equal only where the numbers are, and an evaluation
that turns a number into text, in a template or as a key, keeps which number it was.
-/

namespace StaticConfig

namespace Number

/-! ### Reading laid out numbers -/

/-- A laid out decimal is read as the number of the decimal. -/
theorem ofText_render (negative : Bool) (l : Layout) (d : Decimal) :
    ofText ((if negative then ['-'] else []) ++ l.render d) = ofDecimal negative d := by
  obtain ⟨zeros, hform⟩ := l.form_render d
  have hsigned : Signed negative (l.render d) ((if negative then ['-'] else []) ++ l.render d) := by
    cases negative with
    | true => exact .minus
    | false => exact .plain
  have hvalue : Decimal.value ⟨d.digits * 10 ^ zeros, d.exponent - zeros⟩ = d.value := by
    rw [Decimal.value_zeros, Int.sub_add_cancel]
  rw [ofText_of_form hsigned hform, ofDecimal_eq_ofRatio, ofDecimal_eq_ofRatio]
  exact ofRatio_congr (Decimal.units_congr hvalue)

theorem ofText_zero : ofText ['0'] = .finite false .zero := by
  have hform : Decimal.Form ['0'] ⟨0, 0⟩ := Decimal.read?_eq_some_iff.1 (by decide)
  rw [ofText_of_form .plain hform]
  exact if_pos (.inl rfl)

/-! ### The texts of numbers -/

/-- The number without the sign of a zero, which its text does not show. -/
def unsignedZero : Number → Number
  | .finite negative size => if size.units = 0 then .finite false .zero else .finite negative size
  | n => n

/-- The text of a number reads back as that number, and that of either zero as zero. -/
theorem ofText_text (n : Number) : ofText n.text = n.unsignedZero := by
  cases n with
  | nan => decide
  | infinite negative => cases negative <;> decide
  | finite negative size =>
    simp only [text_finite, unsignedZero]
    by_cases hzero : size.units = 0
    · rw [if_pos hzero, if_pos hzero]
      exact ofText_zero
    · rw [if_neg hzero, if_neg hzero]
      rw [ofText_render]
      exact ofDecimal_eq_finite_iff.2 (Decimal.units_shortest .up (Nat.pos_of_ne_zero hzero))

/-- The same number, or both not a number; the two zeros are the same. -/
def Same (a b : Number) : Prop := a.equals b = true ∨ a = .nan ∧ b = .nan

theorem unsignedZero_cases (n : Number) : n.unsignedZero = n ∨
    ∃ sign size, n = finite sign size ∧ size.units = 0 ∧ n.unsignedZero = finite false .zero := by
  cases n with
  | nan | infinite => exact .inl rfl
  | finite sign size =>
    by_cases hzero : size.units = 0
    · exact .inr ⟨sign, size, rfl, hzero, if_pos hzero⟩
    · exact .inl (if_neg hzero)

theorem unsignedZero_same (n : Number) : n.unsignedZero.Same n := by
  rcases n.unsignedZero_cases with h | ⟨sign, size, rfl, hzero, h⟩ <;> rw [h]
  · by_cases hn : n = .nan
    · exact .inr ⟨hn, hn⟩
    · exact .inl ((equals_self_iff n).2 hn)
  · exact .inl (equals_finite_iff.2 ⟨hzero.symm, .inr rfl⟩)

theorem unsignedZero_eq_of_equals {a b : Number} (h : a.equals b = true) :
    a.unsignedZero = b.unsignedZero := by
  cases a with
  | nan => simp [equals] at h
  | infinite =>
    cases b with
    | nan | finite => simp [equals] at h
    | infinite => rw [equals_infinite_iff.1 h]
  | finite sign size =>
    cases b with
    | nan | infinite => simp [equals] at h
    | finite sign' size' =>
      obtain ⟨hunits, hsign⟩ := equals_finite_iff.1 h
      by_cases hzero : size.units = 0
      · exact (if_pos hzero).trans (if_pos (hunits.symm.trans hzero)).symm
      · obtain rfl := hsign.resolve_right hzero
        cases size
        cases size'
        cases hunits
        rfl

theorem same_iff {a b : Number} : a.Same b ↔ a.unsignedZero = b.unsignedZero := by
  constructor
  · rintro (h | ⟨rfl, rfl⟩)
    · exact unsignedZero_eq_of_equals h
    · rfl
  · intro h
    have ha := unsignedZero_same a
    have hb := unsignedZero_same b
    rw [h] at ha
    rcases ha with ha | ⟨hnan, rfl⟩ <;> rcases hb with hb | ⟨hnan', rfl⟩
    · exact .inl (equals_trans (equals_symm ha) hb)
    · simp [hnan', equals] at ha
    · simp [hnan, equals] at hb
    · exact .inr ⟨rfl, rfl⟩

theorem text_unsignedZero (n : Number) : n.unsignedZero.text = n.text := by
  rcases n.unsignedZero_cases with h | ⟨sign, size, rfl, hzero, h⟩
  · rw [h]
  · rw [h, text_finite, text_finite, if_pos hzero]
    rfl

/-- Numbers have the same text exactly if they are the same number. -/
theorem text_eq_iff {a b : Number} : a.text = b.text ↔ a.Same b := by
  rw [same_iff]
  constructor
  · intro h
    rw [← ofText_text, h, ofText_text]
  · intro h
    rw [← text_unsignedZero, h, text_unsignedZero]

theorem toList_toString (n : Number) : n.toString.toList = n.text := String.toList_ofList

theorem ofText_toString (n : Number) : ofText n.toString.toList = n.unsignedZero := by
  rw [toList_toString, ofText_text]

theorem toString_eq_iff {a b : Number} : a.toString = b.toString ↔ a.Same b := by
  rw [← text_eq_iff, ← toList_toString, ← toList_toString, String.toList_inj]

end Number

/-! ### Numbers that an evaluation turns into text -/

section Rules

variable {definitions : Definitions} {visit : Scope Value → Node → Eval Value}
  {scope : Scope Value} {e : Expr} {m after : Machine}

theorem run_evalChunks {v : Value} (h : (visit scope (.expr e)).run m = (.ok v, after))
    (text next : String) (rest : List Chunk) :
    (evalChunks visit scope text (.mk e next :: rest)).run m =
      (evalChunks visit scope (text ++ v.display ++ next) rest).run after := by
  rw [evalChunks, Eval.run_bind, visitExpr, h]

theorem run_evalKey {v : Value} (h : (visit scope (.expr e)).run m = (.ok v, after)) :
    (evalKey definitions visit scope (.computed e)).run m = (.ok v.display, after) := by
  rw [evalKey, Eval.run_bind, visitExpr, h]
  rfl

theorem run_evalUnary_plus {v : Value} (h : (visit scope (.expr e)).run m = (.ok v, after)) :
    (evalUnary visit scope .plus e).run m = (.ok (.number v.toNumber), after) := by
  have hplus : UnaryOp.plus.isSupported = true := rfl
  rw [evalUnary, if_pos hplus, Eval.run_bind, visitExpr, h]
  rfl

end Rules

/-- The text of a number reads back as that number, that of `nan` as `nan` and that of either zero
as zero, so numbers have the same text only if they are equal or both `nan`. An evaluation writes a
number as that text where it is a chunk of a template or a key of a record, and the operator `+`
leaves a number alone and reads one back from its text. -/
theorem number_survives_text :
    (∀ n : Number, n ≠ .nan → (Number.ofText n.toString.toList).equals n = true) ∧
      Number.ofText Number.nan.toString.toList = .nan ∧
      (∀ n : Number, Number.ofText n.toString.toList = n.unsignedZero) ∧
      (∀ a b : Number, a.toString = b.toString ↔ a.equals b = true ∨ a = .nan ∧ b = .nan) ∧
      ∀ (definitions : Definitions) (visit : Scope Value → Node → Eval Value)
        (scope : Scope Value) (e : Expr) (n : Number) (m after : Machine),
        ((visit scope (.expr e)).run m = (.ok (.number n), after) →
          (∀ text next rest, (evalChunks visit scope text (.mk e next :: rest)).run m =
            (evalChunks visit scope (text ++ n.toString ++ next) rest).run after) ∧
          (evalKey definitions visit scope (.computed e)).run m = (.ok n.toString, after) ∧
          (evalUnary visit scope .plus e).run m = (.ok (.number n), after)) ∧
        (evalKey definitions visit scope (.number n)).run m = (.ok n.toString, m) ∧
        ((visit scope (.expr e)).run m = (.ok (.string n.toString), after) →
          (evalUnary visit scope .plus e).run m = (.ok (.number n.unsignedZero), after)) := by
  have hdisplay (n : Number) : (Value.number n).display = n.toString := by rw [Value.display]
  refine ⟨?_, ?_, Number.ofText_toString, fun a b => Number.toString_eq_iff, ?_⟩
  · intro n hn
    rw [Number.ofText_toString]
    exact n.unsignedZero_same.resolve_right fun h => hn h.2
  · exact Number.ofText_toString .nan
  · intro definitions visit scope e n m after
    refine ⟨fun h => ⟨fun text next rest => ?_, ?_, run_evalUnary_plus h⟩, rfl, fun h => ?_⟩
    · rw [run_evalChunks h, hdisplay]
    · rw [run_evalKey h, hdisplay]
    · rw [run_evalUnary_plus h, Value.toNumber, Number.ofText_toString]

namespace NegativeZero

open Snippet (place visit)

/-- `-0`. -/
def operand : Expr := .unary (place 4 6) .minus (.number (place 5 6) (.finite false .zero))

/-- `"0"`. -/
def quoted : Expr := .string (place 4 7) "0"

/-- The sign of zero stays where the number is an operand and is lost in its text. -/
theorem number_survives_text_negativeZero :
    (visit .root (.expr operand)).run .start = (.ok (.number (.finite true .zero)), .start) ∧
      (evalUnary visit .root .plus operand).run .start =
        (.ok (.number (.finite true .zero)), .start) ∧
      (evalKey .none visit .root (.computed operand)).run .start = (.ok "0", .start) ∧
      (evalUnary visit .root .plus quoted).run .start =
        (.ok (.number (.finite false .zero)), .start) := by
  have hoperand : (visit .root (.expr operand)).run .start =
      (.ok (.number (.finite true .zero)), .start) := rfl
  have hquoted : (visit .root (.expr quoted)).run .start =
      (.ok (.string (Number.finite true .zero).toString), .start) := rfl
  have hrules := number_survives_text.2.2.2.2 .none visit .root
  obtain ⟨-, hkey, hplus⟩ := (hrules operand (.finite true .zero) .start .start).1 hoperand
  exact ⟨hoperand, hplus, hkey,
    (hrules quoted (.finite true .zero) .start .start).2.2 hquoted⟩

end NegativeZero

end StaticConfig
