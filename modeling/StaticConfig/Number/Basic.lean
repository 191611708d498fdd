/-!
# Binary64 numbers, exactly

Every finite binary64 number is a whole count of `2 ^ -1074`, the smallest positive one, so a
finite number is kept as a sign and that count and every comparison is one of natural numbers.
Rounding is one function on ratios, `Number.ofRatio`: it picks the nearest count with at most 53
significant bits, a tie going to the even one, and overflows to an infinity at `2 ^ 2098` units.

The last section reads off the whole part, which needs no rounding at all.
-/

namespace StaticConfig

/-! ### Representable magnitudes -/

/-- The number of units of `2 ^ -1074` in one. -/
def unitsInOne : Nat := Nat.pow 2 1074

/-- The exponent of `2 ^ 1024`, which overflows, as a count of units. -/
def limitExponent : Nat := 2098

/-- The first count of units that no finite number reaches. -/
def unitsLimit : Nat := Nat.pow 2 limitExponent

theorem powTwo_pos (exponent : Nat) : 0 < Nat.pow 2 exponent := Nat.two_pow_pos exponent

theorem unitsLimit_pos : 0 < unitsLimit := by
  unfold unitsLimit
  generalize limitExponent = exponent
  exact powTwo_pos exponent

/-- A count of units that has at most 53 significant bits (`2 ^ 53` itself has one). -/
def Representable (units : Nat) : Prop :=
  units < unitsLimit ∧ ∃ mantissa shift, mantissa ≤ Nat.pow 2 53 ∧ units = mantissa * Nat.pow 2 shift

/-- The absolute value of a finite number, as a count of units. -/
structure Magnitude where
  units : Nat
  representable : Representable units
deriving DecidableEq

/-- Zero has no bits at all, so it is representable. -/
def Magnitude.zero : Magnitude := ⟨0, unitsLimit_pos, 0, 0, Nat.zero_le _, rfl⟩

instance : Inhabited Magnitude := ⟨Magnitude.zero⟩

/-- The binary exponent of the distance between neighbouring magnitudes around `units`. -/
def Magnitude.spacing (units : Nat) : Nat := units.log2 - 52

/-! ### Rounding -/

/-- The integer nearest to `num / den`, the even one of two equally near. -/
def roundDiv (num den : Nat) : Nat :=
  if 2 * (num % den) < den then num / den
  else if den < 2 * (num % den) then num / den + 1
  else num / den + num / den % 2

theorem roundDiv_le (num den : Nat) : roundDiv num den ≤ num / den + 1 := by
  unfold roundDiv
  split
  · omega
  · split <;> omega

/-- The nearest count of units to `num / den` among those with 53 significant bits. -/
def Magnitude.roundUnits (num den : Nat) : Nat :=
  let step := Nat.pow 2 (spacing (num / den))
  roundDiv num (den * step) * step

theorem Magnitude.div_step_lt (num den : Nat) :
    num / (den * Nat.pow 2 (spacing (num / den))) < Nat.pow 2 53 := by
  rw [← Nat.div_div_eq_div_mul]
  generalize num / den = q
  refine (Nat.div_lt_iff_lt_mul (powTwo_pos _)).2 ?_
  by_cases hq : q = 0
  · subst hq
    exact Nat.mul_pos (powTwo_pos _) (powTwo_pos _)
  · have below : q < Nat.pow 2 (q.log2 + 1) := (Nat.log2_lt hq).1 (Nat.lt_succ_self _)
    have le : Nat.pow 2 (q.log2 + 1) ≤ Nat.pow 2 (53 + spacing q) :=
      Nat.pow_le_pow_right (by decide) (by unfold spacing; omega)
    exact Nat.lt_of_lt_of_le below (Nat.le_trans le (Nat.le_of_eq (Nat.pow_add 2 53 _)))

theorem Magnitude.roundUnits_form (num den : Nat) :
    ∃ mantissa shift, mantissa ≤ Nat.pow 2 53 ∧ roundUnits num den = mantissa * Nat.pow 2 shift :=
  ⟨_, _, Nat.le_trans (roundDiv_le _ _) (div_step_lt num den), rfl⟩

/-- A binary64 number: not a number, an infinity, or a signed finite magnitude. -/
inductive Number
  | nan
  | infinite (negative : Bool)
  | finite (negative : Bool) (size : Magnitude)
deriving DecidableEq

namespace Number

instance : Inhabited Number := ⟨.finite false .zero⟩

/-- The number nearest to `± num / den` units; from `unitsLimit` on it is infinite. -/
def ofRatio (negative : Bool) (num den : Nat) : Number :=
  if h : Magnitude.roundUnits num den < unitsLimit then
    .finite negative ⟨Magnitude.roundUnits num den, h, Magnitude.roundUnits_form num den⟩
  else
    .infinite negative

/-- The number nearest to a natural number. -/
def ofNat (n : Nat) : Number := ofRatio false (n * unitsInOne) 1

instance (n : Nat) : OfNat Number n := ⟨ofNat n⟩

/-- The number nearest to an integer. -/
def ofInt : Int → Number
  | .ofNat n => ofNat n
  | .negSucc n => ofRatio true ((n + 1) * unitsInOne) 1

/-! ### Signs and comparison -/

/-- Negation flips the sign, of zeros and infinities too. -/
def neg : Number → Number
  | .nan => .nan
  | .infinite negative => .infinite !negative
  | .finite negative size => .finite (!negative) size

/-- Whether the number counts as true: neither a zero nor `nan`. -/
def isTruthy : Number → Bool
  | .nan => false
  | .infinite _ => true
  | .finite _ size => size.units != 0

/-- Numeric equality: `nan` differs from itself and the two zeros are equal. -/
def equals : Number → Number → Bool
  | .infinite a, .infinite b => a == b
  | .finite a m, .finite b n => m.units == n.units && (a == b || m.units == 0)
  | _, _ => false

/-! ### Whole numbers -/

/-- The number without its fraction, if it is finite. -/
def trunc? : Number → Option Int
  | .finite false size => some (size.units / unitsInOne : Nat)
  | .finite true size => some (-(size.units / unitsInOne : Nat))
  | _ => none

/-- Whether the number is finite and has no fraction. -/
def isWhole : Number → Bool
  | .finite _ size => size.units % unitsInOne == 0
  | _ => false

end Number

end StaticConfig
