import StaticConfig.Number.Basic

/-!
# Decimals that stand for numbers

A decimal is a digit string, kept as a natural number, times a power of ten.

- `Number.ofDecimal` reads one, rounding to the nearest number.
- `Decimal.shortest` finds one that reads back to a given magnitude. In units of `10 ^ -1076` the
  magnitude and the ends of the interval that rounds to it are all natural numbers, so the search
  walks the decimal grids from the coarsest to the exact one and asks of each whether one of the
  two grid points around the magnitude lies in the interval. The last grid holds the magnitude
  itself, so the search never comes back empty-handed.
-/

namespace StaticConfig

/-- `digits · 10 ^ exponent`. -/
structure Decimal where
  digits : Nat
  exponent : Int
deriving DecidableEq, Repr, Inhabited

namespace Decimal

/-! ### Counting digits -/

/-- How many decimal digits `n` has; zero has one. -/
def countDigits (n : Nat) : Nat :=
  if n < 10 then 1 else countDigits (n / 10) + 1

/-- `countDigits` from the bit length: a guess that is checked, and the count itself if it fails. -/
def digitCount (n : Nat) : Nat :=
  let low := n.log2 * 30103 / 100000
  let guess := if Nat.pow 10 (low + 1) ≤ n then low + 2 else low + 1
  if Nat.pow 10 (guess - 1) ≤ n ∧ n < Nat.pow 10 guess then guess else countDigits n

/-- How many decimal digits the digit string has. -/
def length (d : Decimal) : Nat := digitCount d.digits

/-- Where the point stands, counted from the left of the first digit: the value is
`0.d₁d₂… · 10 ^ point`. -/
def point (d : Decimal) : Int := d.length + d.exponent

/-- The same value without trailing zeros in the digit string. -/
def strip (digits : Nat) (exponent : Int) : Decimal :=
  if h : digits = 0 then ⟨0, 0⟩
  else if digits % 10 = 0 then strip (digits / 10) (exponent + 1)
  else ⟨digits, exponent⟩
termination_by digits
decreasing_by omega

/-! ### The shortest decimal of a magnitude -/

/-- Which of two decimals equally near to the magnitude is taken. -/
inductive Tie
  | up
  | even
deriving DecidableEq

/-- The numbers that round to a magnitude, in units of `10 ^ -1076`: from `low` to `high` around
`value`, the ends included exactly when the mantissa is even. -/
structure Interval where
  low : Nat
  value : Nat
  high : Nat
  closed : Bool

/-- Half way to both neighbours. Below a power of two the neighbour is at half the distance. -/
def Interval.around (size : Magnitude) : Interval :=
  let shift := Magnitude.spacing size.units
  let step := Nat.pow 2 shift
  let below := if 0 < shift ∧ size.units = Nat.pow 2 52 * step then step else 2 * step
  let scale := Nat.pow 5 1076
  { low := (4 * size.units - below) * scale
    value := 4 * size.units * scale
    high := (4 * size.units + 2 * step) * scale
    closed := size.units / step % 2 = 0 }

/-- Whether a point lies in the interval. -/
def Interval.holds (i : Interval) (point : Nat) : Bool :=
  if i.closed then i.low ≤ point && point ≤ i.high else i.low < point && point < i.high

/-- The point of the grid of width `width` that stands for the interval: of the two around its
value the one inside, and the nearer if both are. -/
def Interval.pick? (i : Interval) (tie : Tie) (width : Nat) : Option Nat :=
  let lower := i.value / width
  let upper := lower + 1
  let rest := i.value % width
  match i.holds (lower * width), i.holds (upper * width) with
  | true, false => some lower
  | false, true => some upper
  | false, false => none
  | true, true =>
    if 2 * rest < width then some lower
    else if width < 2 * rest then some upper
    else match tie with
      | .up => some upper
      | .even => some (if lower % 2 = 0 then lower else upper)

/-- Tries the grids of width `10 ^ grid`, then the finer ones down to the exact one. -/
def Interval.search (i : Interval) (tie : Tie) : Nat → Decimal
  | 0 => ⟨i.value, -1076⟩
  | grid + 1 =>
    match i.pick? tie (Nat.pow 10 (grid + 1)) with
    | some digits => ⟨digits, (grid + 1 : Nat) - 1076⟩
    | none => i.search tie grid

/-- A decimal of fewest digits that reads back to the magnitude, the nearest of those. -/
def shortest (tie : Tie) (size : Magnitude) : Decimal :=
  let i := Interval.around size
  let found := i.search tie (digitCount i.value - 1)
  strip found.digits found.exponent

/-- The digit string as characters. -/
def text (d : Decimal) : List Char := Nat.toDigits 10 d.digits

end Decimal

/-! ### Reading -/

/-- The number nearest to a signed decimal. Far outside the range of binary64 the power of ten is
not computed, because the answer is a zero or an infinity anyway. -/
def Number.ofDecimal (negative : Bool) (d : Decimal) : Number :=
  if d.digits = 0 ∨ d.point < -400 then .finite negative .zero
  else if 400 < d.point then .infinite negative
  else match d.exponent with
    | .ofNat e => ofRatio negative (d.digits * Nat.pow 10 e * unitsInOne) 1
    | .negSucc e => ofRatio negative (d.digits * unitsInOne) (Nat.pow 10 (e + 1))

end StaticConfig
