import StaticConfig.Number.Basic

/-!
# Arithmetic on numbers

Truncation, remainder and addition give the number nearest to the exact result. From them a number
is reduced to a word of 32 bits: `Number.toInt32` wraps its whole part around.
-/

namespace StaticConfig

namespace Number

/-! ### Counts of units -/

/-- A magnitude with a sign, as a count of units. -/
def signedUnits (negative : Bool) (size : Magnitude) : Int :=
  if negative then -size.units else size.units

/-- The count of units of a finite number. -/
def units? : Number → Option Int
  | .finite negative size => some (signedUnits negative size)
  | _ => none

/-- The number nearest to a count of units; the sign of a zero is chosen by the caller. -/
def ofUnits (negativeZero : Bool) (units : Int) : Number :=
  ofRatio (if units = 0 then negativeZero else decide (units < 0)) units.natAbs 1

/-! ### Order -/

/-- The numeric order: the two zeros are equal, and nothing is below or above `nan`. -/
def below : Number → Number → Bool
  | .nan, _ | _, .nan => false
  | .infinite a, .infinite b => a && !b
  | .infinite a, .finite _ _ => a
  | .finite _ _, .infinite b => !b
  | .finite a m, .finite b n => decide (signedUnits a m < signedUnits b n)

/-- Below or equal. -/
def atMost (a b : Number) : Bool := a.below b || a.equals b

/-- The larger one of two numbers that can be compared. -/
def max (a b : Number) : Number := if a.below b then b else a

/-- The smaller one of two numbers that can be compared. -/
def min (a b : Number) : Number := if b.below a then b else a

/-! ### Operations -/

/-- The number without its sign. -/
def abs : Number → Number
  | .nan => .nan
  | .infinite _ => .infinite false
  | .finite _ size => .finite false size

/-- The number without its fraction. -/
def trunc : Number → Number
  | .finite negative size => ofRatio negative (size.units / unitsInOne * unitsInOne) 1
  | n => n

/-- The sum. -/
def add : Number → Number → Number
  | .nan, _ | _, .nan => .nan
  | .infinite a, .infinite b => if a = b then .infinite a else .nan
  | .infinite a, .finite _ _ => .infinite a
  | .finite _ _, .infinite b => .infinite b
  | .finite a m, .finite b n => ofUnits (a && b) (signedUnits a m + signedUnits b n)

/-- The difference. -/
def sub (a b : Number) : Number := a.add b.neg

/-- What a division toward zero leaves over, with the sign of the dividend. -/
def rem : Number → Number → Number
  | .finite negative m, .finite _ n =>
    if n.units = 0 then .nan else ofRatio negative (m.units % n.units) 1
  | .finite negative m, .infinite _ => .finite negative m
  | _, _ => .nan

/-- The remainder that is not negative. -/
def euclideanRem (a modulus : Number) : Number :=
  let rest := a.rem modulus
  if rest.below 0 then rest.add modulus.abs else rest

/-! ### Positions -/

/-- The position in something of the given length: without the fraction, counted from the end if it
is negative, and not outside. -/
def position (n : Number) (length : Nat) : Number :=
  let size := ofNat length
  let whole := n.trunc
  if whole.below 0 then (size.add whole).max 0 else whole.min size

/-! ### Words of 32 bits -/

/-- How many words of 32 bits there are. -/
def wordCount : Number := ofNat (Nat.pow 2 32)

/-- The first number that no signed word of 32 bits reaches. -/
def wordLimit : Number := ofNat (Nat.pow 2 31)

/-- The word of the whole part, the nearest word if there is none, and zero for `nan`. -/
def clampInt32 : Number → Int32
  | .nan => 0
  | .infinite negative => if negative then .minValue else .maxValue
  | .finite negative size => .ofIntClamp (((finite negative size).trunc?).getD 0)

/-- The truncated number wrapped around to a signed word of 32 bits; zero if it is not finite. -/
def toInt32 (n : Number) : Int32 :=
  match n with
  | .finite _ _ =>
    let wrapped := n.trunc.euclideanRem wordCount
    let word := if wordLimit.atMost wrapped then wrapped.sub wordCount else wrapped
    word.clampInt32
  | _ => 0

end Number

end StaticConfig
