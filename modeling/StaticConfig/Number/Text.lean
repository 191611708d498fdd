import StaticConfig.Number.Decimal
import StaticConfig.Text.Blank

/-!
# Numbers as text

Writing: the digits of the shortest decimal are laid out positionally or in scientific notation,
as a `Layout` says. There are two layouts, `Layout.display` for strings and messages and
`Layout.json` for JSON documents. In JSON the place of the point decides between the notations, in
strings and messages the number itself is compared with the bounds.

Reading: `Decimal.read?` accepts the unsigned decimal notation

    (digits [. digits?] | . digits) ([eE] [+-]? digits)?

and `Number.read?` the full notation of numbers, where a sign may precede the decimal and a name of
an infinity or of `nan` may stand for it. `Number.ofText` is the conversion of arbitrary text:
blanks around the number do not count, the empty text is zero, a radix mark may precede digits, and
of the names in the full notation only `Infinity` is let through.
-/

namespace StaticConfig

/-! ### Laying out digits -/

/-- How the digits of a number are written. -/
structure Layout where
  /-- The digits stand positionally if the point lies above `low` … -/
  low : Int
  /-- … and not above `high`. -/
  high : Int
  /-- Whether whole numbers written positionally end in `.0`. -/
  markWhole : Bool
  /-- Whether a positive exponent carries a sign. -/
  signExponent : Bool
  /-- Which of two equally near digit strings is written. -/
  tie : Decimal.Tie

/-- In strings and messages the digits stand positionally from `1e-6` up to below `1e21`. -/
def Layout.display : Layout := ⟨-6, 21, false, true, .up⟩

/-- In JSON the digits stand positionally from `1e-5` up to below `1e16`, and a whole number that
is not written as an integer keeps a fraction. -/
def Layout.json : Layout := ⟨-5, 16, true, false, .even⟩

/-- Scientific notation: one digit, the others after a point, and the exponent. -/
def Layout.scientific (l : Layout) (digits : List Char) (exponent : Int) : List Char :=
  let fraction := if digits.length ≤ 1 then [] else '.' :: digits.drop 1
  let sign := if exponent < 0 then ['-'] else if l.signExponent then ['+'] else []
  digits.take 1 ++ fraction ++ 'e' :: sign ++ Nat.toDigits 10 exponent.natAbs

/-- Positional notation of `0.digits · 10 ^ point`. -/
def Layout.positional (l : Layout) (digits : List Char) (point : Int) : List Char :=
  if point ≤ 0 then
    '0' :: '.' :: List.replicate (-point).toNat '0' ++ digits
  else if digits.length ≤ point then
    digits ++ List.replicate (point.toNat - digits.length) '0' ++
      if l.markWhole then ['.', '0'] else []
  else
    digits.take point.toNat ++ '.' :: digits.drop point.toNat

/-- The text of a decimal that is not zero. -/
def Layout.render (l : Layout) (d : Decimal) : List Char :=
  if l.low < d.point ∧ d.point ≤ l.high then l.positional d.text d.point
  else l.scientific d.text (d.point - 1)

/-- The units of the number nearest to `1e-6`. -/
def leastPositional : Nat := Magnitude.roundUnits unitsInOne (Nat.pow 10 6)

/-- The units of `1e21`. -/
def positionalLimit : Nat := Nat.pow 10 21 * unitsInOne

/-- The digits of a magnitude in strings and messages: positional notation from `1e-6` up to below
`1e21`, and scientific notation elsewhere. -/
def Magnitude.display (size : Magnitude) : List Char :=
  let d := Decimal.shortest Layout.display.tie size
  if leastPositional ≤ size.units ∧ size.units < positionalLimit then
    Layout.display.positional d.text d.point
  else
    Layout.display.scientific d.text (d.point - 1)

namespace Number

/-- The text of a number in strings and messages. Both zeros are `0`. -/
def text : Number → List Char
  | .nan => "NaN".toList
  | .infinite false => "Infinity".toList
  | .infinite true => "-Infinity".toList
  | .finite negative size =>
    if size.units = 0 then ['0'] else (if negative then ['-'] else []) ++ size.display

/-- The text of a number in strings and messages, as a string. -/
def toString (n : Number) : String := String.ofList n.text

/-- The largest magnitude up to which every integer is a number. -/
def maxSafeInteger : Nat := 9007199254740991

/-- The JSON text of a number that is not written as an integer; `null` if it is not finite. -/
def json : Number → List Char
  | .finite negative size =>
    (if negative then ['-'] else []) ++ Layout.json.render (Decimal.shortest .even size)
  | _ => "null".toList

end Number

/-! ### Reading -/

/-- The value of a character as a digit of the given radix (at most 36). -/
def digitValue? (radix : Nat) (c : Char) : Option Nat :=
  let value? :=
    if '0' ≤ c ∧ c ≤ '9' then some (c.toNat - '0'.toNat)
    else if 'a' ≤ c ∧ c ≤ 'z' then some (c.toNat - 'a'.toNat + 10)
    else if 'A' ≤ c ∧ c ≤ 'Z' then some (c.toNat - 'A'.toNat + 10)
    else none
  value?.filter (· < radix)

/-- The natural number that a digit string denotes; `none` if it is empty or holds anything else. -/
def readDigits? (radix : Nat) : List Char → Option Nat
  | [] => none
  | cs => cs.foldlM (fun n c => (digitValue? radix c).map (n * radix + ·)) 0

/-- The exponent part, if the text has one, and nothing after it. -/
def Decimal.readExponent? : List Char → Option Int
  | [] => some 0
  | e :: cs =>
    if e = 'e' ∨ e = 'E' then
      match cs with
      | '+' :: ds => (readDigits? 10 ds).map fun n => (n : Int)
      | '-' :: ds => (readDigits? 10 ds).map fun n => -(n : Int)
      | ds => (readDigits? 10 ds).map fun n => (n : Int)
    else none

/-- Reads the unsigned decimal notation. -/
def Decimal.read? (cs : List Char) : Option Decimal :=
  let whole := cs.takeWhile Char.isDigit
  let (fraction, rest) :=
    match cs.dropWhile Char.isDigit with
    | '.' :: rest => (rest.takeWhile Char.isDigit, rest.dropWhile Char.isDigit)
    | rest => ([], rest)
  do
    let digits ← readDigits? 10 (whole ++ fraction)
    let exponent ← readExponent? rest
    pure ⟨digits, exponent - fraction.length⟩

namespace Number

/-- Splits an optional sign off the text; `true` is a minus. -/
def splitSign : List Char → Bool × List Char
  | '-' :: cs => (true, cs)
  | '+' :: cs => (false, cs)
  | cs => (false, cs)

/-- Reads the full notation: an optional sign, and then a name of an infinity or of `nan`, in upper
or lower case, or a decimal. -/
def read? (cs : List Char) : Option Number :=
  let (negative, unsigned) := splitSign cs
  let name := unsigned.map Char.toLower
  if name = "inf".toList ∨ name = "infinity".toList then some (.infinite negative)
  else if name = "nan".toList then some .nan
  else (Decimal.read? unsigned).map (ofDecimal negative)

/-- A character that a decimal or its exponent may hold. -/
def isDecimalChar (c : Char) : Bool := c.isDigit || ['.', 'e', 'E', '+', '-'].contains c

/-- `Infinity` after an optional sign, or what the full notation makes of characters of decimals.
Anything else is `nan`. -/
def ofSigned (cs : List Char) : Number :=
  let (negative, unsigned) := splitSign cs
  if unsigned = "Infinity".toList then .infinite negative
  else if unsigned.all isDecimalChar then (read? cs).getD .nan
  else .nan

/-- The digits after a radix mark. One plus sign may precede them, and a value of 64 bits or more
is `nan`, like anything that is not a digit string. -/
def ofRadixDigits (radix : Nat) (cs : List Char) : Number :=
  let digits := match cs with
    | '+' :: ds => ds
    | ds => ds
  match readDigits? radix digits with
  | some n => if n < Nat.pow 2 64 then ofNat n else .nan
  | none => .nan

/-- Conversion of text to a number. -/
def ofText (cs : List Char) : Number :=
  match trimEnds isBlank cs with
  | [] => .finite false .zero
  | '0' :: mark :: rest =>
    if mark = 'x' ∨ mark = 'X' then ofRadixDigits 16 rest
    else if mark = 'o' ∨ mark = 'O' then ofRadixDigits 8 rest
    else if mark = 'b' ∨ mark = 'B' then ofRadixDigits 2 rest
    else ofSigned ('0' :: mark :: rest)
  | cs => ofSigned cs

end Number

end StaticConfig
