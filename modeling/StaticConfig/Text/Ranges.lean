/-!
# Sets of code points

Unicode properties are long lists of ranges. They are kept as text, the way the standard prints
them, and read into an array once; membership is a search of that array.
-/

namespace StaticConfig

/-- A set of code points as ranges, both ends included. -/
structure CodeRanges where
  ranges : Array (Nat × Nat)

namespace CodeRanges

/-- The value of a hexadecimal numeral; characters that are no digits count as zero. -/
def hex (cs : List Char) : Nat :=
  cs.foldl (fun n c => n * 16 + if c.isDigit then c.toNat - 48 else c.toNat - 87) 0

/-- Reads a line of code points `x` and ranges `x-y`, in lower case hexadecimal, separated by
single blanks. -/
def ofLine (line : String) : List (Nat × Nat) :=
  (line.toList.splitOn ' ').map fun word =>
    match word.splitOn '-' with
    | [low, high] => (hex low, hex high)
    | _ => (hex word, hex word)

/-- Reads a table of such lines. -/
def ofLines (lines : List String) : CodeRanges := ⟨(lines.flatMap ofLine).toArray⟩

/-- Whether the character lies in one of the ranges. -/
def contains (s : CodeRanges) (c : Char) : Bool :=
  s.ranges.any fun (low, high) => low ≤ c.toNat && c.toNat ≤ high

end CodeRanges

end StaticConfig
