import StaticConfig.Text.Printable

/-!
# Quoted text

Two ways to write text between quotes: the one of JSON documents, which escapes quotes, backslashes
and controls, and the one of diagnostics, which also escapes whatever has no glyph.
-/

namespace StaticConfig

namespace Text

/-- The numeral of `n` in lower case hexadecimal, with at least `width` digits. -/
def hexadecimal (width n : Nat) : List Char :=
  let digits := Nat.toDigits 16 n
  List.replicate (width - digits.length) '0' ++ digits

/-- One character inside a JSON string. -/
def jsonEscape (c : Char) : List Char :=
  match c.toNat with
  | 0x22 => ['\\', '"']
  | 0x5c => ['\\', '\\']
  | 0x08 => ['\\', 'b']
  | 0x09 => ['\\', 't']
  | 0x0a => ['\\', 'n']
  | 0x0c => ['\\', 'f']
  | 0x0d => ['\\', 'r']
  | n => if n < 0x20 then ['\\', 'u'] ++ hexadecimal 4 n else [c]

/-- One character inside a quoted diagnostic text. -/
def debugEscape (c : Char) : List Char :=
  match c.toNat with
  | 0x22 => ['\\', '"']
  | 0x5c => ['\\', '\\']
  | 0x09 => ['\\', 't']
  | 0x0a => ['\\', 'n']
  | 0x0d => ['\\', 'r']
  | 0x00 => ['\\', '0']
  | n => if isPrintable c then [c] else ['\\', 'u', '\x7b'] ++ hexadecimal 1 n ++ ['\x7d']

/-- The text between double quotes, its characters written by `escape`. -/
def quotedBy (escape : Char → List Char) (s : String) : List Char :=
  '"' :: s.toList.flatMap escape ++ ['"']

/-- A JSON string. -/
def jsonQuoted (s : String) : List Char := quotedBy jsonEscape s

/-- A quoted diagnostic text. -/
def debugQuoted (s : String) : List Char := quotedBy debugEscape s

end Text

end StaticConfig
