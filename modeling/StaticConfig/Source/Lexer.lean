import StaticConfig.Number.Text
import StaticConfig.Source.Token
import StaticConfig.Text.Identifier

/-!
# Reading tokens

`readToken` reads the next token after any blanks and comments. Which token a slash, a closing brace
or an angle bracket starts depends on what is being parsed, so regular expressions, the pieces of
templates and the text of elements have readers of their own.

Readers go over a list of characters one by one. Where one character decides about several, such as
a backslash, the number of characters that are settled already is passed along.
-/

namespace StaticConfig

namespace Lexer

/-! ### Blanks and comments -/

/-- A character that ends a line. -/
def isLineEnd (c : Char) : Bool :=
  c == '\n' || c == '\r' || c.toNat == 0x2028 || c.toNat == 0x2029

/-- A blank within a line. -/
def isSpace (c : Char) : Bool :=
  let n := c.toNat
  n == 0x20 || n == 0x09 || n == 0x0b || n == 0x0c || n == 0xa0 || n == 0xfeff || n == 0x1680 ||
    (0x2000 ≤ n && n ≤ 0x200a) || n == 0x202f || n == 0x205f || n == 0x3000

/-- Where between tokens a character stands. -/
inductive Between
  | blank
  | lineComment
  | blockComment (start : Nat)
  /-- The second character of a comment's mark, with what comes after it. -/
  | mark (next : Between)

/-- Blanks and comments that were passed over. -/
structure Gap where
  after : Cursor
  /-- Whether a line ended. -/
  newLine : Bool
  /-- Where a comment starts that does not end. -/
  unclosed : Option Nat

/-- Passes over blanks and comments. -/
def gap (place : Between) (newLine : Bool) (pos : Nat) : List Char → Gap
  | [] =>
    match place with
    | .blockComment start => ⟨⟨[], pos⟩, newLine, some start⟩
    | _ => ⟨⟨[], pos⟩, newLine, none⟩
  | c :: rest =>
    match place with
    | .mark next => gap next newLine (pos + 1) rest
    | .lineComment =>
      if isLineEnd c then gap .blank true (pos + 1) rest else gap .lineComment newLine (pos + 1) rest
    | .blockComment start =>
      if c == '*' && rest.head? == some '/' then gap (.mark .blank) newLine (pos + 1) rest
      else gap (.blockComment start) (newLine || isLineEnd c) (pos + 1) rest
    | .blank =>
      if isLineEnd c then gap .blank true (pos + 1) rest
      else if isSpace c then gap .blank newLine (pos + 1) rest
      else if c == '/' && rest.head? == some '/' then gap (.mark .lineComment) newLine (pos + 1) rest
      else if c == '/' && rest.head? == some '*' then
        gap (.mark (.blockComment pos)) newLine (pos + 1) rest
      else ⟨⟨c :: rest, pos⟩, newLine, none⟩

/-! ### Escapes -/

/-- The code point after `\u` and how many characters it takes. -/
def codePoint? : List Char → Option (Nat × Nat)
  | '\x7b' :: rest =>
    let digits := rest.takeWhile (digitValue? 16 · |>.isSome)
    match readDigits? 16 digits, rest.drop digits.length with
    | some n, '\x7d' :: _ => if n ≤ 0x10ffff then some (n, digits.length + 2) else none
    | _, _ => none
  | a :: b :: c :: d :: _ => (readDigits? 16 [a, b, c, d]).map (·, 4)
  | _ => none

/-- The character of a code point; a lone surrogate is replaced. -/
def charOf (n : Nat) : Char :=
  if 0xd800 ≤ n ∧ n ≤ 0xdfff then Char.ofNat 0xfffd else Char.ofNat n

/-- What stands after `\u`, and how many characters it takes; a pair of surrogates is one
character. -/
def unicodeEscape? (cs : List Char) : Option (Char × Nat) :=
  match codePoint? cs with
  | some (high, n) =>
    if 0xd800 ≤ high ∧ high ≤ 0xdbff then
      match cs.drop n with
      | '\\' :: 'u' :: rest =>
        match codePoint? rest with
        | some (low, m) =>
          if 0xdc00 ≤ low ∧ low ≤ 0xdfff then
            some (Char.ofNat (0x10000 + (high - 0xd800) * 0x400 + (low - 0xdc00)), n + 2 + m)
          else some (charOf high, n)
        | none => some (charOf high, n)
      | _ => some (charOf high, n)
    else some (charOf high, n)
  | none => none

/-- What an escape stands for, and how many characters it takes after the backslash. A backslash at
the end of a line continues the text on the next one; octal escapes are none. -/
def escape? : List Char → Option (List Char × Nat)
  | [] => none
  | 'n' :: _ => some (['\n'], 1)
  | 't' :: _ => some (['\t'], 1)
  | 'r' :: _ => some (['\r'], 1)
  | 'b' :: _ => some ([Char.ofNat 8], 1)
  | 'f' :: _ => some ([Char.ofNat 12], 1)
  | 'v' :: _ => some ([Char.ofNat 11], 1)
  | '\r' :: '\n' :: _ => some ([], 2)
  | 'x' :: a :: b :: _ => (readDigits? 16 [a, b]).map fun n => ([Char.ofNat n], 3)
  | 'x' :: _ => none
  | 'u' :: rest => (unicodeEscape? rest).map fun (c, n) => ([c], n + 1)
  | c :: rest =>
    if isLineEnd c then some ([], 1)
    else if c == '0' && !(rest.head?.any Char.isDigit) then some ([Char.ofNat 0], 1)
    else if '0' ≤ c ∧ c ≤ '7' then none
    else some ([c], 1)

/-! ### Names -/

/-- The code point of an escape in a name, after its backslash, and how many characters it takes. -/
def nameEscape? : List Char → Option (Char × Nat)
  | 'u' :: rest => (codePoint? rest).map fun (code, n) => (charOf code, n + 1)
  | _ => none

/-- The characters of a name and how many characters of the text they take. -/
def nameChars (first : Bool) (settled : Nat) : List Char → List Char × Nat
  | [] => ([], 0)
  | c :: rest =>
    let fits (c : Char) := if first then isIdentifierStart c else isIdentifierPart c
    match settled with
    | more + 1 =>
      let (name, n) := nameChars first more rest
      (name, n + 1)
    | 0 =>
      if fits c then
        let (name, n) := nameChars false 0 rest
        (c :: name, n + 1)
      else match if c == '\\' then nameEscape? rest else none with
        | some (d, taken) =>
          if fits d then
            let (name, n) := nameChars false taken rest
            (d :: name, n + 1)
          else ([], 0)
        | none => ([], 0)

/-! ### Strings and templates -/

/-- Reads a string up to its closing quote: its value and where it ends, or the position of the
fault. -/
def stringChars (quote : Char) (start settled pos : Nat) (value : List Char) :
    List Char → Except Nat (List Char × Nat)
  | [] => .error start
  | c :: rest =>
    match settled with
    | more + 1 => stringChars quote start more (pos + 1) value rest
    | 0 =>
      if c == quote then .ok (value.reverse, pos + 1)
      else if c == '\n' || c == '\r' then .error start
      else if c == '\\' then
        match escape? rest with
        | some (cs, taken) => stringChars quote start taken (pos + 1) (cs.reverse ++ value) rest
        | none => .error pos
      else stringChars quote start 0 (pos + 1) (c :: value) rest

/-- A piece of a template: the text up to a substitution or the closing quote. -/
structure Piece where
  text : List Char
  /-- Where the first bad escape stands, which only a tagged template may have. -/
  badEscape : Option Nat
  /-- Whether the template ends here. -/
  closes : Bool
  after : Cursor

/-- Reads a piece of a template; `none` if the text ends in it. Line ends are kept as `\n`. -/
def pieceChars (settled pos : Nat) (text : List Char) (bad : Option Nat) :
    List Char → Option Piece
  | [] => none
  | c :: rest =>
    match settled with
    | more + 1 => pieceChars more (pos + 1) text bad rest
    | 0 =>
      if c == '\x60' then some ⟨text.reverse, bad, true, rest, pos + 1⟩
      else if c == '$' && rest.head? == some '\x7b' then
        some ⟨text.reverse, bad, false, rest.drop 1, pos + 2⟩
      else if c == '\r' then
        pieceChars (if rest.head? == some '\n' then 1 else 0) (pos + 1) ('\n' :: text) bad rest
      else if c == '\\' then
        match escape? rest with
        | some (cs, taken) => pieceChars taken (pos + 1) (cs.reverse ++ text) bad rest
        | none => pieceChars 1 (pos + 1) text (bad.or (some pos)) rest
      else pieceChars 0 (pos + 1) (c :: text) bad rest

/-! ### Numbers -/

/-- Whether every `_` stands between two digits. -/
def separatorsFit (radix : Nat) : (previous : Bool) → List Char → Bool
  | _, [] => true
  | previous, '_' :: rest =>
    previous && (rest.head?.any fun c => (digitValue? radix c).isSome) &&
      separatorsFit radix false rest
  | _, _ :: rest => separatorsFit radix true rest

/-- The digits and separators at the start of a text. -/
def digitRun (radix : Nat) (cs : List Char) : List Char :=
  cs.takeWhile fun c => c == '_' || (digitValue? radix c).isSome

/-- A digit run without its separators. -/
def withoutSeparators (cs : List Char) : List Char := cs.filter (· != '_')

/-- What the digits of a literal are worth. -/
def radixValue (radix : Nat) (digits : List Char) : Number :=
  .ofNat ((readDigits? radix digits).getD 0)

/-- A number must not be followed by a name. -/
def closeNumber (lexeme : Lexeme) (after : Cursor) : Lexeme × Cursor :=
  match after.rest with
  | c :: _ =>
    if isIdentifierStart c || c == '\\' then (.invalid after.pos, after) else (lexeme, after)
  | [] => (lexeme, after)

/-- Reads a number after its radix mark. -/
def radixNumber (radix : Nat) (c : Cursor) : Lexeme × Cursor :=
  let run := digitRun radix c.rest
  let after := c.skip run.length
  if run.isEmpty then (.invalid c.pos, after)
  else if !separatorsFit radix false run then (.invalid c.pos, after)
  else match after.rest with
    | 'n' :: _ => closeNumber .bigInt (after.skip 1)
    | _ => closeNumber (.number (radixValue radix (withoutSeparators run))) after

/-- The mark and the sign of the exponent at the start of a text, if there is one. -/
def exponentMark? : List Char → Option (List Char)
  | e :: rest =>
    if e == 'e' || e == 'E' then
      match rest with
      | '+' :: _ => some [e, '+']
      | '-' :: _ => some [e, '-']
      | _ => some [e]
    else none
  | [] => none

/-- Reads a decimal number. A leading zero before other digits is a fault. -/
def decimalNumber (c : Cursor) : Lexeme × Cursor :=
  let whole := digitRun 10 c.rest
  let afterWhole := c.skip whole.length
  if !separatorsFit 10 false whole then (.invalid c.pos, afterWhole)
  else if whole.length > 1 && whole.head? == some '0' then (.invalid c.pos, afterWhole)
  else match afterWhole.rest with
    | 'n' :: _ => closeNumber .bigInt (afterWhole.skip 1)
    | _ =>
      let (point, fraction) :=
        match afterWhole.rest with
        | '.' :: rest => (['.'], digitRun 10 rest)
        | _ => ([], [])
      let afterFraction := afterWhole.skip (point.length + fraction.length)
      let mark := exponentMark? afterFraction.rest
      let afterMark := afterFraction.skip (mark.getD []).length
      let exponent := if mark.isSome then digitRun 10 afterMark.rest else []
      let after := afterMark.skip exponent.length
      if !separatorsFit 10 false fraction then (.invalid (afterWhole.pos + 1), after)
      else if mark.isSome && (exponent.isEmpty || !separatorsFit 10 false exponent) then
        (.invalid afterMark.pos, after)
      else
        let digits := whole ++ point ++ fraction ++ mark.getD [] ++ exponent
        match Decimal.read? (withoutSeparators digits) with
        | some d => closeNumber (.number (Number.ofDecimal false d)) after
        | none => (.invalid c.pos, after)

/-- Reads a number. -/
def number (c : Cursor) : Lexeme × Cursor :=
  match c.rest with
  | '0' :: mark :: _ =>
    if mark == 'x' || mark == 'X' then radixNumber 16 (c.skip 2)
    else if mark == 'o' || mark == 'O' then radixNumber 8 (c.skip 2)
    else if mark == 'b' || mark == 'B' then radixNumber 2 (c.skip 2)
    else decimalNumber c
  | _ => decimalNumber c

/-! ### Signs -/

/-- The signs, longer ones before their beginnings. Signs that start with `>` are joined by the
parser, since in types they stand for themselves. -/
def signs : List String :=
  ["...", "<<=", "===", "!==", "**=", "&&=", "||=", "??=", "=>", "<=", "<<", "==", "!=", "++",
    "+=", "--", "-=", "**", "*=", "%=", "&&", "&=", "||", "|=", "^=", "??", "/=", "\x7b", "\x7d",
    "(", ")", "[", "]", ";", ",", "<", ">", "=", "!", "+", "-", "*", "%", "&", "|", "^", "~", "?",
    ".", ":", "@", "/", "\x60"]

/-- The sign at the start of a text. A question mark and a point before a digit are two signs. -/
def sign? (cs : List Char) : Option String :=
  match cs with
  | '?' :: '.' :: rest => if rest.head?.any Char.isDigit then some "?" else some "?."
  | _ => signs.find? fun sign => sign.toList.isPrefixOf cs

/-! ### Tokens -/

/-- The lexeme at a place that is no blank, and the place after it. -/
def lexeme (c : Cursor) : Lexeme × Cursor :=
  match c.rest with
  | [] => (.endOfText, c)
  | first :: rest =>
    if first == '"' || first == '\'' then
      match stringChars first c.pos 0 (c.pos + 1) [] rest with
      | .ok (value, stop) => (.string (String.ofList value), c.skip (stop - c.pos))
      | .error pos => (.invalid pos, c.skip 1)
    else if first.isDigit || (first == '.' && rest.head?.any Char.isDigit) then number c
    else if first == '#' then
      match nameChars true 0 rest with
      | ([], _) => (.invalid c.pos, c.skip 1)
      | (name, n) => (.hidden (String.ofList name), c.skip (n + 1))
    else match nameChars true 0 c.rest with
      | ([], _) =>
        match sign? c.rest with
        | some text => (.sign text, c.skip text.length)
        | none => (.invalid c.pos, c.skip 1)
      | (name, n) => (.name (String.ofList name), c.skip n)

/-- A token and the places where it starts and after it. -/
structure Reading where
  start : Cursor
  token : Token
  after : Cursor
deriving Inhabited

/-- Whether a mark of comments starts here that modules may not have: `<!--`, and `-->` at the start
of a line. -/
def atMarkupComment (lineStart : Bool) (cs : List Char) : Bool :=
  "<!--".toList.isPrefixOf cs || (lineStart && "-->".toList.isPrefixOf cs)

/-- Reads the next token. -/
def readToken (c : Cursor) : Reading :=
  let g := gap .blank false c.pos c.rest
  match g.unclosed with
  | some start => ⟨g.after, ⟨.invalid start, start, g.after.pos, g.newLine⟩, g.after⟩
  | none =>
    let (found, after) :=
      if atMarkupComment (g.newLine || c.pos == 0) g.after.rest then
        (.invalid g.after.pos, g.after.skip 1)
      else lexeme g.after
    ⟨g.after, ⟨found, g.after.pos, after.pos, g.newLine⟩, after⟩

/-! ### Regular expressions -/

/-- The length of the body of a regular expression with its closing slash, if it has one. -/
def regexBody (inClass escaped : Bool) (n : Nat) : List Char → Option Nat
  | [] => none
  | c :: rest =>
    if isLineEnd c then none
    else if escaped then regexBody inClass false (n + 1) rest
    else if c == '\\' then regexBody inClass true (n + 1) rest
    else if c == '[' then regexBody true false (n + 1) rest
    else if c == ']' then regexBody false false (n + 1) rest
    else if c == '/' && !inClass then some (n + 1)
    else regexBody inClass false (n + 1) rest

/-- Whether the flags are known ones, each at most once. -/
def flagsFit (flags : List Char) : Bool :=
  flags.all ("dgimsuvy".toList.contains ·) && flags.eraseDups.length == flags.length

/-- Reads a regular expression at its opening slash. -/
def readRegex (start : Reading) : Reading :=
  let c := start.start
  match regexBody false false 0 (c.rest.drop 1) with
  | some n =>
    let body := c.skip (n + 1)
    let (flags, m) := nameChars false 0 body.rest
    let after := body.skip m
    let found := if flagsFit flags then Lexeme.regex else .invalid c.pos
    ⟨c, ⟨found, c.pos, after.pos, start.token.afterLine⟩, after⟩
  | none => ⟨c, ⟨.invalid c.pos, c.pos, c.pos + 1, start.token.afterLine⟩, c.skip 1⟩

/-- Reads a piece of a template, from after its opening quote or the brace before it. -/
def readPiece (c : Cursor) : Option Piece := pieceChars 0 c.pos [] none c.rest

/-! ### Elements -/

/-- Reads the text between tags, up to the next angle bracket or brace. -/
def readElementText (c : Cursor) : Cursor :=
  c.skip (c.rest.takeWhile fun d => d != '<' && d != '\x7b').length

/-- Reads the next token inside a tag, where names may hold hyphens and strings have no escapes. -/
def readTagToken (c : Cursor) : Reading :=
  let r := readToken c
  match r.token.lexeme, r.start.rest with
  | .name _, cs =>
    let name := cs.takeWhile fun d => isIdentifierPart d || d == '-'
    let after := r.start.skip name.length
    ⟨r.start, ⟨.name (String.ofList name), r.start.pos, after.pos, r.token.afterLine⟩, after⟩
  | _, quote :: rest =>
    if quote == '"' || quote == '\'' then
      let value := rest.takeWhile (· != quote)
      let after := r.start.skip (value.length + 2)
      let found :=
        if value.length == rest.length then Lexeme.invalid r.start.pos
        else .string (String.ofList value)
      ⟨r.start, ⟨found, r.start.pos, after.pos, r.token.afterLine⟩, after⟩
    else r
  | _, _ => r

/-- The place after the first line, if it starts with `#!`. -/
def afterHashBang (c : Cursor) : Cursor :=
  match c.rest with
  | '#' :: '!' :: rest => c.skip (2 + (rest.takeWhile (!isLineEnd ·)).length)
  | _ => c

end Lexer

end StaticConfig
