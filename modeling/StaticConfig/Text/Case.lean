import StaticConfig.Text.CaseTable

/-!
# Upper and lower case of text

The full case mappings, independent of language: a character may become a sequence, and a capital
sigma becomes a final one where it ends a word.
-/

namespace StaticConfig

namespace Text

/-- The character shifted by the first run that maps it. -/
def shiftCase (runs : Array CaseRun) (c : Char) : Char :=
  match runs.find? (·.covers c) with
  | some run => Char.ofNat (c.toNat + run.shift).toNat
  | none => c

/-- The upper case of one character. -/
def upperOf (c : Char) : List Char :=
  if c.toNat < 128 then [c.toUpper]
  else match upperSequences.find? (·.1 == c.toNat) with
    | some (_, sequence) => sequence.map Char.ofNat
    | none => [shiftCase upperRuns c]

/-- The lower case of one character, wherever it stands. A dotted capital I keeps its dot. -/
def lowerOf (c : Char) : List Char :=
  if c.toNat < 128 then [c.toLower]
  else if c.toNat == 0x130 then ['i', Char.ofNat 0x307]
  else [shiftCase lowerRuns c]

/-- Whether the character is one of a pair of cases. -/
def isCased (c : Char) : Bool :=
  if c.toNat < 128 then c.isAlpha else casedCharacters.contains c

/-- Whether the first character that matters for case is a cased one. -/
def meetsCased (cs : List Char) : Bool :=
  match cs.dropWhile caseIgnorable.contains with
  | c :: _ => isCased c
  | [] => false

/-- Lower case of the characters after `before`, which is in reverse. A sigma is final if a cased
character comes before it and none after it. -/
def lowerAfter (before : List Char) : List Char → List Char
  | [] => []
  | c :: rest =>
    let lower :=
      if c == 'Σ' then
        if meetsCased before && !meetsCased rest then ['ς'] else ['σ']
      else lowerOf c
    lower ++ lowerAfter (c :: before) rest

/-- The upper case of a text. -/
def toUpper (s : String) : String := String.ofList (s.toList.flatMap upperOf)

/-- The lower case of a text. -/
def toLower (s : String) : String := String.ofList (lowerAfter [] s.toList)

end Text

end StaticConfig
