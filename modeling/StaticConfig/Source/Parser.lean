import StaticConfig.Source.Nesting
import StaticConfig.Source.Parser.Element
import StaticConfig.Source.Parser.Item

/-!
# Parsing modules

The rules of all forms are tied together to one grammar, and a text is parsed as a module: brackets
may not nest too deep, and the earliest fault counts.
-/

namespace StaticConfig

/-- The grammar of forms that are nested at most `depth` deep. -/
def grammar : (depth : Nat) → Grammar
  | 0 => .exhausted
  | depth + 1 => {
      assignment := fun s => (grammar depth).assignmentRule s
      unary := fun s => (grammar depth).unaryRule s
      operators := fun s left bound => (grammar depth).operatorsRule s left bound
      newTarget := fun s => (grammar depth).newTargetRule s
      type := fun s conditional => (grammar depth).typeRule s conditional
      pattern := fun s => (grammar depth).patternRule s
      element := fun s => (grammar depth).elementRule s
      statement := fun s declarations => (grammar depth).statementRule s declarations
      item := fun s => (grammar depth).itemRule s }

/-- How deep the forms of a text can nest: every character opens only a few of them. -/
def depthBound (text : Cursor) : Nat := 8 * (text.rest.length + 2)

/-- Why a text is no module. -/
inductive SourceFault
  /-- Too many brackets are open at a position. -/
  | nesting (pos : Nat)
  /-- What stands at a position cannot stand there. -/
  | unexpected (pos : Nat)
deriving DecidableEq

/-- Where the text is at fault. -/
def SourceFault.pos : SourceFault → Nat
  | nesting pos | unexpected pos => pos

/-- The items of a module up to the end of its text. -/
def moduleItems (g : Grammar) (s : Setting) : Parse (List ModuleItem) := do
  let items ← Parse.loop [] fun items => do
    if ← Parse.atEnd then return (items, false)
    else return ((← g.item s) :: items, true)
  return items.reverse

/-- Parses a text as the module in a file; with `elements`, expressions may be elements. -/
def parseModule (file : Path) (elements : Bool) (text : String) : Except SourceFault Module :=
  let c := Lexer.afterHashBang (.ofText text)
  match nestingOverflow maxNesting 0 (tokens elements c) with
  | some pos => .error (.nesting pos)
  | none =>
    let first : ParseState := ⟨Lexer.readToken c, 0, c.pos, none⟩
    match moduleItems (grammar (depthBound c)) (.ofModule file elements) first with
    | .error pos state => .error (.unexpected (min pos (state.fault.getD pos)))
    | .ok items state =>
      match state.fault with
      | some pos => .error (.unexpected pos)
      | none => .ok ⟨items⟩

/-! ### Places in a text -/

/-- A line and a column, both from one on. -/
structure LineColumn where
  line : Nat
  column : Nat
deriving DecidableEq

/-- The line and column `pos` characters further than a given one. A line ends with a line feed, or
with a carriage return that no line feed follows; columns count characters. -/
def LineColumn.advance (place : LineColumn) : (pos : Nat) → List Char → LineColumn
  | 0, _ | _, [] => place
  | pos + 1, c :: rest =>
    if c == '\n' || (c == '\r' && rest.head? != some '\n') then
      LineColumn.advance ⟨place.line + 1, 1⟩ pos rest
    else LineColumn.advance ⟨place.line, place.column + 1⟩ pos rest

/-- The line and column of a position in a text. -/
def lineColumn (text : String) (pos : Nat) : LineColumn :=
  LineColumn.advance ⟨1, 1⟩ pos text.toList

end StaticConfig
