/-!
# Paths

A path is a start, the root or the current directory, and a list of parts that move from there.
`Path.ofText` reads a spelling, `Path.normalize` removes the parts that move nowhere and lets a
move up take back the last part, and `Path.text` spells a path again.
-/

namespace StaticConfig

/-- One move of a path. -/
inductive PathPart
  /-- Stay, written `.`. -/
  | here
  /-- Go to the parent directory, written `..`. -/
  | up
  /-- Go to the entry of that name. -/
  | name (text : String)
deriving DecidableEq, Repr

/-- A path: where it starts and the moves from there. -/
structure Path where
  rooted : Bool
  parts : List PathPart
deriving DecidableEq, Repr

namespace Path

/-- The path that moves nowhere. -/
def empty : Path := ⟨false, []⟩

instance : Inhabited Path := ⟨empty⟩

/-! ### Spelling -/

/-- The part that a piece of text between slashes stands for. -/
def partOf (piece : List Char) : PathPart :=
  if piece = ['.'] then .here
  else if piece = ['.', '.'] then .up
  else .name (String.ofList piece)

/-- Reads a spelling. Repeated and trailing slashes do not count, and neither does a `.` unless it
is the first part of a relative path. -/
def ofText (text : String) : Path :=
  let pieces := (text.toList.splitOn '/').filter (!·.isEmpty)
  let rooted := text.toList.head? == some '/'
  let parts := pieces.map partOf
  match rooted, parts with
  | false, .here :: rest => ⟨false, .here :: rest.filter (· != .here)⟩
  | _, parts => ⟨rooted, parts.filter (· != .here)⟩

/-- The spelling of one part. -/
def PathPart.text : PathPart → String
  | .here => "."
  | .up => ".."
  | .name text => text

/-- Spells the path with single slashes. -/
def text (p : Path) : String :=
  (if p.rooted then "/" else "") ++ "/".intercalate (p.parts.map PathPart.text)

/-! ### Moving about -/

/-- Goes on from `p` along `next`, which starts over if it is rooted. -/
def join (p next : Path) : Path :=
  if next.rooted then next else ⟨p.rooted, p.parts ++ next.parts.filter (· != .here)⟩

/-- The path without its last part: the directory that holds the entry. -/
def parent (p : Path) : Path := ⟨p.rooted, p.parts.dropLast⟩

/-- One move of the normal form: a move up takes back the last part, and stays if there is none. -/
def step (parts : List PathPart) : PathPart → List PathPart
  | .here => parts
  | .up => if parts.isEmpty then [.up] else parts.dropLast
  | .name text => parts ++ [.name text]

/-- The path without parts that move nowhere. -/
def normalize (p : Path) : Path := ⟨p.rooted, p.parts.foldl step []⟩

/-! ### Names -/

/-- The name of the entry, if the path ends in one. -/
def fileName? (p : Path) : Option String :=
  match p.parts.getLast? with
  | some (.name text) => some text
  | _ => none

/-- Splits a name at its last dot, unless it has none or starts with it. -/
def splitExtension (name : String) : String × Option String :=
  let reversed := name.toList.reverse
  let extension := (reversed.takeWhile (· != '.')).reverse
  match reversed.dropWhile (· != '.') with
  | _ :: stem@(_ :: _) => (String.ofList stem.reverse, some (String.ofList extension))
  | _ => (name, none)

/-- What follows the last dot of the name. -/
def extension? (p : Path) : Option String := p.fileName?.bind fun name => (splitExtension name).2

/-- The path with another extension, or with one if it has none; a path that does not end in a
name stays as it is. -/
def withExtension (p : Path) (extension : String) : Path :=
  match p.fileName? with
  | some name =>
    ⟨p.rooted, p.parts.dropLast ++ [.name ((splitExtension name).1 ++ "." ++ extension)]⟩
  | none => p

/-- The path of an entry of the directory `p`. -/
def child (p : Path) (name : String) : Path := ⟨p.rooted, p.parts ++ [.name name]⟩

/-- The path of the directory above the directory `p`; above the root there is none. -/
def above (p : Path) : Path :=
  if p.fileName?.isSome then p.parent
  else if p.rooted && p.parts.isEmpty then p
  else ⟨p.rooted, p.parts ++ [.up]⟩

end Path

end StaticConfig
