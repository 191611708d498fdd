import StaticConfig.Project.Directory
import StaticConfig.Project.Load
import StaticConfig.Project.Resolve
import StaticConfig.Value.Json

/-!
# Extraction

One declaration of a project as data: evaluated with nothing in scope, checked for the shape that
the caller asks for, and turned into JSON.
-/

namespace StaticConfig

/-- What a declaration is expected to be. -/
inductive Shape
  | any
  /-- A list of records. -/
  | models
  /-- A single record. -/
  | config
deriving DecidableEq

/-- Why a declaration cannot be extracted. -/
inductive ExtractFault
  | project (fault : ProjectFault)
  | evaluation (fault : Fault)
  /-- A value of another shape than the expected one. -/
  | shape (expected found : String)
  /-- A snapshot that cannot be written to a path, as the caller spells it. -/
  | unwritable (spelling : String) (cause : FileFault)

/-- The wording of an extraction fault. -/
def ExtractFault.message : ExtractFault → String
  | project fault => fault.message
  | evaluation fault => fault.message
  | shape expected found => "expected " ++ expected ++ ", found " ++ found
  | unwritable spelling cause => "failed to write " ++ spelling ++ ": " ++ cause.message

namespace Shape

/-- The JSON form of a record. -/
def recordJson (v : Value) : Except ExtractFault Json :=
  match v with
  | .record .. => .ok v.toJson
  | _ => .error (.shape "record" v.typeName)

/-- The JSON form of a value that is of the shape; of the items that are not, the first counts. -/
def document (s : Shape) (v : Value) : Except ExtractFault Json :=
  match s with
  | any => .ok v.toJson
  | config => recordJson v
  | models =>
    match v with
    | .list _ items => return .array (← items.mapM recordJson)
    | _ => .error (.shape "list of records" v.typeName)

end Shape

namespace Project

/-- The value of a declaration, evaluated with nothing in scope. -/
def evaluate (project : Project) (file symbol : String) (limit : Nat) :
    Except ExtractFault Value := do
  match project.declaration file symbol with
  | .error fault => .error (.project fault)
  | .ok declarator =>
    match (((project.evaluator limit).eval .root (.declarator declarator)).run .start).1 with
    | .error fault => .error (.evaluation fault)
    | .ok value => .ok value

/-- The JSON form of a declaration of some shape. -/
def extract (project : Project) (file symbol : String) (shape : Shape) (limit : Nat) :
    Except ExtractFault Json := do
  shape.document (← project.evaluate file symbol limit)

end Project

/-- Loads the project of an entry. -/
def loadEntry (sources : Sources) (entry : String) : Except ExtractFault Project :=
  (Project.load sources [entry]).mapError .project

/-- The text of a snapshot: one member or item a line, and the last line ended. -/
def snapshotText (document : Json) : String := document.pretty ++ "\n"

/-- Writes a snapshot into a directory. -/
def Directory.writeSnapshot (d : Directory) (spelling : String) (document : Json) :
    Except ExtractFault Directory :=
  (d.write spelling (snapshotText document)).mapError (.unwritable spelling)

/-! ### Typed readings -/

namespace Json

/-- The document as a string. -/
def string? : Json → Option String
  | .string value => some value
  | _ => none

/-- The document as a list of strings. -/
def strings? : Json → Option (List String)
  | .array items => items.mapM string?
  | _ => none

/-- The document as an integer of sixteen bits without a sign. -/
def uint16? : Json → Option Nat
  | .integer (.ofNat n) => if n < Nat.pow 2 16 then some n else none
  | _ => none

/-- The document as integers of sixteen bits by name, in the order of the names. -/
def uint16Table? : Json → Option (List (String × Nat))
  | .object members =>
    let table? := members.mapM fun (name, value) => (uint16? value).map (name, ·)
    table?.map (·.mergeSort fun a b => !(b.1 < a.1))
  | _ => none

end Json

end StaticConfig
