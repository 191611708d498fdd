import StaticConfig.Command.Run

/-!
# The program

Reads the files that a project may need, carries out the plan for the arguments and reports.
-/

namespace StaticConfig

/-- What has been read so far: texts, and why other paths have none. -/
structure Reading where
  texts : List (Path × String)
  faults : List (Path × FileFault)

namespace Reading

/-- The sources of what has been read. -/
def sources (reading : Reading) : Sources :=
  ⟨reading.texts, fun path => (reading.faults.lookup path).getD .noEntry⟩

/-- The cause of a failure to read or write; its number may be negative. -/
def causeOf (error : IO.Error) : FileFault :=
  match error with
  | .noFileOrDirectory .. => .noEntry
  | .inappropriateType _ code _ =>
    if code == 20 || code == 0 - 20 then .notDirectory
    else if code == 21 || code == 0 - 21 then .isDirectory
    else .system (toString error)
  | _ => .system (toString error)

/-- The files that a source may lead to. -/
def reaches (path : Path) (source : String) : List Path :=
  match parseSource path (withoutMark source) with
  | .ok m => (m.runtimeSources.filter isLocalSpecifier).flatMap (candidatePaths path)
  | .error _ => []

/-- Reads the waiting paths and all that they may lead to. -/
partial def extend (reading : Reading) : List Path → IO Reading
  | [] => return reading
  | path :: rest => do
    if (reading.texts.lookup path).isSome || (reading.faults.lookup path).isSome then
      return ← reading.extend rest
    try
      let text ← IO.FS.readFile path.text
      Reading.extend { reading with texts := (path, text) :: reading.texts }
        (rest ++ reaches path text)
    catch error =>
      Reading.extend { reading with faults := (path, causeOf error) :: reading.faults } rest

/-- Reads what a command needs: the file to extract from and all that it may lead to. -/
def ofArgs (args : List String) : IO Reading :=
  match args with
  | "extract" :: args =>
    match Arguments.parse args with
    | .ok args => Reading.extend ⟨[], []⟩ [(Path.ofText args.file).normalize]
    | .error _ => return ⟨[], []⟩
  | _ => return ⟨[], []⟩

end Reading

/-- Writes the file of a plan, if it has one. -/
def Plan.writeFile (plan : Plan) : IO (Except FileFault Unit) := do
  match plan.write? with
  | none => return .ok ()
  | some (path, text) =>
    try
      IO.FS.writeFile path text
      return .ok ()
    catch error => return .error (Reading.causeOf error)

end StaticConfig

open StaticConfig in
/-- Runs the program and gives its exit code. -/
def main (args : List String) : IO UInt32 := do
  let plan := Plan.ofArgs (← Reading.ofArgs args).sources args
  let report := plan.reportAfter (← plan.writeFile)
  IO.print report.printed
  IO.eprint report.complaint
  return UInt32.ofNat report.code
