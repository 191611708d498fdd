import StaticConfig.Command.Arguments

/-!
# The command line

`Plan.ofArgs` decides what a command prints and which file it writes; nothing is read or written
here.
-/

namespace StaticConfig

/-! ### Extraction -/

/-- An extraction with the warnings that come before its result. -/
structure Extraction where
  warnings : List Unresolved
  result : Except ExtractFault Json

/-- Extracts what the arguments ask for. Warnings are kept where any shape will do. -/
def Arguments.extract (args : Arguments) (sources : Sources) : Extraction :=
  match loadEntry sources args.file with
  | .error fault => ⟨[], .error fault⟩
  | .ok project =>
    ⟨if args.shape = .any then project.warnings else [],
      project.extract args.file args.symbol args.shape args.limit⟩

/-! ### Plans -/

/-- What a finished command leaves behind on its two streams, and its exit code. -/
structure Report where
  code : Nat
  printed : String
  complaint : String
deriving DecidableEq

/-- What a command does: it may write one file, and it reports. -/
structure Plan where
  /-- The path and the text of the file to write. -/
  write? : Option (String × String)
  report : Report

namespace Plan

/-- Lines of text, each ended. -/
def lines (ls : List String) : String := String.join (ls.map (· ++ "\n"))

/-- The help text. -/
def help : String := lines
  ["cfgx - static extraction of TypeScript configuration",
    "",
    "Usage: cfgx <command> [options]",
    "",
    "Commands:",
    "  extract <file.ts> <symbol>   Evaluate a top-level declaration and print it as JSON",
    "  help                         Show this help message",
    "  version                      Show version information",
    "",
    "Extract options:",
    "  --models           Require a list of records",
    "  --config           Require a single record",
    "  -o <path>          Write a JSON snapshot instead of printing",
    "  --max-depth=<n>    Bound on nested evaluation steps (default 1024)",
    "",
    "Set RUST_LOG (e.g. RUST_LOG=cfgx_eval=debug) to enable tracing output."]

/-- What is shown after arguments that make no sense. -/
def usage : String := lines
  ["Usage: cfgx extract <file.ts> <symbol> [options]",
    "",
    "Options:",
    "  --models           Require a list of records",
    "  --config           Require a single record",
    "  -o <path>          Write a JSON snapshot instead of printing",
    "  --max-depth=<n>    Bound on nested evaluation steps (default 1024)"]

/-- The version of the program. -/
def version : String := "0.1.0"

/-- Nothing but a text to print. -/
def print (text : String) : Plan := ⟨none, ⟨0, text, ""⟩⟩

/-- The line that a fault is complained about with. -/
def complaint (message : String) : String := lines ["error: " ++ message]

/-- The plan of an extraction. -/
def extract (sources : Sources) (args : Arguments) : Plan :=
  let extraction := args.extract sources
  let warnings := lines (extraction.warnings.map fun w => "warning: " ++ w.message)
  match extraction.result, args.output with
  | .error fault, _ => ⟨none, ⟨1, "", warnings ++ complaint fault.message⟩⟩
  | .ok document, none => ⟨none, ⟨0, snapshotText document, warnings⟩⟩
  | .ok document, some path => ⟨some (path, snapshotText document), ⟨0, "", warnings⟩⟩

/-- The plan for the arguments after the name of the program. -/
def ofArgs (sources : Sources) : List String → Plan
  | [] => print help
  | "extract" :: args =>
    match Arguments.parse args with
    | .ok args => extract sources args
    | .error fault => ⟨none, ⟨1, "", complaint fault.message ++ usage⟩⟩
  | command :: _ =>
    if ["help", "--help", "-h"].contains command then print help
    else if ["version", "--version", "-v"].contains command then
      print (lines ["cfgx " ++ version])
    else ⟨none, ⟨1, help, lines ["Unknown command: " ++ command, ""]⟩⟩

/-- The report when the file has been written, or could not be for some cause. -/
def reportAfter (plan : Plan) : Except FileFault Unit → Report
  | .ok _ => plan.report
  | .error cause =>
    let spelling := (plan.write?.map (·.1)).getD ""
    ⟨1, plan.report.printed,
      plan.report.complaint ++ complaint (ExtractFault.unwritable spelling cause).message⟩

/-- Carries the plan out in a directory. -/
def runIn (plan : Plan) (d : Directory) : Report × Directory :=
  match plan.write? with
  | none => (plan.report, d)
  | some (path, text) =>
    match d.write path text with
    | .ok after => (plan.reportAfter (.ok ()), after)
    | .error cause => (plan.reportAfter (.error cause), d)

end Plan

end StaticConfig
