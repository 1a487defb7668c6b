import Lowering.CommandLine.Arguments
import Lowering.CommandLine.Files
import Lowering.CommandLine.Log
import Lowering.Json.Writer
import Lowering.Report
import Lowering.Template.Document

/-!
# The command line program

The program reads a document from a file or from standard input, lowers it and prints the result.
Its status is 0 after a clean run, 1 if a fatal diagnostic was met, and 2 if the arguments or the
document cannot be used.

* `CommandLine.run` is what the program prints, given its surroundings;
* `CommandLine.Failure` are the causes for which it ends without printing anything.
-/

namespace Lowering.CommandLine

/-- What the program prints, and its status. -/
structure Outcome where
  status : Nat
  stdout : Text := []
  stderr : Text := []
deriving DecidableEq, Repr

/-- Why the program ends without printing anything. -/
inductive Failure where
  | file (name : String) (cause : FileCause)
  | document (error : LoadError)
  | report (error : ReportError)
  | printing (error : Utf8.EncodeError)

/-- A failure in words. -/
def Failure.message : Failure → String
  | .file name cause => cause.message name
  | .document e => e.message
  | .report e => e.message
  | .printing e => e.message

/-- What the program works with. -/
structure Surroundings where
  stdin : String := ""
  files : String → Except FileCause String := Files.read fun _ => none
  reader : ScriptReader

/-- How to call the program. -/
def usage : String :=
  "usage: molosser [-h] [--json] [--stats] [--verbose] [file]\n"

/-- The help text. -/
def help : String :=
  usage ++ "\nLower a parsed template document to a TSX render tree\n\n" ++
    "positional arguments:\n  file           Parser JSON document (default: stdin)\n\n" ++
    "options:\n  -h, --help     show this help message and exit\n" ++
    "  --json         Print the result as JSON\n" ++
    "  --stats        Print output node kind counts\n" ++
    "  --verbose, -v  Log dispatch decisions and diagnostics\n"

/-- Text with every kind of line end as a line feed. -/
def unifyLines : List Char → List Char
  | [] => []
  | '\r' :: '\n' :: rest => '\n' :: unifyLines rest
  | c :: rest => (if c = '\r' then '\n' else c) :: unifyLines rest

/-- The text of the document. -/
def input (surroundings : Surroundings) (file : Option String) : Except Failure String :=
  match file with
  | none => .ok surroundings.stdin
  | some name =>
    if name.isEmpty then .ok surroundings.stdin
    else
      (surroundings.files name).mapError (.file name)

/-- A failure to load that the program reports; the others end it. That a value is no node is
reported with the value, which has to be one that can be shown. -/
def isReported : LoadError → Bool
  | .unreadable (.malformed _ _) | .invalid _ _ => true
  | .notNode v => v.isWritable
  | _ => false

/-- The counts by kind, in the order of the kinds' names. -/
def statLines (stats : List (Kind × Nat)) : Text :=
  let sorted := (stats.map fun s => (s.1.name, s.2)).mergeSort fun a b => decide (a.1 ≤ b.1)
  Report.heading "Stats" ++ "\n" ++
    (sorted.flatMap fun s => Text.ofString ("  " ++ s.1 ++ ": " ++ toString s.2 ++ "\n"))

/-- A result as text: JSON, or a dump. -/
def reportText (options : Arguments.Options) (report : Report) : Except Failure Text :=
  if options.json then
    if report.encode.isWritable then .ok (Text.ofString report.encode.pretty)
    else .error (.report (.rendering .oversized))
  else report.dump.mapError fun e => .report (.rendering e)

/-- The printed result. Standard output takes octets, and a text with a surrogate has none. -/
def output (options : Arguments.Options) (report : Report) : Except Failure Text := do
  let main ← reportText options report
  let _ ← (Utf8.encode main).mapError .printing
  pure (main ++ "\n" ++ if options.stats then statLines report.stats else [])

/-- Runs the program on loaded options. -/
def execute (surroundings : Surroundings) (options : Arguments.Options) :
    Except Failure Outcome := do
  let text ← input surroundings options.file
  let loading := Document.readText (String.ofList (unifyLines text.toList))
  let notes := loading.met.map Log.unknownKind
  match loading.result with
  | .error e =>
    if isReported e then
      .ok { status := 2
            stderr := Log.text options.verbose notes ++ "error: " ++ e.message ++ "\n" }
    else .error (.document e)
  | .ok root =>
    let (events, outcome) := lowerDocument { reader := surroundings.reader } root
    let report ← outcome.mapError .report
    let log := notes ++ Log.starting root.kind :: Log.ofEvents events ++
      [Log.finished report.render.length report.statements.length report.diagnostics.length
        report.fatal.length]
    let printed ← output options report
    .ok { status := if report.hasFatal then 1 else 0
          stdout := printed
          stderr := Log.text options.verbose log }

/-- Runs the program. -/
def run (surroundings : Surroundings) (arguments : List String) : Except Failure Outcome :=
  match Arguments.parse arguments with
  | .help => .ok { status := 0, stdout := help }
  | .misuse message =>
    .ok { status := 2, stderr := usage ++ "molosser: error: " ++ message ++ "\n" }
  | .run options => execute surroundings options

end Lowering.CommandLine
