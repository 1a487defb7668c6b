import Lowering.CommandLine.Run

/-!
# The program

The outer layer of the command line program: it fetches the file or standard input that the
arguments ask for, runs `CommandLine.run`, and prints what comes out. What goes to standard output
holds no surrogate; in what goes to the standard error stream a surrogate shows as its number.

The syntax trees of script sources come from a JSON file, an object from source texts to trees,
which the environment variable `treesVariable` names. A source without a tree has no statements.
-/

namespace Lowering.Main

/-- The environment variable that names the file of syntax trees. -/
def treesVariable : String := "LOWERING_SYNTAX_TREES"

/-- The grammar of a JSON text with syntax trees. -/
def grammarOfText (text : String) : Grammar :=
  match Json.parse text with
  | .ok (.obj members) => .ofTrees (members.map fun m => (m.1, Syntax.decode m.2))
  | _ => .ofTrees []

/-- The grammar that the environment names. -/
def fetchGrammar : IO Grammar := do
  match ← IO.getEnv treesVariable with
  | none => pure (.ofTrees [])
  | some path => pure (grammarOfText (← IO.FS.readFile path))

/-- All of a stream, after `text`. -/
partial def readAll (stream : IO.FS.Stream) (text : String) : IO String := do
  let line ← stream.getLine
  if line.isEmpty then pure text else readAll stream (text ++ line)

/-- The cause of a failure to open a file. -/
def causeOf : IO.Error → FileCause
  | .noFileOrDirectory _ _ _ => .notFound
  | .inappropriateType _ 20 _ => .notDirectory
  | .inappropriateType _ _ _ => .isDirectory
  | .invalidArgument _ 36 _ => .nameTooLong
  | _ => .notFound

/-- The content of a file, or why it cannot be opened. -/
def readNamed (name : String) : IO (Except FileCause String) := do
  if name.toList.contains (Char.ofNat 0) then pure (.error .nullByte)
  else
    try
      let content ← IO.FS.readFile name
      pure (.ok content)
    catch e => pure (.error (causeOf e))

/-- The file or standard input that the arguments ask for. -/
def fetchSurroundings (arguments : List String) : IO CommandLine.Surroundings := do
  let reader := (← fetchGrammar).reader
  match Arguments.parse arguments with
  | .run options =>
    let name := options.file.getD ""
    if name.isEmpty then
      pure { stdin := ← readAll (← IO.getStdin) "", reader := reader }
    else
      let content ← readNamed name
      pure { files := fun _ => content, reader := reader }
  | _ => pure { reader := reader }

end Lowering.Main

open Lowering in
/-- Runs the program on its arguments. -/
def main (arguments : List String) : IO UInt32 := do
  let surroundings ← Main.fetchSurroundings arguments
  match CommandLine.run surroundings arguments with
  | .error failure =>
    (← IO.getStderr).putStrLn failure.message
    pure 1
  | .ok outcome =>
    (← IO.getStdout).putStr outcome.stdout.shown
    (← IO.getStderr).putStr outcome.stderr.escaped
    pure (UInt32.ofNat outcome.status)
