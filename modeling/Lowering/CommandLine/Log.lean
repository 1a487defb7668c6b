import Lowering.Lower.Emission

/-!
# The log

What happens on the way is written as log lines: a level, the part of the program that speaks, and
a message. Only warnings are shown unless all lines are asked for.

* `Log.ofEvents` are the lines of events;
* `Log.text` is the shown part of a log.
-/

namespace Lowering

/-- The levels of log lines. -/
inductive Level where
  | debug
  | info
  | warning
deriving DecidableEq, Repr

/-- The name of a level. -/
def Level.name : Level → String
  | .debug => "DEBUG"
  | .info => "INFO"
  | .warning => "WARNING"

/-- A line of the log. -/
structure LogLine where
  level : Level
  speaker : String
  message : Text
deriving DecidableEq, Repr

namespace Log

/-- A log line as written. -/
def lineText (line : LogLine) : Text :=
  line.level.name ++ " " ++ line.speaker ++ ": " ++ line.message ++ "\n"

/-- The line of a node whose kind is not known. -/
def unknownKind (kind : Text) : LogLine :=
  ⟨.debug, "molosser.template", "No node class for " ++ kind ++ ", keeping it as UnknownNode"⟩

/-- The line of a diagnostic. -/
def diagnostic (d : Diagnostic) : LogLine :=
  if d.isFatal then ⟨.warning, "molosser.diagnostics", "Fatal diagnostic: " ++ d.text⟩
  else ⟨.debug, "molosser.diagnostics", "Diagnostic: " ++ d.text⟩

/-- The lines of events, with the number of statements hoisted before them. -/
def ofEventsFrom (hoisted : Nat) : List Event → List LogLine
  | [] => []
  | .diagnosed d :: rest => diagnostic d :: ofEventsFrom hoisted rest
  | .parsed statements :: rest =>
    ⟨.debug, "molosser.passes.script",
      "Parsed " ++ toString statements ++ " top-level script statements"⟩ ::
      ofEventsFrom hoisted rest
  | .hoisted dialect statements :: rest =>
    let total := hoisted + statements.length
    ⟨.debug, "molosser.passes.node",
      "Hoisted " ++ dialect ++ " script content; " ++ toString total ++
        " top-level statements so far"⟩ ::
      ofEventsFrom total rest
  | .faulted _ :: rest => ofEventsFrom hoisted rest

/-- The lines of the events of a run. -/
def ofEvents (events : List Event) : List LogLine :=
  ofEventsFrom 0 events

/-- The line at the start of a run. -/
def starting (kind : Text) : LogLine :=
  ⟨.info, "molosser.api", "Lowering template document (" ++ kind ++ ")"⟩

/-- The line at the end of a run. -/
def finished (render statements diagnostics fatal : Nat) : LogLine :=
  ⟨.info, "molosser.api",
    "Lowered to " ++ toString render ++ " render nodes, " ++ toString statements ++
      " top-level statements, " ++ toString diagnostics ++ " diagnostics (" ++ toString fatal ++
      " fatal)"⟩

/-- The part of a log that is shown. -/
def text (verbose : Bool) (lines : List LogLine) : Text :=
  (lines.filter fun line => verbose || line.level == .warning).flatMap lineText

end Log

end Lowering
