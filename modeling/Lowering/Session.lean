import Lowering.Lower.Emission

/-!
# Sessions

A session collects the diagnostics and the hoisted statements of several runs.

* `Session.push` adds one diagnostic, `Session.hoist` statements of the module;
* `Session.record` adds the events of a run, `Session.perform` the run itself;
* `Session.errors`, `Session.warnings`, `Session.hasFatal` look at the diagnostics.
-/

namespace Lowering

/-- What several runs have brought about together. -/
structure Session where
  diagnostics : List Diagnostic := []
  statements : List Item := []

namespace Session

/-- Adds a diagnostic. -/
def push (session : Session) (d : Diagnostic) : Session :=
  { session with diagnostics := session.diagnostics ++ [d] }

/-- Adds the elements of a list to the statements. Places that are left empty are skipped. -/
def hoist (session : Session) (items : List Item) : Session :=
  { session with statements := session.statements ++ Item.present items }

/-- Adds the events of a run. -/
def record (session : Session) (events : List Event) : Session where
  diagnostics := session.diagnostics ++ Event.diagnostics events
  statements := session.statements ++ Event.statements events

/-- Runs something in a session: the events that count are added, whether or not a fault ends it.
-/
def perform {α : Type} (session : Session) (run : Emission α) : Session × Except Fault α :=
  let (events, outcome) := run.settle
  (session.record events, outcome)

/-- Recording runs one after the other is recording them together. -/
theorem record_record (session : Session) (first second : List Event) :
    (session.record first).record second = session.record (first ++ second) := by
  simp [record, Event.diagnostics, Event.statements]

/-- The fatal diagnostics. -/
def errors (session : Session) : List Diagnostic :=
  session.diagnostics.filter Diagnostic.isFatal

/-- The diagnostics that are not fatal. -/
def warnings (session : Session) : List Diagnostic :=
  session.diagnostics.filter fun d => !d.isFatal

/-- Whether a fatal diagnostic was met. -/
def hasFatal (session : Session) : Bool :=
  session.diagnostics.any Diagnostic.isFatal

end Session

end Lowering
