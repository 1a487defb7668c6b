import Lowering.Lower.Node
import Lowering.Output.Render
import Lowering.Record.Model
import Lowering.Template.Node

/-!
# Reports

Lowering a document yields a render tree, statements for the module, and diagnostics.

* `lowerDocument` lowers a document, and tells the events on the way;
* `Report.dump` shows a result in sections, a line for each node and diagnostic;
* `Report.stats` counts the output nodes by kind;
* `Report.encode` is the result as JSON, `Report.decode` reads it back.
-/

namespace Lowering

/-- The result of lowering a document. -/
structure Report where
  statements : List Output := []
  render : List Output := []
  diagnostics : List Diagnostic := []

/-- Why there is no result: a fault ended the run, or something cannot be shown. -/
inductive ReportError where
  | fault (fault : Fault)
  | rendering (error : RenderError)
deriving DecidableEq, Repr

/-- The absence of a result in words. -/
def ReportError.message : ReportError → String
  | .fault f => f.message
  | .rendering e => e.message

/-- What a document yields as a render tree. -/
def Yield.render : Yield → Except Fault (List Item)
  | .single _ => .error .noLength
  | yield => .ok yield.items

namespace Report

/-- Diagnostics, each on a line. -/
def diagnosticTexts : List Diagnostic → Except RenderError (List Text)
  | [] => .ok []
  | d :: rest =>
    match d.line? with
    | none => .error .oversized
    | some line => (diagnosticTexts rest).map (line :: ·)

/-- What is wrong with lists of which `misfit` is the first misfit. Parts of nodes come first, then
whatever cannot be shown, and the misfit last. -/
def problem (misfit : Item) (statements render : List Item) (diagnostics : List Diagnostic) :
    ReportError :=
  match (render ++ statements).find? Item.isPart with
  | some part => .fault (.ofMisfit part)
  | none =>
    let shown : Except RenderError Unit := do
      let _ ← diagnosticTexts (diagnostics.filter Diagnostic.isFatal)
      let _ ← Item.texts statements
      let _ ← Item.texts render
      let _ ← diagnosticTexts diagnostics
    match shown with
    | .error e => .rendering e
    | .ok () => .fault (.ofMisfit misfit)

/-- The result with the given lists, if they are without misfits. -/
def ofItems (statements render : List Item) (diagnostics : List Diagnostic) :
    Except ReportError Report :=
  match Item.misfits (statements ++ render) with
  | [] => .ok ⟨Item.nodes statements, Item.nodes render, diagnostics⟩
  | misfit :: _ => .error (problem misfit statements render diagnostics)

end Report

/-- Lowers a document. The events end where a fault ends the run. -/
def lowerDocument (setup : Setup) (root : Node) : List Event × Except ReportError Report :=
  let (events, outcome) := (lowerNode setup { documentRoot := true } root).settle
  (events, do
    let yield ← outcome.mapError .fault
    let render ← yield.render.mapError .fault
    Report.ofItems (Event.statements events) render (Event.diagnostics events))

namespace Report

/-- The fatal diagnostics. -/
def fatal (r : Report) : List Diagnostic :=
  r.diagnostics.filter Diagnostic.isFatal

/-- Whether a fatal diagnostic was met. -/
def hasFatal (r : Report) : Bool :=
  r.diagnostics.any Diagnostic.isFatal

/-- The counts of output nodes by kind. -/
def stats (r : Report) : List (Kind × Nat) :=
  tally (r.statements ++ r.render)

/-- The heading of a section. -/
def heading (title : String) : Text :=
  "═══ " ++ title ++ " ═══"

/-- The lines of a section's body. -/
def indented (lines : List Text) : List Text :=
  lines.map fun line => Text.ofString "  " ++ line

/-- The section of diagnostics; there is none if there are no diagnostics. -/
def diagnosticLines (r : Report) : Except RenderError (List Text) :=
  match r.diagnostics with
  | [] => .ok []
  | diagnostics => do
    let texts ← diagnosticTexts diagnostics
    .ok (heading "Diagnostics" :: indented texts)

/-- The lines of the dump. -/
def lines (r : Report) : Except RenderError (List Text) := do
  let statements ← Output.renderAll r.statements
  let render ← Output.renderAll r.render
  let diagnostics ← r.diagnosticLines
  .ok (heading "Top-level statements" :: indented statements ++
    heading "Render" :: indented render ++ diagnostics)

/-- A result in sections. -/
def dump (r : Report) : Except RenderError Text :=
  r.lines.map (Text.joinWith "\n")

/-- A result as JSON. -/
def encode (r : Report) : Json :=
  .obj [("top_level_statements", .arr (Output.encodeAll r.statements)),
    ("render", .arr (Output.encodeAll r.render)),
    ("diagnostics", .arr (r.diagnostics.map Diagnostic.encode))]

/-- Reads a result. -/
def decode : Json → Checked Report :=
  Field.recordOf "Report" fun members =>
    Report.mk <$> Field.required "top_level_statements" Output.decodeList members
      <*> Field.required "render" Output.decodeList members
      <*> Field.required "diagnostics" (Field.listOf Diagnostic.decode) members

end Report

end Lowering
