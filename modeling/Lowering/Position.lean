import Lowering.Numeric.Numeral
import Lowering.Text.CodePoint

/-!
# Source positions

A `Position` is a line, a column and possibly a file. Line and column zero together mean that the
position is unknown. A `Mark` is what a template node says about its position: each part may be
missing.

* `Position.text` shows a position; `Position.isWritable` says whether it can be shown.
-/

namespace Lowering

/-- A position in a source file. -/
structure Position where
  line : Int := 0
  column : Int := 0
  filename : Option Text := none
deriving DecidableEq, Repr

namespace Position

/-- No position: line and column are both zero. -/
def isUnknown (p : Position) : Bool :=
  p.line == 0 && p.column == 0

/-- The file that stands in front of line and column; an empty name is left out. -/
def filePart (p : Position) : Text :=
  match p.filename with
  | none => []
  | some name => if name.isEmpty then [] else name ++ ":"

/-- A position as diagnostics show it. -/
def text (p : Position) : Text :=
  if p.isUnknown then "<unknown>" else p.filePart ++ toString p.line ++ ":" ++ toString p.column

/-- A position whose line and column can be written. -/
def isWritable (p : Position) : Bool :=
  Lowering.isWritable p.line && Lowering.isWritable p.column

end Position

/-- The position parts that are written on a template node. -/
structure Mark where
  line : Option Int := none
  column : Option Int := none
  filename : Option Text := none
deriving DecidableEq, Repr

/-- The position of a mark; a missing line or column is zero. -/
def Mark.position (m : Mark) : Position where
  line := m.line.getD 0
  column := m.column.getD 0
  filename := m.filename

end Lowering
