import Lowering.Position

/-!
# Origins of script rows

Script text comes from the text nodes of a tag. The indentation of a line is not part of the text,
so that the column of a row comes from the text node that starts it.

* `Origins.ofTexts` maps rows to the positions of the text nodes that start them;
* `Origins.locate` is the template position of a row and column of the script.
-/

namespace Lowering

/-- Positions of rows; of two entries for a row the first one counts. -/
abbrev Origins := List (Nat × Position)

namespace Origins

/-- A text that puts a character on the current row. -/
def startsRow (s : Text) : Bool :=
  match s with
  | [] => false
  | p :: _ => p != .char '\n'

/-- Whether the next character is the first one of a row, given whether the first of `s` is. -/
def atRowStart (before : Bool) (s : Text) : Bool :=
  match s.getLast? with
  | none => before
  | some p => p == .char '\n'

/-- The rows that start with a text of known position, from a row on. -/
def ofTextsFrom (row : Nat) (atStart : Bool) : List (Position × Text) → Origins
  | [] => []
  | (position, s) :: rest =>
    let later := ofTextsFrom (row + s.count (.char '\n')) (atRowStart atStart s) rest
    if atStart && startsRow s && !position.isUnknown then (row, position) :: later else later

/-- The origins of the rows of a script in a tag. If no text says where row zero starts, it is the
first column of the line after the tag. -/
def ofTexts (texts : List (Position × Text)) (tag : Position) : Origins :=
  let known := ofTextsFrom 0 true texts
  match known.lookup 0 with
  | some _ => known
  | none => known ++ [(0, { line := tag.line + 1, column := 1, filename := tag.filename })]

/-- The entry with the highest row. -/
def highest : Origins → Option (Nat × Position)
  | [] => none
  | entry :: rest =>
    match highest rest with
    | none => some entry
    | some other => if entry.1 < other.1 then some other else some entry

/-- The template position of a point of the script. A row without an entry started inside a text:
its line is counted from the closest entry before it. -/
def locate (origins : Origins) (row column : Int) : Option Position :=
  match origins.find? fun entry => (entry.1 : Int) == row with
  | some (_, origin) =>
    some { line := origin.line, column := origin.column + column, filename := origin.filename }
  | none =>
    (highest (origins.filter fun entry => (entry.1 : Int) < row)).map fun (known, origin) =>
      { line := origin.line + (row - known), column := column + 1, filename := origin.filename }

end Origins

end Lowering
