import Lowering.Position
import Lowering.Text.CodePoint
import Lowering.Text.Quoted

/-!
# Diagnostics

A diagnostic is a problem that was found while lowering: a code, reasons, and a position. A fatal
one withholds the output of the node it is about; `maybeBug` marks a probable gap in the compiler.

* `Diagnostic.text` is the line that shows a diagnostic, `Diagnostic.line?` the same if all its
  numbers can be written.
-/

namespace Lowering

/-- The classes of problems. -/
inductive ErrorCode where
  | unsupportedSyntax
  | scriptSyntax
deriving DecidableEq, Repr

/-- The name of a class of problems. -/
def ErrorCode.name : ErrorCode → String
  | .unsupportedSyntax => "UnsupportedSyntaxError"
  | .scriptSyntax => "ScriptSyntaxError"

/-- The class of problems with that name. -/
def ErrorCode.ofName? (name : Text) : Option ErrorCode :=
  [ErrorCode.unsupportedSyntax, .scriptSyntax].find? fun code => code.name == name

/-- A problem that was found while lowering. -/
structure Diagnostic where
  code : ErrorCode
  reasons : List Text := []
  maybeBug : Bool := false
  isFatal : Bool := false
  position : Position := {}
deriving DecidableEq, Repr

/-- A diagnostic on one line. -/
def Diagnostic.text (d : Diagnostic) : Text :=
  d.position.text ++ ": " ++ (if d.isFatal then "error" else "warning") ++ ": " ++ d.code.name ++
    ": " ++ Text.joinWith "; " d.reasons ++ (if d.maybeBug then " (possible compiler bug)" else "")

/-- A diagnostic on one line, if its position can be written. -/
def Diagnostic.line? (d : Diagnostic) : Option Text :=
  if d.position.isWritable then some d.text else none

end Lowering
