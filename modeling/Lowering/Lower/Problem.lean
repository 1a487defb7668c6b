import Lowering.Lower.Emission
import Lowering.Template.Node

/-!
# Problems with nodes

What lowering reports about a node. All problems but one are fatal; a node of an unknown kind is
reported as a possible gap in the compiler.

* `Problem.reason` words a problem;
* `Problem.diagnosticAt` is its diagnostic at a position;
* `reject` reports a problem and yields nothing.
-/

namespace Lowering

/-- A problem with a node. -/
inductive Problem where
  | disallowedTag (name : Text)
  | unknownKind (kind : Text)
  | attributeBlocks
  | codeBlock
  | strayInCase (kind : Text)
  | secondDefault
  | externalScript
  | unknownDialect (primary template : Text)
  | nestedScript
  | scriptWithMarkup
  | invalidScript (language : Text)
deriving DecidableEq, Repr

namespace Problem

/-- A problem in words. -/
def reason : Problem → Text
  | .disallowedTag name => name ++ " is not supported"
  | .unknownKind kind => "node type " ++ kind ++ " is currently not supported"
  | .attributeBlocks => "&attributes is not supported"
  | .codeBlock => "code blocks are not supported"
  | .strayInCase kind => "node type " ++ kind ++ " is not supported inside case"
  | .secondDefault => "case can have only one default branch"
  | .externalScript => "External script tags are currently not supported"
  | .unknownDialect primary template =>
    "Currently only scripts of type " ++ primary ++ " and " ++ template ++ " are supported"
  | .nestedScript => "node of type Tag is currently only supported at top level"
  | .scriptWithMarkup => "script or style tags can have only text nodes"
  | .invalidScript language => "script content is not valid " ++ language

/-- The class of a problem. -/
def code : Problem → ErrorCode
  | .invalidScript _ => .scriptSyntax
  | _ => .unsupportedSyntax

/-- A problem that may be a gap in the compiler; such a problem is not fatal. -/
def maybeBug : Problem → Bool
  | .unknownKind _ => true
  | _ => false

/-- The diagnostic of a problem at a position. -/
def diagnosticAt (problem : Problem) (position : Position) : Diagnostic where
  code := problem.code
  reasons := [problem.reason]
  maybeBug := problem.maybeBug
  isFatal := !problem.maybeBug
  position := position

end Problem

/-- Reports a problem. -/
def report (problem : Problem) (position : Position) : Emission Unit :=
  .emit (.diagnosed (problem.diagnosticAt position))

/-- Reports a problem and yields nothing. -/
def reject {α : Type} (problem : Problem) (position : Position) : Emission (Option α) := do
  report problem position
  pure none

end Lowering
