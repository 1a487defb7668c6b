import Lowering.Numeric.Numeral
import Lowering.Output.Basic

/-!
# Rendering output trees

`Output.render` writes an output node as TSX source. Among the children of an element or fragment
a node that is not markup stands in braces. Rendering fails on a conditional that does not have
exactly two children and on an iteration that has none, if it reaches one; the first one in
reading order is reported.
-/

namespace Lowering

/-- Why something cannot be rendered: a conditional or an iteration with a wrong number of children,
or a number that is too long. -/
inductive RenderError where
  | tooFew (children : Nat)
  | tooMany
  | noBody
  | oversized
deriving DecidableEq, Repr

/-- A failure to render in words. -/
def RenderError.message : RenderError → String
  | .tooFew children =>
    "not enough values to unpack (expected 2, got " ++ toString children ++ ")"
  | .tooMany => "too many values to unpack (expected 2)"
  | .noBody => "list index out of range"
  | .oversized => limitExceeded ++ limitAdvice

/-- An attribute as source. -/
def Attribute.render (a : Attribute) : Text :=
  match a.value with
  | none => a.name
  | some value =>
    if a.isExpression then a.name ++ "=\x7b" ++ value ++ "\x7d"
    else a.name ++ "=\"" ++ value ++ "\""

namespace Output

/-- A name or value where one is needed; a missing one shows as such. -/
def shown (part : Option Text) : Text :=
  part.getD "None"

/-- Source in braces. -/
def braced (source : Text) : Text :=
  "\x7b" ++ source ++ "\x7d"

/-- The attributes of an element, each after a space. -/
def attributeList (attributes : List Attribute) : Text :=
  (attributes.map fun a => .char ' ' :: a.render).flatten

/-- An element around rendered children; without children it closes itself. -/
def elementText (name : Option Text) (attributes : List Attribute) (children : List Text) :
    Text :=
  let head := "<" ++ shown name ++ attributeList attributes
  match children with
  | [] => head ++ " />"
  | children => head ++ ">" ++ children.flatten ++ "</" ++ shown name ++ ">"

/-- A ternary. -/
def conditionalText (value : Option Text) (consequent alternate : Text) : Text :=
  "(" ++ shown value ++ ") ? " ++ consequent ++ " : " ++ alternate

/-- A call of `map` on a collection. -/
def mapText (value : Option Text) (params : List Text) (body : Text) : Text :=
  "(" ++ shown value ++ ").map((" ++ Text.joinWith ", " params ++ ") => " ++ body ++ ")"

/-- A choice between a rendered iteration and what stands for an empty collection. -/
def orElseText (value : Option Text) (mapped alternate : Text) : Text :=
  "(" ++ shown value ++ ").length ? " ++ mapped ++ " : " ++ alternate

/-- A switch over rendered cases, as an expression. -/
def switchText (value : Option Text) (cases : List Text) : Text :=
  "(() => \x7b switch (" ++ shown value ++ ") \x7b " ++ Text.joinWith " " cases ++ " \x7d \x7d)()"

/-- The label of a switch case. -/
def labelText : Option Text → Text
  | none => "default:"
  | some value => "case " ++ value ++ ":"

/-- A switch case that returns a rendered node. -/
def caseText (value : Option Text) (result : Text) : Text :=
  labelText value ++ " return " ++ result ++ ";"

mutual

/-- A node as source. -/
def render : Output → Except RenderError Text
  | ⟨kind, name, value, attributes, params, children, _⟩ =>
    match kind with
    | .text => .ok (value.getD [])
    | .statement => .ok (value.getD [])
    | .expression => .ok (braced (shown value))
    | .null => .ok "null"
    | .fragment => do
      let inner ← renderChildren children
      .ok ("<>" ++ inner.flatten ++ "</>")
    | .element => do
      let inner ← renderChildren children
      .ok (elementText name attributes inner)
    | .conditional =>
      match children with
      | [] => .error (.tooFew 0)
      | [_] => .error (.tooFew 1)
      | [consequent, alternate] => do
        let consequent ← render consequent
        let alternate ← render alternate
        .ok (conditionalText value consequent alternate)
      | _ => .error .tooMany
    | .iteration =>
      match children with
      | [] => .error .noBody
      | [body] => do
        let body ← render body
        .ok (mapText value params body)
      | body :: alternate :: _ => do
        let body ← render body
        let alternate ← render alternate
        .ok (orElseText value (mapText value params body) alternate)
    | .switch => do
      let cases ← renderAll children
      .ok (switchText value cases)
    | .switchCase =>
      match children with
      | [] => .ok (labelText value)
      | result :: _ => do
        let result ← render result
        .ok (caseText value result)

/-- Nodes as source, one by one. -/
def renderAll : List Output → Except RenderError (List Text)
  | [] => .ok []
  | node :: rest => do
    let text ← render node
    let texts ← renderAll rest
    .ok (text :: texts)

/-- The children of an element or fragment as source, one by one. -/
def renderChildren : List Output → Except RenderError (List Text)
  | [] => .ok []
  | node :: rest => do
    let text ← render node
    let texts ← renderChildren rest
    .ok ((if node.kind.isMarkup then text else braced text) :: texts)

end

end Output

end Lowering
