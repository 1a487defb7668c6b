import Lowering.Output.Basic
import Lowering.Text.Quoted

/-!
# Inspecting output trees

`Output.inspect` is the form in which a node is shown inside something else: all its parts with
their names, whatever its kind. Unlike rendering it never fails.

* `Position.inspect`, `Attribute.inspect`, `Output.inspect` show a value with all its parts;
* `Output.parts` are the parts of a node, each with its name.
-/

namespace Lowering

/-- Texts as the elements of a list. -/
def inspectList (elements : List String) : String :=
  "[" ++ ", ".intercalate elements ++ "]"

/-- A text that may be absent. -/
def inspectText? : Option Text → String
  | none => "None"
  | some s => Text.quote s

/-- A truth value. -/
def inspectBool : Bool → String
  | true => "True"
  | false => "False"

/-- A position with all its parts. -/
def Position.inspect (p : Position) : String :=
  "SourcePosition(line=" ++ toString p.line ++ ", column=" ++ toString p.column ++
    ", filename=" ++ inspectText? p.filename ++ ")"

/-- A kind with its name. -/
def Kind.inspect (k : Kind) : String :=
  "<OutputKind." ++ k.name ++ ": '" ++ k.name ++ "'>"

/-- An attribute with all its parts. -/
def Attribute.inspect (a : Attribute) : String :=
  "JsxAttribute(name=" ++ Text.quote a.name ++ ", value=" ++ inspectText? a.value ++
    ", is_expression=" ++ inspectBool a.isExpression ++ ")"

namespace Output

/-- Parts of a node, given its children as they are shown. -/
def partsWith (kind : Kind) (name value : Option Text) (attributes : List Attribute)
    (params : List Text) (children : List String) (location : Position) : List (String × String) :=
  [("kind", kind.inspect), ("name", inspectText? name), ("value", inspectText? value),
    ("attributes", inspectList (attributes.map Attribute.inspect)),
    ("params", inspectList (params.map Text.quote)), ("children", inspectList children),
    ("source_location", location.inspect)]

mutual

/-- A node with all its parts. -/
def inspect : Output → String
  | ⟨kind, name, value, attributes, params, children, location⟩ =>
    let parts := partsWith kind name value attributes params (inspectAll children) location
    "OutputNode(" ++ ", ".intercalate (parts.map fun p => p.1 ++ "=" ++ p.2) ++ ")"

/-- Nodes, each with all its parts. -/
def inspectAll : List Output → List String
  | [] => []
  | node :: rest => inspect node :: inspectAll rest

end

/-- The parts of a node by their names, as they are shown. -/
def parts (o : Output) : List (String × String) :=
  partsWith o.kind o.name o.value o.attributes o.params (inspectAll o.children) o.location

end Output

end Lowering
