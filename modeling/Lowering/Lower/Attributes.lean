import Lowering.Literal
import Lowering.Lower.Setup
import Lowering.Output.Basic
import Lowering.Template.Node
import Lowering.Text.Blank

/-!
# Lowering attributes

An attribute whose value is a string literal becomes a string attribute, unless the text holds a
double quote, which such an attribute cannot show; a true attribute becomes a bare one; all others
become expressions. The `class` attributes of a tag are merged into one at the place of the first.

* `lowerAttribute` lowers one attribute;
* `mergeClasses` makes one attribute of several class values;
* `lowerAttributes` lowers the attributes of a tag, in order.
-/

namespace Lowering

/-- The name of the attribute that may be given several times. -/
def classAttribute : Text := "class"

/-- The source of an attribute value. -/
def AttributeValue.spelling : AttributeValue → Text
  | .source s => s
  | .flag true => "True"
  | .flag false => "False"

/-- A value that makes the attribute a bare one. -/
def AttributeValue.isTrue : AttributeValue → Bool
  | .source s => s == Text.ofString "true"
  | .flag b => b

/-- The text that a string attribute can show for a source: the value of a literal without a double
quote. -/
def plainText? (source : Text) : Option Text :=
  (Literal.value? source).filter fun text => !text.contains (.char '"')

/-- Lowers an attribute under a name. -/
def lowerAttribute (name : Text) (value : AttributeValue) : Attribute :=
  if value.isTrue then { name := name }
  else
    let source := Text.trim value.spelling
    match plainText? source with
    | some text => { name := name, value := some text }
    | none => { name := name, value := some source, isExpression := true }

/-- The texts of all options; none if one is missing. -/
def allTexts : List (Option Text) → Option (List Text)
  | [] => some []
  | none :: _ => none
  | some s :: rest => (allTexts rest).map (s :: ·)

/-- One attribute for several class values: their texts with a space between them, or an expression
that joins them. -/
def mergeClasses (name : Text) (values : List AttributeValue) : Attribute :=
  let sources := values.map fun v => Text.trim v.spelling
  match allTexts (sources.map plainText?) with
  | some texts => { name := name, value := some (Text.joinWith " " texts) }
  | none =>
    { name := name
      value := some ("[" ++ Text.joinWith ", " sources ++ "].join(\" \")")
      isExpression := true }

/-- The class attribute of a tag from all its class values. -/
def lowerClasses (name : Text) (values : List AttributeValue) : Attribute :=
  match values with
  | [value] => lowerAttribute name value
  | values => mergeClasses name values

/-- Lowers attributes in order; `classes` are the class values that the first class attribute
stands for, none if it has been passed. The attributes of a list are distinct objects, also where
they are equal: the first is the one that comes first, and later copies of it are passed over. -/
def lowerRest (config : Config) (classes : Option (List AttributeValue)) :
    List TagAttribute → List Attribute
  | [] => []
  | a :: rest =>
    let name := config.rename a.name
    if a.name ≠ classAttribute then
      lowerAttribute name a.value :: lowerRest config classes rest
    else
      match classes with
      | none => lowerRest config none rest
      | some values => lowerClasses name values :: lowerRest config none rest

/-- The values of the class attributes. -/
def classValues (attributes : List TagAttribute) : List AttributeValue :=
  (attributes.filter fun a => a.name == classAttribute).map TagAttribute.value

/-- Lowers the attributes of a tag. -/
def lowerAttributes (config : Config) (attributes : List TagAttribute) : List Attribute :=
  lowerRest config (some (classValues attributes)) attributes

end Lowering
