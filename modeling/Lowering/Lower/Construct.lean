import Lowering.Lower.Attributes
import Lowering.Lower.Problem
import Lowering.Lower.Setup
import Lowering.Text.Blank

/-!
# Lowering the constructs

How each construct is lowered once its contents are. The functions get the lowered contents as
emissions and take them up only if the construct is accepted.

* `lowerElement`: a tag becomes an element;
* `lowerCode`: code becomes an expression or a statement;
* `lowerSwitch`: a case distinction becomes a switch;
* `elementOutput`, `codeOutputs`, `switchOutput`, `switchCase`, `conditionalOutput`,
  `iterationOutput`: what the constructs become once their contents are lowered.
-/

namespace Lowering

/-- The element of a tag, given its children. -/
def elementOutput (config : Config) (mark : Mark) (tag : Tag) (children : List Output) :
    Output where
  kind := .element
  name := some tag.name
  attributes := lowerAttributes config tag.attributes
  children := children
  location := mark.position

/-- A tag with lowered contents. -/
def lowerElement (setup : Setup) (mark : Mark) (tag : Tag) (contents : Emission (List Item)) :
    Emission (Option Output) :=
  if tag.attributeBlocks.isEmpty then do
    let items ← contents
    let children ← Emission.solid items
    pure (some (elementOutput setup.config mark tag children))
  else reject .attributeBlocks mark.position

/-- Code as an expression or a statement; blank code is neither. -/
def codeOutputs (asExpression : Bool) (mark : Mark) (code : Code) : Option (List Output) :=
  let source := Text.trim code.value
  if source.isEmpty then none
  else
    some
      [{ kind := if asExpression then .expression else .statement
         value := some source
         location := mark.position }]

/-- Code without contents. -/
def lowerCode (asExpression : Bool) (mark : Mark) (code : Code) (body : Option Block) :
    Emission (Option (List Output)) :=
  match body with
  | some _ => reject .codeBlock mark.position
  | none => pure (codeOutputs asExpression mark code)

/-- The test that marks the default branch. -/
def defaultTest : Text := "default"

/-- The first node that is no branch. -/
def firstStray : List Node → Option Node
  | [] => none
  | .branch _ _ _ :: rest => firstStray rest
  | n :: _ => some n

/-- The default branches. -/
def defaultBranches (nodes : List Node) : List Node :=
  nodes.filter fun
    | .branch _ test _ => test == defaultTest
    | _ => false

/-- A branch with lowered contents; without contents it falls through to the next one. -/
def switchCase (mark : Mark) (test : Text) (children : Option (List Output)) : Output where
  kind := .switchCase
  value := if test = defaultTest then none else some test
  children := match children with
    | none => []
    | some children => [.fragment children]
  location := mark.position

/-- The switch of a case distinction. -/
def switchOutput (mark : Mark) (subject : Text) (cases : List Output) : Output where
  kind := .switch
  value := some subject
  children := cases
  location := mark.position

/-- A case distinction over nodes, all of which must be branches, with at most one default. -/
def lowerSwitch (mark : Mark) (subject : Text) (nodes : List Node)
    (cases : Emission (List Output)) : Emission (Option Output) :=
  match firstStray nodes with
  | some stray => reject (.strayInCase stray.kind) stray.position
  | none =>
    match defaultBranches nodes with
    | _ :: second :: _ => reject .secondDefault second.position
    | _ => do
      let cases ← cases
      pure (some (switchOutput mark subject cases))

/-- A conditional with its lowered consequent and alternate. -/
def conditionalOutput (mark : Mark) (test : Text) (consequent : List Output)
    (alternate : Output) : Output where
  kind := .conditional
  value := some test
  children := [.fragment consequent, alternate]
  location := mark.position

/-- The parameters of an iteration: the element, and the key unless it is empty. -/
def Loop.params (loop : Loop) : List Text :=
  match loop.key with
  | none => [loop.element]
  | some key => if key.isEmpty then [loop.element] else [loop.element, key]

/-- An iteration with its lowered body and alternate. -/
def iterationOutput (mark : Mark) (loop : Loop) (body : List Output)
    (alternate : Option (List Output)) : Output where
  kind := .iteration
  value := some loop.collection
  params := loop.params
  children := match alternate with
    | none => [.fragment body]
    | some alternate => [.fragment body, .fragment alternate]
  location := mark.position

end Lowering
