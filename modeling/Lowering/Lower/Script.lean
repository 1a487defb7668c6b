import Lowering.Literal
import Lowering.Lower.Attributes
import Lowering.Lower.Problem
import Lowering.Lower.Setup
import Lowering.Script.Origin
import Lowering.Text.Blank

/-!
# Lowering scripts

A script tag adds statements to the module. Its dialect comes from the first `type` attribute: in
the primary dialect its text is read as script, in the template dialect its contents are lowered
like those of any tag. Script is allowed at the top level of a document only, and its source must
be in the document.

* `scriptDialect` is the dialect of a script tag;
* `lowerScriptText` lowers the text of a tag to statements;
* `lowerScript` hoists the statements of a script tag.
-/

namespace Lowering

/-- The attribute that names an external source. -/
def sourceAttribute : Text := "src"

/-- The attribute that names the dialect. -/
def dialectAttribute : Text := "type"

/-- The dialect that a script tag asks for, if it is one of the two. -/
def scriptDialect (config : Config) (attributes : List TagAttribute) : Except Problem Text :=
  if attributes.any fun a => a.name == sourceAttribute then .error .externalScript
  else
    match attributes.find? fun a => a.name == dialectAttribute with
    | none => .ok config.primaryDialect
    | some a =>
      let dialect := Literal.stripQuotes a.value.spelling
      if dialect = config.primaryDialect ∨ dialect = config.templateDialect then .ok dialect
      else .error (.unknownDialect config.primaryDialect config.templateDialect)

/-- The texts directly in a body, with their positions. -/
def bodyTexts (body : Option Block) : List (Position × Text) :=
  match body with
  | none => []
  | some b =>
    b.nodes.filterMap fun
      | .text mark value => some (mark.position, value)
      | _ => none

/-- A body that holds something besides text. -/
def hasMarkup (body : Option Block) : Bool :=
  match body with
  | none => false
  | some b =>
    b.nodes.any fun
      | .text _ _ => false
      | _ => true

/-- The statements of a script as output, each at its template position. -/
def placeStatements (origins : Origins) : List Statement → Emission (List Output)
  | [] => pure []
  | s :: rest =>
    match origins.locate s.row s.column with
    | none => .fault (.noOrigin s.row) []
    | some position => do
      let outputs ← placeStatements origins rest
      pure (Output.statement s.text position :: outputs)

/-- Lowers the text of a tag. A blank text has no statements; a text that is no script yields
nothing. -/
def lowerScriptText (setup : Setup) (mark : Mark) (body : Option Block) :
    Emission (Option (List Output)) :=
  let texts := bodyTexts body
  let source := (texts.map Prod.snd).flatten
  if Text.isBlankText source then pure (some [])
  else
    let origins := Origins.ofTexts texts mark.position
    let language := setup.config.language
    match setup.reader language source with
    | .error e => .fault (.script e) none
    | .ok (.broken row column) =>
      match origins.locate row column with
      | none => .fault (.noOrigin row) none
      | some position => reject (.invalidScript language) position
    | .ok (.statements statements) => do
      .emit (.parsed statements.length)
      let outputs ← placeStatements origins statements
      pure (some outputs)

/-- The statements of a script in the primary dialect. -/
def primaryStatements (setup : Setup) (mark : Mark) (body : Option Block) :
    Emission (List Item) :=
  match setup.fixed.script with
  | some yield => pure yield.items
  | none => do
    let statements ← lowerScriptText setup mark body
    pure ((statements.getD []).map .node)

/-- Hoists the elements of a list to the module. Places that are left empty are skipped. -/
def hoist (dialect : Text) (items : List Item) : Emission Unit :=
  .emit (.hoisted dialect (Item.present items))

/-- Lowers a script tag; `contents` are its contents lowered as template. The statements are
hoisted, so that nothing is left at the tag's place. -/
def lowerScript (setup : Setup) (place : Place) (mark : Mark) (tag : Tag) (body : Option Block)
    (contents : Emission (List Item)) : Emission (Option (List Output)) :=
  match scriptDialect setup.config tag.attributes with
  | .error problem => reject problem mark.position
  | .ok dialect =>
    if !place.topLevel then reject .nestedScript mark.position
    else if dialect = setup.config.primaryDialect then do
      if hasMarkup body then report .scriptWithMarkup mark.position
      let items ← primaryStatements setup mark body
      hoist dialect items
      pure (some [])
    else do
      let items ← contents
      hoist dialect items
      pure (some [])

end Lowering
