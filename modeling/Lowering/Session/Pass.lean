import Lowering.Lower.Pass
import Lowering.Session

/-!
# Passes in a session

A pass runs in a session. It may look at the session and change it, and hands it on to the passes
that it starts for the nodes inside its own. A problem is pushed to the diagnostics, and script is
added to the statements, where the pass comes to it; what was pushed and added stays, also if a
fault ends the pass later on.

A pass performs its steps one by one, and one that is set to a value ends it there. A pass that is
started by another one has no settings but those that it is given: the place of a node among the
nodes of a block, and whether code is an expression.

* `SessionM`: computations in a session;
* `SessionM.lowerElement`, `SessionM.lowerScriptText`, …: the passes for the constructs;
* `SessionM.lowerNode`: the pass for nodes of any kind, with all passes that it starts;
* `Pass.transform`: a pass on a node.
-/

namespace Lowering

/-- A computation in a session, which a fault may end. -/
abbrev SessionM := ExceptT Fault (StateM Session)

/-! ## Steps -/

namespace Settings

/-- Performs a step; one that is set to a value is a fault. -/
def perform (settings : Settings) (step : Text) : SessionM Unit :=
  match settings.value? step with
  | none => pure ()
  | some v => throw (.notCallable v.typeName)

/-- Looks up the pass for a construct; one that is set to a value is a fault. -/
def lookUp (settings : Settings) (part : Text) : SessionM Unit :=
  match settings.value? part with
  | none => pure ()
  | some _ => throw .notClass

/-- Hands a node to the pass of its construct. -/
def performNested (settings : Settings) (part : Text) : SessionM Unit := do
  settings.perform "_nested"
  settings.lookUp part
  settings.perform "delegate_to"

/-- Hands a block inside a node to the pass for inner nodes, which may be set to null. -/
def performBlock (settings : Settings) : SessionM Unit := do
  settings.perform "lower_block"
  settings.perform "delegate_to"
  match settings.value? "node_pass" with
  | none | some .null => pure ()
  | some v => throw (.notCallable v.typeName)

/-- Pushes the diagnostic of a problem. -/
def pushError (settings : Settings) (problem : Problem) (position : Position) :
    SessionM Unit := do
  settings.perform "push_error"
  modify fun session => session.push (problem.diagnosticAt position)

/-- Pushes the diagnostic of a problem and leaves the output as it was. -/
def refuse {α : Type} (settings : Settings) (problem : Problem) (position : Position) :
    SessionM (Option α) := do
  settings.pushError problem position
  pure none

/-- Hands a node to the step for its kind. A node without one is refused. -/
def dispatch (settings : Settings) (step : Text) (n : Node) (lowered : SessionM (Option Yield)) :
    SessionM (Option Yield) :=
  match settings.value? step with
  | none => lowered
  | some .null => settings.refuse (.unknownKind n.kind) n.position
  | some v => throw (.notCallable v.typeName)

/-- The settings for the nodes of a block. -/
def forNodes (settings : Settings) : Settings where
  values := [("is_top_level", .bool settings.place.documentRoot)]

/-- The settings for code. -/
def forCode (code : Code) : Settings where
  values := [("is_expression", .bool code.buffer)]

end Settings

/-- The settings of the pass for a whole document. -/
def documentSettings : Settings :=
  { values := [("is_document_root", .bool true)] }

namespace SessionM

/-- A list as the children of a node. -/
def solid (items : List Item) : SessionM (List Output) :=
  if (Item.misfits items).isEmpty then pure (Item.nodes items)
  else throw (.misplaced (Item.issues items))

/-- Adds the elements of a list to the statements of the module. -/
def hoist (items : List Item) : SessionM Unit :=
  modify fun session => session.hoist items

/-- What a pass has left as output, as part of the list around it. -/
def items (output : Option Yield) : List Item :=
  output.elim [] Yield.items

/-! ## Constructs -/

/-- A tag as an element. -/
def lowerElement (setup : Setup) (settings : Settings) (mark : Mark) (tag : Tag)
    (contents : SessionM (List Item)) : SessionM (Option Output) :=
  if tag.attributeBlocks.isEmpty then do
    settings.perform "_lower_attributes"
    let items ← contents
    let children ← solid items
    pure (some (elementOutput setup.config mark tag children))
  else settings.refuse .attributeBlocks mark.position

/-- Code as an expression or a statement. -/
def lowerCode (settings : Settings) (mark : Mark) (code : Code) (body : Option Block) :
    SessionM (Option (List Output)) :=
  match body with
  | some _ => settings.refuse .codeBlock mark.position
  | none => pure (codeOutputs (settings.flag "is_expression") mark code)

/-- A case distinction as a switch. -/
def lowerSwitch (settings : Settings) (mark : Mark) (subject : Text) (nodes : List Node)
    (cases : SessionM (List Output)) : SessionM (Option Output) :=
  match firstStray nodes with
  | some stray => settings.refuse (.strayInCase stray.kind) stray.position
  | none =>
    match defaultBranches nodes with
    | _ :: second :: _ => settings.refuse .secondDefault second.position
    | _ => do
      let cases ← cases
      pure (some (switchOutput mark subject cases))

/-- An iteration. -/
def lowerEach (mark : Mark) (loop : Loop) (body : SessionM (List Output))
    (alternate : SessionM (Option (List Output))) : SessionM Output := do
  let body ← body
  let alternate ← alternate
  pure (iterationOutput mark loop body alternate)

/-! ## Scripts -/

/-- The statements of a script, each at its template position. -/
def placeStatements (origins : Origins) : List Statement → SessionM (List Output)
  | [] => pure []
  | s :: rest =>
    match origins.locate s.row s.column with
    | none => throw (.noOrigin s.row)
    | some position => do
      let outputs ← placeStatements origins rest
      pure (Output.statement s.text position :: outputs)

/-- The text of a tag as statements. -/
def lowerScriptText (setup : Setup) (settings : Settings) (mark : Mark) (body : Option Block) :
    SessionM (Option (List Output)) :=
  let texts := bodyTexts body
  let source := (texts.map Prod.snd).flatten
  if Text.isBlankText source then pure (some [])
  else
    let origins := Origins.ofTexts texts mark.position
    let language := setup.config.language
    match setup.reader language source with
    | .error e => throw (.script e)
    | .ok (.broken row column) =>
      match origins.locate row column with
      | none => throw (.noOrigin row)
      | some position => settings.refuse (.invalidScript language) position
    | .ok (.statements statements) => do
      let outputs ← placeStatements origins statements
      pure (some outputs)

/-- A script tag; `contents` are its contents as template. -/
def lowerScript (setup : Setup) (settings : Settings) (mark : Mark) (tag : Tag)
    (body : Option Block) (contents : SessionM (List Item)) : SessionM (Option Yield) := do
  settings.perform "_lower_script"
  match scriptDialect setup.config tag.attributes with
  | .error problem => settings.refuse problem mark.position
  | .ok dialect =>
    if !settings.place.topLevel then settings.refuse .nestedScript mark.position
    else if dialect = setup.config.primaryDialect then do
      if hasMarkup body then settings.pushError .scriptWithMarkup mark.position
      settings.perform "delegate_to"
      settings.perform "SCRIPT_PASS"
      let statements ← unlessFixed setup.fixed.script
        (Yield.ofNodes? <$> lowerScriptText setup {} mark body)
      hoist statements.items
      pure (some (.several []))
    else do
      let statements ← contents
      hoist statements
      pure (some (.several []))

/-! ## Nodes -/

/-- A tag: `template` are its contents if it is a script in the template dialect, `contents` those
of an element. -/
def lowerTag (setup : Setup) (settings : Settings) (mark : Mark) (tag : Tag) (body : Option Block)
    (template contents : SessionM (List Item)) : SessionM (Option Yield) :=
  if setup.config.disallowedTags.contains tag.name then
    settings.refuse (.disallowedTag tag.name) mark.position
  else if tag.name = setup.config.scriptTag then
    lowerScript setup settings mark tag body template
  else do
    settings.performNested "ELEMENT_PASS"
    let transformed ← unlessFixed setup.fixed.element
      (Yield.ofNode? <$> lowerElement setup {} mark tag contents)
    pure (some transformed.boxed)

/-- What control flow leaves as output; one that yields nothing leaves it as it was. -/
def controlFlowOutput : Yield → Option Yield
  | .nothing => none
  | yield => some yield.boxed

/-- Control flow, handed to the pass of its construct. -/
def lowerControlFlow (settings : Settings) (part : Text) (fixed : Option Yield)
    (lowered : SessionM Yield) : SessionM (Option Yield) := do
  settings.performNested part
  controlFlowOutput <$> unlessFixed fixed lowered

/-- A block, whose nodes are lowered one after the other. -/
def lowerBlockNode (settings : Settings) (block : Block) (nodes : SessionM (List Item)) :
    SessionM (Option Yield) :=
  settings.dispatch "_lower_block_node" (.block block) do
    let items ← nodes
    pure (some (.several items))

mutual

/-- The pass for nodes of any kind. -/
def lowerNode (setup : Setup) (settings : Settings) : Node → SessionM (Option Yield)
  | .block (.mk mark nodes) =>
    lowerBlockNode settings (.mk mark nodes) (lowerNodes setup settings nodes)
  | .tag mark tag body =>
    settings.dispatch "_lower_tag" (.tag mark tag body)
      (lowerTag setup settings mark tag body (lowerTemplate setup settings body)
        (lowerBody setup {} body))
  | .code mark code body =>
    settings.dispatch "_lower_code" (.code mark code body) do
      settings.performNested "CODE_PASS"
      some <$> unlessFixed setup.fixed.code
        (Yield.ofNodes? <$> lowerCode (.forCode code) mark code body)
  | .text mark value =>
    settings.dispatch "_lower_text" (.text mark value)
      (pure (some (.ofNodes [.text value mark.position])))
  | .branch mark _ _ => settings.refuse (.unknownKind NodeKind.branch.name) mark.position
  | .switch mark subject (.mk blockMark nodes) =>
    settings.dispatch "_lower_control_flow" (.switch mark subject (.mk blockMark nodes))
      (lowerControlFlow settings "CASE_PASS" setup.fixed.switch
        (Yield.ofNode? <$> lowerSwitch {} mark subject nodes (lowerCases setup {} nodes)))
  | .conditional chain =>
    settings.dispatch "_lower_control_flow" (.conditional chain)
      (lowerControlFlow settings "CONDITIONAL_PASS" setup.fixed.conditional
        (Yield.single <$> lowerConditional setup {} chain))
  | .each mark loop body alternate =>
    settings.dispatch "_lower_control_flow" (.each mark loop body alternate)
      (lowerControlFlow settings "EACH_PASS" setup.fixed.each
        (Yield.single <$>
          lowerEach mark loop (lowerBlock setup {} body) (lowerAlternative setup {} alternate)))
  | .other mark kind => settings.refuse (.unknownKind kind) mark.position

/-- The nodes of a block, each by a pass of its own. -/
def lowerNodes (setup : Setup) (settings : Settings) : List Node → SessionM (List Item)
  | [] => pure []
  | n :: rest => do
    settings.perform "delegate_to"
    let first ← lowerNode setup settings.forNodes n
    let others ← lowerNodes setup settings rest
    pure (items first ++ others)

/-- The contents of a script tag as template. -/
def lowerTemplate (setup : Setup) (settings : Settings) : Option Block → SessionM (List Item)
  | none => pure []
  | some (.mk mark nodes) => do
    settings.perform "delegate_to"
    let output ← lowerBlockNode {} (.mk mark nodes) (lowerNodes setup {} nodes)
    pure (items output)

/-- A body; an absent one has no output. -/
def lowerBody (setup : Setup) (settings : Settings) : Option Block → SessionM (List Item)
  | none => do
    settings.perform "lower_block"
    pure []
  | some (.mk mark nodes) => do
    settings.performBlock
    let output ← lowerBlockNode {} (.mk mark nodes) (lowerNodes setup {} nodes)
    pure (items output)

/-- A block whose output becomes the children of a fragment. -/
def lowerBlock (setup : Setup) (settings : Settings) : Block → SessionM (List Output)
  | .mk mark nodes => do
    settings.performBlock
    let output ← lowerBlockNode {} (.mk mark nodes) (lowerNodes setup {} nodes)
    solid (items output)

/-- Such a block, which may be absent. -/
def lowerAlternative (setup : Setup) (settings : Settings) :
    Option Block → SessionM (Option (List Output))
  | none => pure none
  | some block => some <$> lowerBlock setup settings block

/-- The branches among nodes. -/
def lowerCases (setup : Setup) (settings : Settings) : List Node → SessionM (List Output)
  | [] => pure []
  | .branch mark test body :: rest => do
    settings.perform "_lower_when"
    let children ← lowerAlternative setup settings body
    let others ← lowerCases setup settings rest
    pure (switchCase mark test children :: others)
  | _ :: rest => lowerCases setup settings rest

/-- A conditional with all its links. -/
def lowerConditional (setup : Setup) (settings : Settings) : Conditional → SessionM Output
  | .mk mark test consequent alternate => do
    settings.perform "_lower_conditional"
    let consequent ← lowerBlock setup settings consequent
    settings.perform "_lower_alternate"
    let alternate ← lowerAlternate setup settings alternate
    pure (conditionalOutput mark test consequent alternate)

/-- What a conditional takes when its test fails. -/
def lowerAlternate (setup : Setup) (settings : Settings) : Option Alternate → SessionM Output
  | none => pure .null
  | some (.block block) => Output.fragment <$> lowerBlock setup settings block
  | some (.chain chain) => lowerConditional setup settings chain

end

end SessionM

/-! ## Passes -/

namespace Pass

open SessionM

/-- Looks for something that a node does not have. -/
def missing {α : Type} (n : Node) (name : String) : SessionM (Option α) :=
  throw (.noAttribute n.recordName name)

/-- The pass for elements. -/
def transformElement (setup : Setup) (settings : Settings) : Node → SessionM (Option Yield)
  | .tag mark tag body =>
    Option.map Yield.single <$>
      SessionM.lowerElement setup settings mark tag (SessionM.lowerBody setup settings body)
  | n => missing n "attribute_blocks"

/-- The pass for the text of scripts. -/
def transformScript (setup : Setup) (settings : Settings) (n : Node) : SessionM (Option Yield) :=
  match n.body? with
  | none => missing n "block"
  | some body =>
    Option.map Yield.ofNodes <$> SessionM.lowerScriptText setup settings n.mark body

/-- The pass for code. -/
def transformCode (settings : Settings) (n : Node) : SessionM (Option Yield) :=
  match n, n.body? with
  | .code mark content body, _ =>
    Option.map Yield.ofNodes <$> SessionM.lowerCode settings mark content body
  | n, none => missing n "block"
  | n, some (some _) => settings.refuse .codeBlock n.position
  | n, some none => missing n "val"

/-- The pass for case distinctions. -/
def transformSwitch (setup : Setup) (settings : Settings) (n : Node) : SessionM (Option Yield) :=
  match n.body? with
  | none => missing n "block"
  | some none => throw (.noAttribute Json.null.typeName "nodes")
  | some (some body) =>
    Option.map Yield.single <$>
      match n.subject? with
      | some subject =>
        SessionM.lowerSwitch settings n.mark subject body.nodes
          (SessionM.lowerCases setup settings body.nodes)
      | none =>
        SessionM.lowerSwitch settings n.mark [] body.nodes
          (throw (.noAttribute n.recordName "expr"))

/-- The pass for conditionals. -/
def transformConditional (setup : Setup) (settings : Settings) : Node → SessionM (Option Yield)
  | .conditional chain =>
    (fun output => some (.single output)) <$> SessionM.lowerConditional setup settings chain
  | n => do
    settings.perform "_lower_conditional"
    missing n "test"

/-- The pass for iterations. -/
def transformEach (setup : Setup) (settings : Settings) : Node → SessionM (Option Yield)
  | .each mark loop body alternate =>
    (fun output => some (.single output)) <$>
      SessionM.lowerEach mark loop (SessionM.lowerBlock setup settings body)
        (SessionM.lowerAlternative setup settings alternate)
  | .code mark content body => missing (.code mark content body) "key"
  | .text mark value => missing (.text mark value) "key"
  | n => missing n "val"

/-- A pass whose values were replaced: its node is gone, or is a value in which there is nothing to
look for. -/
def transformReplaced (pass : Pass) (settings : Settings) : SessionM (Option Yield) :=
  match settings.value? "input" with
  | none => throw (.noAttribute pass.title "input")
  | some v => do
    if pass = .conditional then settings.perform "_lower_conditional"
    throw (.noAttribute v.typeName pass.firstLook)

/-- A pass on its node. -/
def transformOn (pass : Pass) (settings : Settings) (setup : Setup) (n : Node) :
    SessionM (Option Yield) :=
  match pass with
  | .node => SessionM.lowerNode setup settings n
  | .element => transformElement setup settings n
  | .script => transformScript setup settings n
  | .code => transformCode settings n
  | .switch => transformSwitch setup settings n
  | .conditional => transformConditional setup settings n
  | .each => transformEach setup settings n

/-- Runs a pass on a node; none if the output is left as it was. -/
def transform (pass : Pass) (settings : Settings) (setup : Setup) (n : Node) :
    SessionM (Option Yield) := do
  settings.perform "transform"
  if settings.replaced then pass.transformReplaced settings
  else pass.transformOn settings setup n

end Pass

end Lowering
