import Lowering.Lower.Node
import Lowering.Lower.Option

/-!
# Single passes

A pass lowers one node by one construct's rules, whatever the node's surroundings. On a node of
another construct it fails where it looks for something that the node does not have.

A run first rehearses its steps: `Pass.rehearse` comes to the first step that the settings make
impossible. `Pass.lower` lowers the node, and `Pass.run` is both. A run may leave the output as it
was set before, which `Pass.result` then shows. A run tells what happens without a session in which
it happens; `Pass.transform` is the pass in a session, and does what the run tells.
-/

namespace Lowering

namespace Settings

/-- The step that reports a problem. -/
def useReport (settings : Settings) : Emission Unit :=
  settings.use "push_error"

/-- The steps that lower a block inside a node; an absent block needs only the first. The pass for
inner nodes may be set to null, which is no change. -/
def useBlock (settings : Settings) (present : Bool) : Emission Unit := do
  settings.use "lower_block"
  if present then
    settings.use "delegate_to"
    match settings.value? "node_pass" with
    | none | some .null => pure ()
    | some v => .fault (.notCallable v.typeName) ()

/-- The steps that hand a node to the pass of its construct. -/
def useNested (settings : Settings) (part : Text) : Emission Unit := do
  settings.use "_nested"
  settings.usePass part
  settings.use "delegate_to"

/-- The place of a node under settings. -/
def place (settings : Settings) : Place where
  topLevel := settings.flag "is_top_level"
  documentRoot := settings.flag "is_document_root"

end Settings

namespace Pass

/-! ## Nodes of any kind -/

/-- The step that lowers nodes of a kind, for the kinds that can be lowered. -/
def handler? : Node → Option Text
  | .block _ => some "_lower_block_node"
  | .tag _ _ _ => some "_lower_tag"
  | .code _ _ _ => some "_lower_code"
  | .text _ _ => some "_lower_text"
  | .switch _ _ _ | .conditional _ | .each _ _ _ _ => some "_lower_control_flow"
  | .branch _ _ _ | .other _ _ => none

/-- Whether a node is lowered: there is a step for its kind, and it is not set to null. -/
def isHandled (settings : Settings) (n : Node) : Bool :=
  match handler? n with
  | none => false
  | some step =>
    match settings.value? step with
    | some .null => false
    | _ => true

/-- The steps for a script tag. What lies in front of a step that fails is reported still. -/
def rehearseScript (settings : Settings) (setup : Setup) (mark : Mark) (tag : Tag)
    (body : Option Block) : Emission Unit := do
  settings.use "_lower_script"
  match scriptDialect setup.config tag.attributes with
  | .error _ => settings.useReport
  | .ok dialect =>
    if !settings.place.topLevel then settings.useReport
    else if dialect = setup.config.primaryDialect then
      if hasMarkup body then
        settings.useReport
        if (settings.value? "delegate_to").isSome || (settings.value? "SCRIPT_PASS").isSome then
          report .scriptWithMarkup mark.position
      settings.use "delegate_to"
      settings.use "SCRIPT_PASS"
    else if body.isSome then settings.use "delegate_to"

/-- The steps for a tag. -/
def rehearseTag (settings : Settings) (setup : Setup) (mark : Mark) (tag : Tag)
    (body : Option Block) : Emission Unit :=
  if setup.config.disallowedTags.contains tag.name then settings.useReport
  else if tag.name = setup.config.scriptTag then rehearseScript settings setup mark tag body
  else settings.useNested "ELEMENT_PASS"

/-- The steps for a node. -/
def rehearseNode (settings : Settings) (setup : Setup) (n : Node) : Emission Unit :=
  if isHandled settings n then do
    match handler? n with
    | none => pure ()
    | some step => settings.use step
    match n with
    | .block b => if b.nodes.isEmpty then pure () else settings.use "delegate_to"
    | .tag mark tag body => rehearseTag settings setup mark tag body
    | .code _ _ _ => settings.useNested "CODE_PASS"
    | .switch _ _ _ => settings.useNested "CASE_PASS"
    | .conditional _ => settings.useNested "CONDITIONAL_PASS"
    | .each _ _ _ _ => settings.useNested "EACH_PASS"
    | _ => pure ()
  else settings.useReport

/-- Whether a node that yields nothing leaves the output as it was before. -/
def leavesOutput (setup : Setup) : Node → Bool
  | .tag _ tag _ =>
    setup.config.disallowedTags.contains tag.name || tag.name == setup.config.scriptTag
  | .code _ _ _ => false
  | _ => true

/-- What a run leaves as output of what its node yields. -/
def kept (setup : Setup) (n : Node) : Yield → Option Yield
  | .nothing => if leavesOutput setup n then none else some .nothing
  | yield => some yield

/-- Lowers a node of any kind. -/
def lowerAny (settings : Settings) (setup : Setup) (n : Node) : Emission (Option Yield) :=
  if isHandled settings n then kept setup n <$> lowerNode setup settings.place n
  else reject (.unknownKind n.kind) n.position

/-! ## Nodes of one construct -/

/-- A node does not have what the pass looks for. -/
def lacks {α : Type} (n : Node) (name : String) : Emission (Option α) :=
  .fault (.noAttribute n.recordName name) none

/-- Lowers a tag. -/
def lowerAsElement (setup : Setup) : Node → Emission (Option Yield)
  | .tag mark tag body =>
    Option.map Yield.single <$> lowerElement setup mark tag (lowerBody setup body)
  | n => lacks n "attribute_blocks"

/-- Lowers the text of a node with a body. -/
def lowerAsScript (setup : Setup) (n : Node) : Emission (Option Yield) :=
  match n.body? with
  | none => lacks n "block"
  | some body => Option.map Yield.ofNodes <$> lowerScriptText setup n.mark body

/-- Lowers code; the contents of any node with a body are refused as those of code are. -/
def lowerAsCode (settings : Settings) (n : Node) : Emission (Option Yield) :=
  match n, n.body? with
  | .code mark content body, _ =>
    Option.map Yield.ofNodes <$> lowerCode (settings.flag "is_expression") mark content body
  | n, none => lacks n "block"
  | n, some (some _) => reject .codeBlock n.position
  | n, some none => lacks n "val"

/-- Lowers a case distinction: any node with a body and a subject. -/
def lowerAsSwitch (setup : Setup) (n : Node) : Emission (Option Yield) :=
  match n.body? with
  | none => lacks n "block"
  | some none => .fault (.noAttribute Json.null.typeName "nodes") none
  | some (some body) =>
    Option.map Yield.single <$>
      match n.subject? with
      | some subject => lowerSwitch n.mark subject body.nodes (lowerCases setup body.nodes)
      | none =>
        lowerSwitch n.mark [] body.nodes (.fault (.noAttribute n.recordName "expr") [])

/-- Lowers a conditional. -/
def lowerAsConditional (setup : Setup) : Node → Emission (Option Yield)
  | .conditional chain => (fun output => some (.single output)) <$> lowerConditional setup chain
  | n => lacks n "test"

/-- Lowers an iteration. -/
def lowerAsEach (setup : Setup) : Node → Emission (Option Yield)
  | .each mark loop body alternate =>
    (fun output => some (.single output)) <$>
      lowerEach mark loop (lowerBlock setup body) (lowerAlternative setup alternate)
  | .code mark content body => lacks (.code mark content body) "key"
  | .text mark value => lacks (.text mark value) "key"
  | n => lacks n "val"

/-- The steps for a case distinction. -/
def rehearseSwitch (settings : Settings) (n : Node) (nodes : List Node) : Emission Unit :=
  if (firstStray nodes).isSome || 1 < (defaultBranches nodes).length then settings.useReport
  else if n.subject?.isNone || nodes.isEmpty then pure ()
  else do
    settings.use "_lower_when"
    if nodes.any fun branch => (branch.body?.bind id).isSome then settings.useBlock true

/-- The steps for a conditional. The step for the alternate comes after the consequent. -/
def rehearseConditional (settings : Settings) (setup : Setup) (n : Node) : Emission Unit := do
  settings.use "_lower_conditional"
  match n with
  | .conditional (.mk _ _ consequent _) => do
    settings.useBlock true
    if (settings.value? "_lower_alternate").isSome then
      let _ ← lowerBlock setup consequent
      settings.use "_lower_alternate"
  | _ => pure ()

/-! ## Runs -/

/-- What a pass looks for in its node first. -/
def firstLook : Pass → String
  | .node => "type"
  | .element => "attribute_blocks"
  | .script | .code | .switch => "block"
  | .conditional => "test"
  | .each => "val"

/-- The steps of a pass whose values were replaced: its node is gone, or is a value in which there
is nothing to look for. -/
def rehearseReplaced (pass : Pass) (settings : Settings) : Emission Unit :=
  match settings.value? "input" with
  | none => .fault (.noAttribute pass.title "input") ()
  | some v => do
    if pass = .conditional then settings.use "_lower_conditional"
    .fault (.noAttribute v.typeName pass.firstLook) ()

/-- The steps of a pass for its node. -/
def rehearseOn (pass : Pass) (settings : Settings) (setup : Setup) (n : Node) : Emission Unit :=
  match pass, n with
  | .node, n => rehearseNode settings setup n
  | .element, .tag _ tag body =>
    if tag.attributeBlocks.isEmpty then do
      settings.use "_lower_attributes"
      settings.useBlock body.isSome
    else settings.useReport
  | .script, n =>
    match n.body? with
    | none => pure ()
    | some body =>
      if (Event.diagnostics (lowerScriptText setup n.mark body).events).isEmpty then pure ()
      else settings.useReport
  | .code, n =>
    match n.body? with
    | some (some _) => settings.useReport
    | _ => pure ()
  | .switch, n =>
    match n.body? with
    | some (some body) => rehearseSwitch settings n body.nodes
    | _ => pure ()
  | .conditional, n => rehearseConditional settings setup n
  | .each, .each _ _ _ _ => settings.useBlock true
  | _, _ => pure ()

/-- Comes to the first step of a run that the settings make impossible. -/
def rehearse (pass : Pass) (settings : Settings) (setup : Setup) (n : Node) : Emission Unit := do
  settings.use "transform"
  if settings.replaced then pass.rehearseReplaced settings
  pass.rehearseOn settings setup n

/-- Lowers a node by the rules of a pass; none if the output is left as it was. -/
def lower (pass : Pass) (settings : Settings) (setup : Setup) (n : Node) :
    Emission (Option Yield) :=
  match pass with
  | .node => lowerAny settings setup n
  | .element => lowerAsElement setup n
  | .script => lowerAsScript setup n
  | .code => lowerAsCode settings n
  | .switch => lowerAsSwitch setup n
  | .conditional => lowerAsConditional setup n
  | .each => lowerAsEach setup n

/-- Runs a pass on a node. -/
def run (pass : Pass) (settings : Settings) (setup : Setup) (n : Node) :
    Emission (Option Yield) := do
  pass.rehearse settings setup n
  pass.lower settings setup n

mutual

/-- A value as an output: nothing, or a list of outputs. There are no nodes among values. -/
def outputOf : Json → Except Fault Json
  | .null => .ok .null
  | .arr items => (outputsOf items).map .arr
  | v => .error (.noAttribute v.typeName "kind")

/-- Values as outputs. -/
def outputsOf : List Json → Except Fault (List Json)
  | [] => .ok []
  | v :: rest => do
    let first ← outputOf v
    let others ← outputsOf rest
    .ok (first :: others)

end

/-- The output that was set before a run. -/
def presetOutput (settings : Settings) : Except Fault Json :=
  match settings.value? outputPart with
  | none => .ok .null
  | some v => outputOf v

/-- What a run leaves as output, as JSON. -/
def result (settings : Settings) : Option Yield → Except Fault Json
  | none => presetOutput settings
  | some yield => yield.encode.mapError .ofMisfit

end Pass

end Lowering
