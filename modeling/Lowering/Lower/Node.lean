import Lowering.Lower.Construct
import Lowering.Lower.Script

/-!
# Lowering nodes

`lowerNode` lowers a node of a document. A block yields what its nodes yield, one after the other; a
construct with a fixed output yields that; every other node is lowered by its construct's
function.
-/

namespace Lowering

/-- The output of a construct, unless it is fixed. -/
def unlessFixed {m : Type → Type} [Pure m] {α : Type} (fixed : Option α) (lowered : m α) : m α :=
  match fixed with
  | some output => pure output
  | none => lowered

/-- Lowers a tag; `contents` are its contents lowered. -/
def lowerTag (setup : Setup) (place : Place) (mark : Mark) (tag : Tag) (body : Option Block)
    (contents : Emission (List Item)) : Emission Yield :=
  if setup.config.disallowedTags.contains tag.name then
    Yield.ofNodes? <$> reject (.disallowedTag tag.name) mark.position
  else if tag.name = setup.config.scriptTag then
    Yield.ofNodes? <$> lowerScript setup place mark tag body contents
  else
    Yield.boxed <$> unlessFixed setup.fixed.element
      (Yield.ofNode? <$> lowerElement setup mark tag contents)

/-- Lowers an iteration; `body` and `alternate` are its parts lowered. -/
def lowerEach (mark : Mark) (loop : Loop) (body : Emission (List Output))
    (alternate : Emission (Option (List Output))) : Emission Output := do
  let body ← body
  let alternate ← alternate
  pure (iterationOutput mark loop body alternate)

mutual

/-- Lowers a node. -/
def lowerNode (setup : Setup) (place : Place) : Node → Emission Yield
  | .block (.mk _ nodes) =>
    Yield.several <$> lowerNodes setup { topLevel := place.documentRoot } nodes
  | .tag mark tag body => lowerTag setup place mark tag body (lowerBody setup body)
  | .code mark code body =>
    unlessFixed setup.fixed.code (Yield.ofNodes? <$> lowerCode code.buffer mark code body)
  | .text mark value => pure (.ofNodes [.text value mark.position])
  | .branch mark _ _ =>
    Yield.ofNodes? <$> reject (.unknownKind NodeKind.branch.name) mark.position
  | .switch mark subject (.mk _ nodes) =>
    Yield.boxed <$> unlessFixed setup.fixed.switch
      (Yield.ofNode? <$> lowerSwitch mark subject nodes (lowerCases setup nodes))
  | .conditional chain =>
    Yield.boxed <$> unlessFixed setup.fixed.conditional
      (Yield.single <$> lowerConditional setup chain)
  | .each mark loop body alternate =>
    Yield.boxed <$> unlessFixed setup.fixed.each
      (Yield.single <$>
        lowerEach mark loop (lowerBlock setup body) (lowerAlternative setup alternate))
  | .other mark kind => Yield.ofNodes? <$> reject (.unknownKind kind) mark.position

/-- Lowers nodes one after the other. -/
def lowerNodes (setup : Setup) (place : Place) : List Node → Emission (List Item)
  | [] => pure []
  | node :: rest => do
    let first ← lowerNode setup place node
    let others ← lowerNodes setup place rest
    pure (first.items ++ others)

/-- Lowers a block whose output becomes children. -/
def lowerBlock (setup : Setup) : Block → Emission (List Output)
  | .mk _ nodes => do
    let items ← lowerNodes setup {} nodes
    Emission.solid items

/-- Lowers a body; an absent one has no output. -/
def lowerBody (setup : Setup) : Option Block → Emission (List Item)
  | none => pure []
  | some (.mk _ nodes) => lowerNodes setup {} nodes

/-- Lowers a block that may be absent. -/
def lowerAlternative (setup : Setup) : Option Block → Emission (Option (List Output))
  | none => pure none
  | some block => some <$> lowerBlock setup block

/-- Lowers the branches among nodes. -/
def lowerCases (setup : Setup) : List Node → Emission (List Output)
  | [] => pure []
  | .branch mark test body :: rest => do
    let children ← lowerAlternative setup body
    let others ← lowerCases setup rest
    pure (switchCase mark test children :: others)
  | _ :: rest => lowerCases setup rest

/-- Lowers a conditional with all its links. -/
def lowerConditional (setup : Setup) : Conditional → Emission Output
  | .mk mark test consequent alternate => do
    let consequent ← lowerBlock setup consequent
    let alternate ← lowerAlternate setup alternate
    pure (conditionalOutput mark test consequent alternate)

/-- Lowers what a conditional takes when its test fails. -/
def lowerAlternate (setup : Setup) : Option Alternate → Emission Output
  | none => pure .null
  | some (.block block) => Output.fragment <$> lowerBlock setup block
  | some (.chain chain) => lowerConditional setup chain

end

end Lowering
