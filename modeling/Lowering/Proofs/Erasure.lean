import Lowering.Proofs.Lossless

/-!
# Trees without positions

Positions are carried through lowering and never decide anything, and three fields of a document are
not looked at at all. `erase` takes these parts out of documents, and positions out of results: what
is left of a result depends only on what is left of the document.

* `Node.erase`, `Output.erase`, `Report.erase`: documents and results without those parts;
* `Node.outputs_erase`, `Node.events_erase`: lowering a tree without positions gives the outputs
  and, inside a document, the events without positions;
* `events_erase_topLevel`: directly in a document the positions of script still differ, since they
  are counted from the tag, but nothing else does;
* `lowerDocument_of_erase_eq`: documents that are alike without those parts have results that are
  alike without positions.
-/

namespace Lowering

/-! ## Documents without positions -/

/-- An attribute without the field that is not looked at. -/
def TagAttribute.erase (a : TagAttribute) : TagAttribute :=
  { a with mustEscape := true }

/-- A tag without the fields that are not looked at. -/
def Tag.erase (t : Tag) : Tag :=
  { t with attributes := t.attributes.map TagAttribute.erase, selfClosing := false }

/-- Code without the fields that are not looked at. -/
def Code.erase (c : Code) : Code :=
  { c with mustEscape := true, isInline := false }

mutual

/-- A node without positions and fields that are not looked at. -/
def Node.erase : Node → Node
  | .block b => .block b.erase
  | .tag _ t body => .tag {} t.erase (eraseBody body)
  | .code _ c body => .code {} c.erase (eraseBody body)
  | .text _ value => .text {} value
  | .branch _ test body => .branch {} test (eraseBody body)
  | .switch _ subject body => .switch {} subject body.erase
  | .conditional chain => .conditional chain.erase
  | .each _ loop body alternate => .each {} loop body.erase (eraseBody alternate)
  | .other _ kind => .other {} kind

/-- A block without them. -/
def Block.erase : Block → Block
  | .mk _ nodes => .mk {} (eraseNodes nodes)

/-- Nodes without them. -/
def eraseNodes : List Node → List Node
  | [] => []
  | n :: rest => n.erase :: eraseNodes rest

/-- A body without them. -/
def eraseBody : Option Block → Option Block
  | none => none
  | some b => some b.erase

/-- A conditional without them. -/
def Conditional.erase : Conditional → Conditional
  | .mk _ test consequent alternate => .mk {} test consequent.erase (eraseAlternate alternate)

/-- What a conditional takes when its test fails, without them. -/
def eraseAlternate : Option Alternate → Option Alternate
  | none => none
  | some (.block b) => some (.block b.erase)
  | some (.chain chain) => some (.chain chain.erase)

end

theorem eraseNodes_eq_map (nodes : List Node) : eraseNodes nodes = nodes.map Node.erase := by
  induction nodes with
  | nil => rfl
  | cons n rest ih => exact congrArg (n.erase :: ·) ih

theorem eraseBody_eq_map (body : Option Block) : eraseBody body = body.map Block.erase := by
  cases body with
  | none => rfl
  | some b => rfl

theorem Block.nodes_erase (b : Block) : b.erase.nodes = b.nodes.map Node.erase := by
  obtain ⟨mark, nodes⟩ := b
  exact eraseNodes_eq_map nodes

namespace Node

theorem kind_erase (n : Node) : n.erase.kind = n.kind := by
  cases n <;> rfl

theorem position_erase (n : Node) : n.erase.position = {} := by
  cases n with
  | block b =>
    obtain ⟨mark, nodes⟩ := b
    rfl
  | conditional chain =>
    obtain ⟨mark, test, consequent, alternate⟩ := chain
    rfl
  | _ => rfl

theorem isBranch_erase (n : Node) : n.erase.isBranch = n.isBranch := by
  cases n <;> rfl

theorem isDefault_erase (n : Node) : n.erase.isDefault = n.isDefault := by
  cases n <;> rfl

theorem branchBody?_erase (n : Node) : n.erase.branchBody? = n.branchBody?.map Block.erase := by
  cases n with
  | branch mark test body => exact eraseBody_eq_map body
  | _ => rfl

end Node

mutual

theorem Conditional.blocks_erase :
    (chain : Conditional) → chain.erase.blocks = chain.blocks.map Block.erase
  | .mk mark test consequent alternate => by
    rw [Conditional.erase, Conditional.blocks, alternateBlocks_erase alternate, Conditional.blocks,
      List.map_cons]

theorem alternateBlocks_erase :
    (alternate : Option Alternate) →
      alternateBlocks (eraseAlternate alternate) = (alternateBlocks alternate).map Block.erase
  | none => by rw [eraseAlternate, alternateBlocks, List.map_nil]
  | some (.block b) => by rw [eraseAlternate, alternateBlocks, alternateBlocks, List.map_singleton]
  | some (.chain chain) => by
    rw [eraseAlternate, alternateBlocks, alternateBlocks, chain.blocks_erase]

end

theorem Node.blocks_erase (n : Node) : n.erase.blocks = n.blocks.map Block.erase := by
  cases n with
  | block b => rw [erase, blocks, blocks, List.map_singleton]
  | switch mark subject b =>
    rw [erase, blocks, blocks, Block.nodes_erase, List.filterMap_map, List.map_filterMap]
    exact List.filterMap_congr fun n _ => n.branchBody?_erase
  | conditional chain => rw [erase, blocks, blocks, chain.blocks_erase]
  | each mark loop b alternate =>
    rw [erase, blocks, blocks, eraseBody_eq_map, Option.toList_map, List.map_cons]
  | text mark value => rw [erase, blocks, blocks, List.map_nil]
  | other mark kind => rw [erase, blocks, blocks, List.map_nil]
  | _ => rw [erase, blocks, blocks, eraseBody_eq_map, Option.toList_map]

/-! ## Results without positions -/

namespace Output

mutual

/-- An output node without positions. -/
def erase : Output → Output
  | ⟨kind, name, value, attributes, params, children, _⟩ =>
    ⟨kind, name, value, attributes, params, eraseAll children, {}⟩

/-- Output nodes without positions. -/
def eraseAll : List Output → List Output
  | [] => []
  | node :: rest => node.erase :: eraseAll rest

end

theorem eraseAll_eq_map (nodes : List Output) : eraseAll nodes = nodes.map erase := by
  induction nodes with
  | nil => rw [eraseAll, List.map_nil]
  | cons node rest ih => rw [eraseAll, ih, List.map_cons]

theorem erase_eq (o : Output) :
    o.erase = { o with children := o.children.map erase, location := {} } := by
  obtain ⟨⟩ := o
  rw [erase, eraseAll_eq_map]

mutual

theorem erase_erase : (o : Output) → o.erase.erase = o.erase
  | ⟨kind, name, value, attributes, params, children, location⟩ => by
    rw [erase, erase, eraseAll_eraseAll children]

theorem eraseAll_eraseAll : (nodes : List Output) → eraseAll (eraseAll nodes) = eraseAll nodes
  | [] => by rw [eraseAll, eraseAll]
  | node :: rest => by rw [eraseAll, eraseAll, erase_erase node, eraseAll_eraseAll rest]

end

theorem map_erase_erase (nodes : List Output) :
    (nodes.map erase).map erase = nodes.map erase := by
  rw [← eraseAll_eq_map, ← eraseAll_eq_map, eraseAll_eraseAll]

theorem erase_fragment (children : List Output) :
    (fragment children).erase = fragment (children.map erase) :=
  erase_eq _

theorem erase_null : null.erase = null :=
  erase_eq _

end Output

/-- A diagnostic without its position. -/
def Diagnostic.erase (d : Diagnostic) : Diagnostic :=
  { d with position := {} }

/-- A result without positions. -/
def Report.erase (r : Report) : Report where
  statements := r.statements.map Output.erase
  render := r.render.map Output.erase
  diagnostics := r.diagnostics.map Diagnostic.erase

/-! ## What does not show positions -/

namespace Output

theorem kind_erase (o : Output) : o.erase.kind = o.kind := by
  rw [erase_eq]

theorem renderAll_erase_of_each {nodes : List Output}
    (h : ∀ node ∈ nodes, node.erase.render = node.render) :
    renderAll (eraseAll nodes) = renderAll nodes := by
  induction nodes with
  | nil => rw [eraseAll]
  | cons node rest ih =>
    rw [List.forall_mem_cons] at h
    rw [eraseAll, renderAll, renderAll, h.1, ih h.2]

theorem renderChildren_erase_of_each {nodes : List Output}
    (h : ∀ node ∈ nodes, node.erase.render = node.render) :
    renderChildren (eraseAll nodes) = renderChildren nodes := by
  induction nodes with
  | nil => rw [eraseAll]
  | cons node rest ih =>
    rw [List.forall_mem_cons] at h
    rw [eraseAll, renderChildren, renderChildren, h.1, ih h.2, kind_erase]

/-- The step from the children of a node to the node. -/
theorem render_erase_of_children {node : Output}
    (h : ∀ child ∈ node.children, child.erase.render = child.render) :
    node.erase.render = node.render := by
  obtain ⟨kind, name, value, attributes, params, children, location⟩ := node
  dsimp only at h
  rw [erase]
  cases kind with
  | element => simp only [render, renderChildren_erase_of_each h]
  | fragment => simp only [render, renderChildren_erase_of_each h]
  | switch => simp only [render, renderAll_erase_of_each h]
  | conditional =>
    rcases children with _ | ⟨consequent, _ | ⟨alternate, _ | ⟨third, rest⟩⟩⟩
    · rw [eraseAll, render, render]
    · rw [eraseAll, eraseAll, render, render]
    · simp only [eraseAll, render, h consequent (by simp), h alternate (by simp)]
    · simp only [eraseAll, render]
  | iteration =>
    rcases children with _ | ⟨body, _ | ⟨alternate, rest⟩⟩
    · rw [eraseAll, render, render]
    · simp only [eraseAll, render, h body (by simp)]
    · simp only [eraseAll, render, h body (by simp), h alternate (by simp)]
  | switchCase =>
    cases children with
    | nil => rw [eraseAll, render, render]
    | cons result rest => simp only [eraseAll, render, h result (by simp)]
  | text => simp only [render]
  | expression => simp only [render]
  | statement => simp only [render]
  | null => simp only [render]

mutual

theorem render_erase : (node : Output) → node.erase.render = node.render
  | ⟨_, _, _, _, _, children, _⟩ => render_erase_of_children (render_erase_of_mem children)

theorem render_erase_of_mem :
    (nodes : List Output) → ∀ node ∈ nodes, node.erase.render = node.render
  | [] => List.forall_mem_nil _
  | node :: rest =>
    List.forall_mem_cons.mpr ⟨render_erase node, render_erase_of_mem rest⟩

end

/-- Source does not show positions. -/
theorem renderAll_erase (nodes : List Output) :
    renderAll (nodes.map erase) = renderAll nodes := by
  rw [← eraseAll_eq_map, renderAll_erase_of_each fun node _ => node.render_erase]

mutual

theorem walkNode_erase : (node : Output) → node.erase.walkNode = node.walkNode.map erase
  | ⟨kind, name, value, attributes, params, children, location⟩ => by
    rw [erase, walkNode, walkNode, walk_eraseAll children, List.map_cons, erase]

theorem walk_eraseAll : (nodes : List Output) → walk (eraseAll nodes) = (walk nodes).map erase
  | [] => by rw [eraseAll, walk, List.map_nil]
  | node :: rest => by
    rw [eraseAll, walk, walk, walkNode_erase node, walk_eraseAll rest, List.map_append]

end

theorem tally_erase (nodes : List Output) : tally (nodes.map erase) = tally nodes := by
  rw [tally, tally, ← eraseAll_eq_map, walk_eraseAll, List.foldl_map]
  simp only [kind_erase]

end Output

namespace Report

theorem stats_erase (r : Report) : r.erase.stats = r.stats := by
  rw [stats, stats, erase, ← List.map_append, Output.tally_erase]

theorem hasFatal_erase (r : Report) : r.erase.hasFatal = r.hasFatal := by
  rw [hasFatal, hasFatal, erase, List.any_map]
  rfl

end Report

/-! ## Outputs -/

theorem classValues_erase (attributes : List TagAttribute) :
    classValues (attributes.map TagAttribute.erase) = classValues attributes := by
  rw [classValues, classValues, List.filter_map, List.map_map]
  rfl

theorem lowerRest_erase (config : Config) (classes : Option (List AttributeValue))
    (attributes : List TagAttribute) :
    lowerRest config classes (attributes.map TagAttribute.erase) =
      lowerRest config classes attributes := by
  induction attributes generalizing classes with
  | nil => rfl
  | cons a rest ih =>
    simp only [List.map_cons, lowerRest, ih]
    rfl

theorem lowerAttributes_erase (config : Config) (attributes : List TagAttribute) :
    lowerAttributes config (attributes.map TagAttribute.erase) =
      lowerAttributes config attributes := by
  rw [lowerAttributes, lowerAttributes, classValues_erase, lowerRest_erase]

theorem caseProblem?_erase (nodes : List Node) :
    caseProblem? (nodes.map Node.erase) = (caseProblem? nodes).map fun found => (found.1, {}) := by
  have hbranch : (fun n : Node => !n.isBranch) ∘ Node.erase = fun n => !n.isBranch :=
    funext fun n => congrArg _ n.isBranch_erase
  have hdefault : Node.isDefault ∘ Node.erase = Node.isDefault := funext Node.isDefault_erase
  rw [caseProblem?, caseProblem?, List.find?_map, hbranch, List.filter_map, hdefault,
    List.getElem?_map]
  cases nodes.find? fun n => !n.isBranch with
  | some stray =>
    simp only [Option.map_some, Node.kind_erase, Node.position_erase]
  | none =>
    simp only [Option.map_none, Option.map_map]
    congr 1
    funext second
    simp only [Function.comp_apply, Node.position_erase]

theorem isCase_erase_iff {nodes : List Node} : IsCase (nodes.map Node.erase) ↔ IsCase nodes := by
  rw [← caseProblem?_eq_none_iff, caseProblem?_erase, Option.map_eq_none_iff,
    caseProblem?_eq_none_iff]

/-! ### Constructs -/

section Constructs

variable (mark : Mark)

theorem erase_elementOutput (config : Config) (tag : Tag) (children : List Output) :
    (elementOutput config mark tag children).erase =
      elementOutput config {} tag.erase (children.map Output.erase) := by
  rw [Output.erase_eq, elementOutput, elementOutput, Tag.erase, lowerAttributes_erase]
  rfl

theorem erase_switchOutput (subject : Text) (cases : List Output) :
    (switchOutput mark subject cases).erase =
      switchOutput {} subject (cases.map Output.erase) := by
  rw [Output.erase_eq, switchOutput, switchOutput]
  rfl

theorem erase_switchCase (test : Text) (children : Option (List Output)) :
    (switchCase mark test children).erase =
      switchCase {} test (children.map (List.map Output.erase)) := by
  rw [Output.erase_eq]
  cases children with
  | none => rfl
  | some list =>
    simp only [switchCase, Option.map_some, List.map_singleton, Output.erase_fragment]
    rfl

theorem erase_conditionalOutput (test : Text) (consequent : List Output) (alternate : Output) :
    (conditionalOutput mark test consequent alternate).erase =
      conditionalOutput {} test (consequent.map Output.erase) alternate.erase := by
  rw [Output.erase_eq]
  simp only [conditionalOutput, List.map_cons, List.map_nil, Output.erase_fragment]
  rfl

theorem erase_iterationOutput (loop : Loop) (body : List Output)
    (alternate : Option (List Output)) :
    (iterationOutput mark loop body alternate).erase =
      iterationOutput {} loop (body.map Output.erase) (alternate.map (List.map Output.erase)) := by
  rw [Output.erase_eq]
  cases alternate with
  | none =>
    simp only [iterationOutput, Option.map_none, List.map_singleton, Output.erase_fragment]
    rfl
  | some list =>
    simp only [iterationOutput, Option.map_some, List.map_cons, List.map_nil, Output.erase_fragment]
    rfl

end Constructs

/-! ### Nodes -/

section Outputs

variable {config : Config} {reader : ScriptReader}

/-- A block whose output without positions is that of the block without positions. -/
def Block.Erases (setup : Setup) (b : Block) : Prop :=
  b.erase.outputs setup = (b.outputs setup).map Output.erase

theorem Block.erases_of_nodes {setup : Setup} {b : Block}
    (h : ∀ n ∈ b.nodes, n.erase.outputs setup = (n.outputs setup).map Output.erase) :
    b.Erases setup := by
  rw [Block.Erases, Block.outputs, Block.outputs, Block.nodes_erase, List.flatMap_map,
    List.map_flatMap]
  exact List.flatMap_congr h

theorem elim_eraseBody {setup : Setup} {body : Option Block}
    (h : ∀ b ∈ body.toList, b.Erases setup) :
    (eraseBody body).elim [] (Block.outputs setup) =
      (body.elim [] (Block.outputs setup)).map Output.erase := by
  cases body with
  | none => rfl
  | some b => exact h b (by simp)

theorem map_eraseBody {setup : Setup} {body : Option Block}
    (h : ∀ b ∈ body.toList, b.Erases setup) :
    (eraseBody body).map (Block.outputs setup) =
      (body.map (Block.outputs setup)).map (List.map Output.erase) := by
  cases body with
  | none => rfl
  | some b => exact congrArg some (h b (by simp))

theorem caseOutput?_erase {setup : Setup} {n : Node}
    (h : ∀ b ∈ n.branchBody?, b.Erases setup) :
    n.erase.caseOutput? setup = (n.caseOutput? setup).map Output.erase := by
  cases n with
  | branch mark test body =>
    have hbody : ∀ b ∈ body.toList, b.Erases setup := fun b hb => h b (Option.mem_toList.mp hb)
    rw [Node.erase, Node.caseOutput?, Node.caseOutput?, map_eraseBody hbody, Option.map_some,
      erase_switchCase]
  | _ =>
    rw [Node.erase]
    rfl

mutual

theorem value_lowerConditional_erase :
    (chain : Conditional) → (∀ b ∈ chain.blocks, b.Erases (.standard config reader)) →
      (lowerConditional (.standard config reader) chain.erase).value =
        (lowerConditional (.standard config reader) chain).value.erase
  | .mk mark test consequent alternate, h => by
    rw [Conditional.blocks, List.forall_mem_cons] at h
    rw [Conditional.erase, value_lowerConditional, value_lowerConditional, h.1,
      value_lowerAlternate_erase alternate h.2, erase_conditionalOutput]

theorem value_lowerAlternate_erase :
    (alternate : Option Alternate) →
      (∀ b ∈ alternateBlocks alternate, b.Erases (.standard config reader)) →
      (lowerAlternate (.standard config reader) (eraseAlternate alternate)).value =
        (lowerAlternate (.standard config reader) alternate).value.erase
  | none, _ => by
    rw [eraseAlternate, value_lowerAlternate_none, Output.erase_null]
  | some (.block b), h => by
    rw [eraseAlternate, value_lowerAlternate_block, value_lowerAlternate_block,
      Output.erase_fragment, h b (by simp [alternateBlocks])]
  | some (.chain chain), h => by
    rw [alternateBlocks] at h
    rw [eraseAlternate, value_lowerAlternate_chain, value_lowerAlternate_chain,
      value_lowerConditional_erase chain h]

end

/-- The output of a tree without positions is the output of the tree without positions. -/
theorem Node.outputs_erase (n : Node) :
    n.erase.outputs (.standard config reader) =
      (n.outputs (.standard config reader)).map Output.erase := by
  induction n using Node.induct with
  | step n ih =>
    have hblocks : ∀ b ∈ n.blocks, b.Erases (.standard config reader) := fun b hb =>
      Block.erases_of_nodes (ih b hb)
    cases n with
    | block b =>
      rw [erase, outputs_block, outputs_block]
      exact hblocks b (by simp [blocks])
    | tag mark t body =>
      have hbody := elim_eraseBody hblocks
      rw [erase, outputs_tag, outputs_tag, hbody, apply_ite (List.map Output.erase)]
      have helement : t.erase.IsElement config ↔ t.IsElement config := Iff.rfl
      simp only [helement, List.map_singleton, List.map_nil, erase_elementOutput]
    | code mark c body =>
      rw [erase, outputs_code, outputs_code, apply_ite (List.map Output.erase), eraseBody_eq_map]
      simp only [Option.map_eq_none_iff, List.map_cons, List.map_nil]
      rfl
    | text mark value =>
      rw [erase, outputs_text, outputs_text]
      rfl
    | branch mark test body =>
      rw [erase, outputs_branch, outputs_branch, List.map_nil]
    | switch mark subject b =>
      obtain ⟨blockMark, nodes⟩ := b
      have hcases : (nodes.map erase).filterMap (caseOutput? (.standard config reader)) =
          (nodes.filterMap (caseOutput? (.standard config reader))).map Output.erase := by
        rw [List.filterMap_map, List.map_filterMap]
        refine List.filterMap_congr fun n hn => caseOutput?_erase fun b hb => ?_
        exact hblocks b (List.mem_filterMap.mpr ⟨n, hn, hb⟩)
      rw [erase, Block.erase, outputs_switch, outputs_switch, eraseNodes_eq_map, hcases,
        apply_ite (List.map Output.erase)]
      simp only [isCase_erase_iff, List.map_singleton, List.map_nil, erase_switchOutput]
    | conditional chain =>
      rw [erase, outputs_conditional, outputs_conditional,
        value_lowerConditional_erase chain hblocks, List.map_singleton]
    | each mark loop body alternate =>
      rw [blocks, List.forall_mem_cons] at hblocks
      rw [erase, outputs_each, outputs_each, map_eraseBody hblocks.2, hblocks.1, List.map_singleton,
        erase_iterationOutput]
    | other mark kind => rw [erase, outputs_other, outputs_other, List.map_nil]

theorem Block.erases (b : Block) : b.Erases (.standard config reader) :=
  erases_of_nodes fun n _ => n.outputs_erase

end Outputs

/-! ## Events -/

/-- An element of an output list without positions, if it is a node. -/
def Item.erase : Item → Item
  | .node output => .node output.erase
  | item => item

theorem Item.map_erase_map_node (outputs : List Output) :
    (outputs.map Item.node).map Item.erase = (outputs.map Output.erase).map Item.node := by
  rw [List.map_map, List.map_map]
  rfl

namespace Event

/-- An event without positions. -/
def erase : Event → Event
  | .diagnosed d => .diagnosed d.erase
  | .hoisted dialect items => .hoisted dialect (items.map Item.erase)
  | e => e

theorem diagnostics_map_erase (events : List Event) :
    diagnostics (events.map erase) = (diagnostics events).map Diagnostic.erase := by
  rw [diagnostics, diagnostics, List.filterMap_map, List.map_filterMap]
  refine List.filterMap_congr fun e _ => ?_
  cases e <;> rfl

theorem statements_map_erase (events : List Event) :
    statements (events.map erase) = (statements events).map Item.erase := by
  rw [statements, statements, List.flatMap_map, List.map_flatMap]
  refine List.flatMap_congr fun e _ => ?_
  cases e <;> rfl

theorem faults_map_erase (events : List Event) : faults (events.map erase) = faults events := by
  rw [faults, faults, List.filterMap_map]
  refine List.filterMap_congr fun e _ => ?_
  cases e <;> rfl

end Event

namespace Tag

theorem dialect_erase (config : Config) (t : Tag) : t.erase.dialect config = t.dialect config := by
  have hname : (fun a : TagAttribute => a.name == dialectAttribute) ∘ TagAttribute.erase =
      fun a => a.name == dialectAttribute := rfl
  rw [dialect, dialect, erase, List.find?_map, hname]
  cases t.attributes.find? fun a => a.name == dialectAttribute <;> rfl

theorem scriptProblem?_erase (config : Config) (t : Tag) :
    t.erase.scriptProblem? config = t.scriptProblem? config := by
  have hexternal : t.erase.isExternal = t.isExternal := by
    rw [isExternal, isExternal, erase, List.any_map]
    rfl
  rw [scriptProblem?, scriptProblem?, hexternal, dialect_erase]

end Tag

theorem Block.events_erase_of_nodes {setup : Setup} {b : Block}
    (h : ∀ n ∈ b.nodes, n.erase.events setup false = (n.events setup false).map Event.erase) :
    b.erase.events setup = (b.events setup).map Event.erase := by
  rw [Block.events, Block.events, Block.nodes_erase, List.flatMap_map, List.map_flatMap]
  exact List.flatMap_congr h

namespace Node

section Events

variable {config : Config} {reader : ScriptReader}

theorem isScript_erase (config : Config) (n : Node) :
    n.erase.isScript config = n.isScript config := by
  cases n <;> rw [erase] <;> rfl

theorem refusal?_erase (config : Config) (n : Node) :
    n.erase.refusal? config = (n.refusal? config).map fun found => (found.1, {}) := by
  cases n with
  | tag mark t body =>
    rw [erase, refusal?, refusal?, Tag.scriptProblem?_erase]
    simp only [apply_ite (Option.map _), Option.map_some, Option.map_none]
    rfl
  | code mark c body =>
    rw [erase, refusal?, refusal?, eraseBody_eq_map]
    simp only [Option.map_eq_none_iff, apply_ite (Option.map _), Option.map_some, Option.map_none]
    rfl
  | switch mark subject b => rw [erase, refusal?, refusal?, Block.nodes_erase, caseProblem?_erase]
  | _ =>
    rw [erase]
    rfl

/-- Inside a document the events of a tree without positions are the events without positions. -/
theorem events_erase (n : Node) :
    n.erase.events (.standard config reader) false =
      (n.events (.standard config reader) false).map Event.erase := by
  induction n using Node.induct with
  | step n ih =>
    have hrefusal := n.refusal?_erase config
    cases h : n.refusal? config with
    | some found =>
      rw [h, Option.map_some] at hrefusal
      rw [events_of_refusal h, events_of_refusal hrefusal]
      rfl
    | none =>
      rw [h, Option.map_none] at hrefusal
      rw [events_of_accepted h, events_of_accepted hrefusal, blocks_erase, List.flatMap_map,
        List.map_flatMap]
      exact List.flatMap_congr fun b hb => Block.events_erase_of_nodes (ih b hb)

end Events

end Node

/-! ## Scripts -/

section Scripts

variable (mark : Mark) (body : Option Block)

theorem bodyTexts_erase :
    bodyTexts (eraseBody body) = (bodyTexts body).map fun t => ({}, t.2) := by
  cases body with
  | none => rfl
  | some b =>
    rw [eraseBody, bodyTexts, bodyTexts, Block.nodes_erase, List.filterMap_map, List.map_filterMap]
    refine List.filterMap_congr fun n _ => ?_
    rw [Function.comp_apply]
    cases n <;> rw [Node.erase] <;> rfl

theorem hasMarkup_erase : hasMarkup (eraseBody body) = hasMarkup body := by
  cases body with
  | none => rfl
  | some b =>
    rw [eraseBody, hasMarkup, hasMarkup, Block.nodes_erase, List.any_map]
    congr 1
    funext n
    rw [Function.comp_apply]
    cases n <;> rw [Node.erase]

/-- Whether a point can be located does not depend on positions: its row must not be negative. -/
theorem isSome_locate_eq (texts texts' : List (Position × Text)) (tag tag' : Position)
    (row column : Int) :
    ((Origins.ofTexts texts tag).locate row column).isSome =
      ((Origins.ofTexts texts' tag').locate row column).isSome := by
  rw [Bool.eq_iff_iff, Origins.isSome_locate_iff, Origins.isSome_locate_iff]

theorem eq_none_or_eq_some_of_isSome_eq {α : Type} {x y : Option α} (h : x.isSome = y.isSome) :
    (x = none ∧ y = none) ∨ ∃ a b, x = some a ∧ y = some b := by
  cases x <;> cases y <;> simp_all

theorem placeStatements_alike {origins origins' : Origins}
    (h : ∀ row column, (origins.locate row column).isSome = (origins'.locate row column).isSome)
    (statements : List Statement) :
    (placeStatements origins statements).events = (placeStatements origins' statements).events ∧
      (placeStatements origins statements).value.map Output.erase =
        (placeStatements origins' statements).value.map Output.erase := by
  induction statements with
  | nil => exact ⟨rfl, rfl⟩
  | cons s rest ih =>
    simp only [placeStatements]
    rcases eq_none_or_eq_some_of_isSome_eq (h s.row s.column) with
      ⟨hnone, hnone'⟩ | ⟨position, position', hsome, hsome'⟩
    · rw [hnone, hnone']
      exact ⟨rfl, rfl⟩
    · rw [hsome, hsome']
      simp only [Emission.events_bind, Emission.events_pure, Emission.value_bind,
        Emission.value_pure, List.append_nil, List.map_cons, ih.1, ih.2, true_and]
      rfl

/-- The text of a tag is lowered alike without positions, up to the positions that are counted from
the tag. -/
theorem lowerScriptText_erase (setup : Setup) :
    (lowerScriptText setup {} (eraseBody body)).events.map Event.erase =
        (lowerScriptText setup mark body).events.map Event.erase ∧
      ((lowerScriptText setup {} (eraseBody body)).value.getD []).map Output.erase =
        ((lowerScriptText setup mark body).value.getD []).map Output.erase := by
  have hsource : ((bodyTexts (eraseBody body)).map Prod.snd).flatten =
      ((bodyTexts body).map Prod.snd).flatten := by
    rw [bodyTexts_erase, List.map_map]
    rfl
  have hlocate := isSome_locate_eq (bodyTexts (eraseBody body)) (bodyTexts body)
    (Mark.position {}) mark.position
  unfold lowerScriptText
  dsimp only
  rw [hsource]
  generalize ((bodyTexts body).map Prod.snd).flatten = source at *
  generalize Origins.ofTexts (bodyTexts (eraseBody body)) _ = origins at *
  generalize Origins.ofTexts (bodyTexts body) _ = origins' at *
  by_cases hblank : Text.isBlankText source = true
  · rw [if_pos hblank, if_pos hblank]
    exact ⟨rfl, rfl⟩
  rw [if_neg hblank, if_neg hblank]
  match setup.reader setup.config.language source with
  | .error e => exact ⟨rfl, rfl⟩
  | .ok (.broken row column) =>
    dsimp only
    rcases eq_none_or_eq_some_of_isSome_eq (hlocate row column) with
      ⟨hnone, hnone'⟩ | ⟨position, position', hsome, hsome'⟩
    · rw [hnone, hnone']
      exact ⟨rfl, rfl⟩
    · rw [hsome, hsome']
      exact ⟨rfl, rfl⟩
  | .ok (.statements statements) =>
    obtain ⟨hevents, hvalue⟩ := placeStatements_alike hlocate statements
    constructor
    · simp [hevents]
    · simpa using hvalue

end Scripts

/-! ## Documents -/

section Documents

variable (config : Config) (reader : ScriptReader)

theorem bodyEvents_erase (body : Option Block) :
    (eraseBody body).elim [] (Block.events (.standard config reader)) =
      (body.elim [] (Block.events (.standard config reader))).map Event.erase := by
  cases body with
  | none => rfl
  | some b => exact Block.events_erase_of_nodes fun n _ => n.events_erase

theorem Event.erase_erase (e : Event) : e.erase.erase = e.erase := by
  cases e with
  | hoisted dialect items =>
    simp only [erase, List.map_map]
    congr 2
    funext item
    cases item with
    | node output => exact congrArg Item.node output.erase_erase
    | _ => rfl
  | _ => rfl

theorem Event.map_erase_erase (events : List Event) :
    (events.map erase).map erase = events.map erase := by
  rw [List.map_map]
  exact List.map_congr_left fun e _ => e.erase_erase

/-- Directly in a document, too, the events of a tree without positions differ from those of the
tree in positions only. -/
theorem events_erase_topLevel (n : Node) :
    (n.erase.events (.standard config reader) true).map Event.erase =
      (n.events (.standard config reader) true).map Event.erase := by
  have hscript := n.isScript_erase config
  cases hs : n.isScript config with
  | false =>
    rw [hs] at hscript
    rw [Node.events_of_not_script hs, Node.events_of_not_script hscript, Node.events_erase,
      Event.map_erase_erase]
  | true =>
    rw [hs] at hscript
    cases n with
    | tag mark t body =>
      rw [Node.erase] at hscript ⊢
      have hproblem := t.scriptProblem?_erase config
      have hdialect := t.dialect_erase config
      cases hp : t.scriptProblem? config with
      | some problem =>
        rw [hp] at hproblem
        rw [Node.events_script_of_problem hs hp, Node.events_script_of_problem hscript hproblem]
        rfl
      | none =>
        rw [hp] at hproblem
        by_cases hd : t.dialect config = config.primaryDialect
        · obtain ⟨hevents, hvalue⟩ :=
            lowerScriptText_erase mark body (.standard config reader)
          rw [Node.events_script_primary hs hp hd,
            Node.events_script_primary hscript hproblem (hdialect.trans hd), hasMarkup_erase]
          simp only [List.map_append, hevents, List.map_singleton, Event.erase,
            Item.map_erase_map_node, hvalue, apply_ite (List.map Event.erase)]
          rfl
        · rw [Node.events_script_template hs hp hd,
            Node.events_script_template hscript hproblem (fun h => hd (hdialect.symm.trans h)),
            elim_eraseBody fun b _ => b.erases, bodyEvents_erase, hdialect]
          simp only [List.map_append, List.map_singleton, Event.erase, Item.map_erase_map_node,
            Event.map_erase_erase, Output.map_erase_erase]
    | _ => cases hs

theorem documentEvents_erase (root : Node) :
    (documentEvents (.standard config reader) root.erase).map Event.erase =
      (documentEvents (.standard config reader) root).map Event.erase := by
  have hinner : (root.erase.events (.standard config reader) false).map Event.erase =
      (root.events (.standard config reader) false).map Event.erase := by
    rw [Node.events_erase, Event.map_erase_erase]
  cases root with
  | block b =>
    rw [Node.erase, documentEvents, documentEvents, Block.nodes_erase, List.flatMap_map,
      List.map_flatMap, List.map_flatMap]
    exact List.flatMap_congr fun n _ => events_erase_topLevel config reader n
  | _ =>
    rw [Node.erase] at hinner ⊢
    exact hinner

/-- The result of a tree without positions differs from that of the tree in positions only. -/
theorem documentReport_erase (root : Node) :
    (documentReport (.standard config reader) root.erase).erase =
      (documentReport (.standard config reader) root).erase := by
  have hevents := documentEvents_erase config reader root
  have hstatements : (documentHoisted (.standard config reader) root.erase).map Output.erase =
      (documentHoisted (.standard config reader) root).map Output.erase := by
    have h := congrArg (fun events => Item.nodes (Event.statements events)) hevents
    simpa only [Event.statements_map_erase, statements_documentEvents, Item.map_erase_map_node,
      Item.nodes_map_node] using h
  have hdiagnostics := congrArg Event.diagnostics hevents
  rw [Event.diagnostics_map_erase, Event.diagnostics_map_erase] at hdiagnostics
  rw [Report.erase, Report.erase, documentReport, documentReport, Report.mk.injEq]
  exact ⟨hstatements, by rw [Node.outputs_erase, Output.map_erase_erase], hdiagnostics⟩

/-- A document and the document without positions have the same result but for positions, or the
same fault. -/
theorem lowerDocument_erase (root : Node) :
    (lowerDocument (.standard config reader) root.erase).2.map Report.erase =
      (lowerDocument (.standard config reader) root).2.map Report.erase := by
  have hfaults := congrArg Event.faults (documentEvents_erase config reader root)
  rw [Event.faults_map_erase, Event.faults_map_erase] at hfaults
  cases h : Event.faults (documentEvents (.standard config reader) root) with
  | nil =>
    rw [h] at hfaults
    rw [lowerDocument_of_faults_nil config reader h,
      lowerDocument_of_faults_nil config reader hfaults]
    exact congrArg Except.ok (documentReport_erase config reader root)
  | cons fault rest =>
    rw [h] at hfaults
    rw [lowerDocument_of_fault config reader h, lowerDocument_of_fault config reader hfaults]

end Documents

/-! ## The program -/

open CommandLine

theorem wellFormed_of_lowerDocument {config : Config} {grammar : Grammar} {root : Node}
    {report : Report} (h : (lowerDocument (.standard config grammar.reader) root).2 = .ok report) :
    Output.WellFormed report.statements ∧ Output.WellFormed report.render := by
  obtain ⟨hread, rfl⟩ := (lowerDocument_eq_ok_iff_readable config grammar).mp h
  exact wellFormed_documentReport hread

/-- Documents that differ only in positions and in the fields that are not looked at have the same
result but for positions, or the same fault. So the results show the same source and count the same
nodes. If the program can print both results it ends with the same status on both, and on a result
that it cannot print it fails. -/
theorem lowerDocument_of_erase_eq (config : Config) (grammar : Grammar) {m n : Node}
    (h : m.erase = n.erase) :
    (lowerDocument (.standard config grammar.reader) m).2.map Report.erase =
        (lowerDocument (.standard config grammar.reader) n).2.map Report.erase ∧
      (∀ r s : Report, (lowerDocument (.standard config grammar.reader) m).2 = .ok r →
        (lowerDocument (.standard config grammar.reader) n).2 = .ok s →
        Output.renderAll r.statements = Output.renderAll s.statements ∧
          Output.renderAll r.render = Output.renderAll s.render ∧ r.stats = s.stats ∧
          r.hasFatal = s.hasFatal) ∧
      ∀ (arguments : List String) (options : Arguments.Options) (stdin stdin' : String)
        (files files' : String → Except FileCause String) (text text' : String) (r s : Report),
        Arguments.parse arguments = .run options →
        input ⟨stdin, files, grammar.reader⟩ options.file = .ok text →
        input ⟨stdin', files', grammar.reader⟩ options.file = .ok text' →
        Document.loadText (loadedText text) = .ok m →
        Document.loadText (loadedText text') = .ok n →
        (lowerDocument (.standard {} grammar.reader) m).2 = .ok r →
        (lowerDocument (.standard {} grammar.reader) n).2 = .ok s →
        (Printable options r → Printable options s →
          ∃ outcome outcome', run ⟨stdin, files, grammar.reader⟩ arguments = .ok outcome ∧
            run ⟨stdin', files', grammar.reader⟩ arguments = .ok outcome' ∧
            outcome.status = outcome'.status) ∧
          (¬Printable options r → ∃ failure,
            run ⟨stdin, files, grammar.reader⟩ arguments = .error failure ∧
              failure.isOfPrinting = true) ∧
          (¬Printable options s → ∃ failure,
            run ⟨stdin', files', grammar.reader⟩ arguments = .error failure ∧
              failure.isOfPrinting = true) := by
  have halike (config : Config) :
      (lowerDocument (.standard config grammar.reader) m).2.map Report.erase =
        (lowerDocument (.standard config grammar.reader) n).2.map Report.erase := by
    rw [← lowerDocument_erase, ← lowerDocument_erase config grammar.reader n, h]
  have hreports {config : Config} {r s : Report}
      (hr : (lowerDocument (.standard config grammar.reader) m).2 = .ok r)
      (hs : (lowerDocument (.standard config grammar.reader) n).2 = .ok s) : r.erase = s.erase := by
    have hboth := halike config
    rw [hr, hs] at hboth
    exact Except.ok.inj hboth
  refine ⟨halike config, ?_, ?_⟩
  · intro r s hr hs
    have heq := hreports hr hs
    obtain ⟨hstatements, hrender, -⟩ := Report.mk.inj heq
    refine ⟨?_, ?_, ?_, ?_⟩
    · rw [← Output.renderAll_erase, hstatements, Output.renderAll_erase]
    · rw [← Output.renderAll_erase, hrender, Output.renderAll_erase]
    · rw [← Report.stats_erase, heq, Report.stats_erase]
    · rw [← Report.hasFatal_erase, heq, Report.hasFatal_erase]
  · intro arguments options stdin stdin' files files' text text' r s hparse hinput hinput' hload
      hload' hr hs
    have hfatal : r.hasFatal = s.hasFatal := by
      rw [← Report.hasFatal_erase, hreports hr hs, Report.hasFatal_erase]
    simp only [run, hparse]
    obtain ⟨stderr, hexecute⟩ := execute_of_report options hinput hload hr
    obtain ⟨stderr', hexecute'⟩ := execute_of_report options hinput' hload' hs
    obtain ⟨hwf, hwf'⟩ := wellFormed_of_lowerDocument hr
    obtain ⟨hwfs, hwfs'⟩ := wellFormed_of_lowerDocument hs
    rw [hexecute, hexecute', hfatal]
    refine ⟨?_, ?_, ?_⟩
    · intro hprint hprint'
      obtain ⟨printed, hprinted⟩ := exists_output_of_printable hwf hwf' hprint
      obtain ⟨printed', hprinted'⟩ := exists_output_of_printable hwfs hwfs' hprint'
      rw [hprinted, hprinted']
      exact ⟨_, _, rfl, rfl, rfl⟩
    · intro hprint
      obtain ⟨failure, hfailure, hcause⟩ := output_of_not_printable hwf hwf' hprint
      rw [hfailure]
      exact ⟨failure, rfl, hcause⟩
    · intro hprint
      obtain ⟨failure, hfailure, hcause⟩ := output_of_not_printable hwfs hwfs' hprint
      rw [hfailure]
      exact ⟨failure, rfl, hcause⟩

/-- A page with a script, an element, code and a node of an unknown kind, each at a position and
with fields that are not looked at. -/
def placedPage : Node :=
  .block (.mk { line := some 1 }
    [.tag { line := some 2, column := some 3, filename := some "page" } { name := "script" }
        (some (.mk {} [.text { line := some 3, column := some 5 } "x;"])),
      .tag { line := some 4 }
        { name := "p"
          attributes := [{ name := "class", value := .source "'a'", mustEscape := false }]
          selfClosing := true } none,
      .code { line := some 5 }
        { value := "y", buffer := true, mustEscape := false, isInline := true } none,
      .other { line := some 6 } "Comment"])

/-- Lines are positions. -/
theorem erase_scriptAt (line line' : Int) : (scriptAt line).erase = (scriptAt line').erase :=
  rfl

/-- The page and the page without positions have results that differ in positions only, and they do
differ. Two documents whose scripts stand on different lines are printed with the same status. -/
theorem lowerDocument_placedPage :
    placedPage.erase = placedPage.erase.erase ∧
      (∃ r s, (lowerDocument (.standard {} oneStatement.reader) placedPage).2 = .ok r ∧
        (lowerDocument (.standard {} oneStatement.reader) placedPage.erase).2 = .ok s ∧
        r.statements.map Output.location = [{ line := 3, column := 5 }] ∧
        s.statements.map Output.location = [{ line := 1, column := 1 }] ∧
        r.erase = s.erase ∧ r.stats = s.stats) ∧
      ∃ outcome outcome', runScriptAt 0 = .ok outcome ∧
        runScriptAt (lineLimit - 2) = .ok outcome' ∧ outcome.status = outcome'.status := by
  have herase : placedPage.erase = placedPage.erase.erase := rfl
  refine ⟨herase, ?_, ?_⟩
  · have hok : (lowerDocument (.standard {} oneStatement.reader) placedPage).2 =
        .ok (documentReport (.standard {} oneStatement.reader) placedPage) :=
      (lowerDocument_eq_ok_iff _ _).mpr ⟨by decide +kernel, rfl⟩
    have hok' : (lowerDocument (.standard {} oneStatement.reader) placedPage.erase).2 =
        .ok (documentReport (.standard {} oneStatement.reader) placedPage.erase) :=
      (lowerDocument_eq_ok_iff _ _).mpr ⟨by decide +kernel, rfl⟩
    obtain ⟨halike, hshown, -⟩ := lowerDocument_of_erase_eq {} oneStatement herase
    rw [hok, hok'] at halike
    exact ⟨_, _, hok, hok', by decide +kernel, by decide +kernel, Except.ok.inj halike,
      (hshown _ _ hok hok').2.2.1⟩
  · have hlimit := one_lt_lineLimit
    obtain ⟨r, hr, hwritable⟩ := exists_report_scriptAt 0
    obtain ⟨s, hs, hwritable'⟩ := exists_report_scriptAt (lineLimit - 2)
    rw [decide_eq_true (by omega), ← Report.isWritable_encode] at hwritable hwritable'
    have htext : Json.parse (scriptJsonAt (0 : Nat)).pretty = _ := parse_scriptJsonAt (by omega)
    have htext' : Json.parse (scriptJsonAt (lineLimit - 2 : Nat)).pretty = _ :=
      parse_scriptJsonAt (by omega)
    exact ((lowerDocument_of_erase_eq {} oneStatement (erase_scriptAt (0 : Nat)
      (lineLimit - 2 : Nat))).2.2 ["--json"] { json := true } _ _ _ _ _ _ r s rfl rfl rfl
      ((loadText_loadedText htext).trans (load_scriptJsonAt _))
      ((loadText_loadedText htext').trans (load_scriptJsonAt _)) hr hs).1 hwritable hwritable'

/-- Two documents whose scripts stand on different lines, both of which can be written. The program
ends with status 0 on the one and fails on the other, since the line after it cannot be written. -/
theorem run_status_ne_beyondLastLine :
    (scriptAt (0 : Nat)).erase = (scriptAt (lineLimit - 1 : Nat)).erase ∧
      Document.loadText (loadedText (scriptJsonAt (0 : Nat)).pretty) = .ok (scriptAt (0 : Nat)) ∧
      Document.loadText (loadedText (scriptJsonAt (lineLimit - 1 : Nat)).pretty) =
        .ok (scriptAt (lineLimit - 1 : Nat)) ∧
      (∃ outcome, runScriptAt 0 = .ok outcome ∧ outcome.status = 0) ∧
      runScriptAt (lineLimit - 1) = .error (.report (.rendering .oversized)) := by
  have hlimit := one_lt_lineLimit
  have hload (line : Nat) (hline : line < lineLimit) :
      Document.loadText (loadedText (scriptJsonAt line).pretty) = .ok (scriptAt line) :=
    (loadText_loadedText (parse_scriptJsonAt hline)).trans (load_scriptJsonAt _)
  refine ⟨erase_scriptAt _ _, hload 0 (by omega), hload (lineLimit - 1) (by omega), ?_, ?_⟩
  · obtain ⟨report, hreport, hwritable⟩ := exists_report_scriptAt 0
    rw [decide_eq_true (by omega), ← Report.isWritable_encode] at hwritable
    obtain ⟨stderr, hexecute⟩ : ∃ stderr, runScriptAt 0 = _ :=
      execute_of_report { json := true } rfl (hload 0 (by omega)) hreport
    have hfatal : report.hasFatal = false := by
      obtain ⟨-, rfl⟩ := (lowerDocument_eq_ok_iff _ _).mp hreport
      decide +kernel
    rw [output_json rfl, if_pos hwritable, hfatal] at hexecute
    exact ⟨_, hexecute, rfl⟩
  · obtain ⟨report, hreport, hwritable⟩ := exists_report_scriptAt (lineLimit - 1)
    rw [decide_eq_false (by omega), ← Report.isWritable_encode] at hwritable
    obtain ⟨stderr, hexecute⟩ : ∃ stderr, runScriptAt (lineLimit - 1) = _ :=
      execute_of_report { json := true } rfl (hload _ (by omega)) hreport
    rw [hexecute, output_json rfl, hwritable, if_neg Bool.false_ne_true]
    rfl

end Lowering
