import Lowering.Proofs.Inner
import Lowering.Proofs.Settling
import Lowering.Report

/-!
# Lowering with standard passes

A setup in which no output is fixed lowers every node to nodes. Then the output of a node, and what
happens on the way to it, can be computed from its parts by plain equations between lists.

* `Node.outputs`, `Node.events`: what a node adds to the output around it, and the events of a node
  that is not the document;
* `isPlain_lowerNode`: no output list has misfits, so that no list is ever refused as children;
* `items_lowerNode_inner`: the output of a node does not depend on its place;
* `lowerBlock_eq`, `lowerBody_eq`, `lowerCases_eq`: lowering of the parts that hold nodes.
-/

namespace Lowering

/-- The setup in which no output is fixed. -/
def Setup.standard (config : Config) (reader : ScriptReader) : Setup :=
  { config := config, reader := reader }

@[simp] theorem Setup.config_standard (config : Config) (reader : ScriptReader) :
    (Setup.standard config reader).config = config := rfl

@[simp] theorem Setup.reader_standard (config : Config) (reader : ScriptReader) :
    (Setup.standard config reader).reader = reader := rfl

@[simp] theorem Setup.fixed_standard (config : Config) (reader : ScriptReader) :
    (Setup.standard config reader).fixed = {} := rfl

/-! ## Lists without misfits -/

theorem Item.map_node_nodes {items : List Item} (h : misfits items = []) :
    (nodes items).map .node = items := by
  induction items with
  | nil => rfl
  | cons item rest ih =>
    cases item with
    | node output =>
      have hrest : misfits rest = [] := by simpa [misfits, node?] using h
      exact congrArg (Item.node output :: ·) (ih hrest)
    | absent => simp [misfits, node?] at h
    | list items => simp [misfits, node?] at h
    | part name value => simp [misfits, node?] at h

namespace Yield

/-- A yield that is not a node by itself and that holds nothing but nodes. -/
def IsPlain : Yield → Prop
  | .nothing => True
  | .single _ => False
  | .several items => Item.misfits items = []

theorem isPlain_ofNodes (outputs : List Output) : (ofNodes outputs).IsPlain :=
  Item.misfits_map_node outputs

theorem isPlain_ofNodes? (outputs : Option (List Output)) : (ofNodes? outputs).IsPlain := by
  cases outputs with
  | none => trivial
  | some outputs => exact isPlain_ofNodes outputs

theorem isPlain_boxed_ofNode? (output : Option Output) : (ofNode? output).boxed.IsPlain := by
  cases output with
  | none => trivial
  | some output => exact isPlain_ofNodes [output]

theorem misfits_items {yield : Yield} (h : yield.IsPlain) : Item.misfits yield.items = [] := by
  cases yield with
  | nothing => rfl
  | single output => exact absurd h id
  | several items => exact h

theorem render_of_isPlain {yield : Yield} (h : yield.IsPlain) :
    yield.render = .ok yield.items := by
  cases yield with
  | nothing => rfl
  | single output => exact absurd h id
  | several items => rfl

end Yield

section Values

variable (config : Config) (reader : ScriptReader)

theorem isPlain_lowerTag (place : Place) (mark : Mark) (tag : Tag) (body : Option Block)
    (contents : Emission (List Item)) :
    (lowerTag (.standard config reader) place mark tag body contents).value.IsPlain := by
  unfold lowerTag
  split
  · rw [Emission.value_map]
    exact Yield.isPlain_ofNodes? _
  · split
    · rw [Emission.value_map]
      exact Yield.isPlain_ofNodes? _
    · exact Yield.isPlain_boxed_ofNode? _

mutual

/-- Without fixed outputs a node yields nothing or a list of nodes. -/
theorem isPlain_lowerNode (place : Place) :
    (n : Node) → (lowerNode (.standard config reader) place n).value.IsPlain
  | .block (.mk _ nodes) => by
    rw [lowerNode]
    exact misfits_lowerNodes _ nodes
  | .tag mark tag body => by
    rw [lowerNode]
    exact isPlain_lowerTag config reader place mark tag body _
  | .code _ _ _ => by
    rw [lowerNode]
    exact Yield.isPlain_ofNodes? _
  | .text _ _ => by
    rw [lowerNode]
    exact Yield.isPlain_ofNodes _
  | .branch _ _ _ => by
    rw [lowerNode, Emission.value_map]
    exact Yield.isPlain_ofNodes? _
  | .switch _ _ (.mk _ _) => by
    rw [lowerNode]
    exact Yield.isPlain_boxed_ofNode? _
  | .conditional _ => by
    rw [lowerNode]
    exact Yield.isPlain_boxed_ofNode? (some _)
  | .each _ _ _ _ => by
    rw [lowerNode]
    exact Yield.isPlain_boxed_ofNode? (some _)
  | .other _ _ => by
    rw [lowerNode, Emission.value_map]
    exact Yield.isPlain_ofNodes? _

theorem misfits_lowerNodes (place : Place) :
    (nodes : List Node) →
      Item.misfits (lowerNodes (.standard config reader) place nodes).value = []
  | [] => by
    rw [lowerNodes]
    rfl
  | n :: rest => by
    have hn := Yield.misfits_items (isPlain_lowerNode place n)
    have hrest := misfits_lowerNodes place rest
    simp only [lowerNodes, Emission.value_bind, Emission.value_pure]
    rw [Item.misfits, List.filter_append]
    exact List.append_eq_nil_iff.mpr ⟨hn, hrest⟩

end

end Values

/-! ## Outputs of nodes -/

/-- What a node adds to the output around it. -/
def Node.outputs (setup : Setup) (n : Node) : List Output :=
  Item.nodes (lowerNode setup {} n).value.items

/-- What the nodes of a block add to the output around them, one after the other. -/
def Block.outputs (setup : Setup) (b : Block) : List Output :=
  b.nodes.flatMap (Node.outputs setup)

/-- The events of a node that is not the document; `topLevel` says whether it stands directly in the
document. -/
def Node.events (setup : Setup) (topLevel : Bool) (n : Node) : List Event :=
  (lowerNode setup { topLevel := topLevel } n).events

/-- The events of the nodes of a block, one after the other. -/
def Block.events (setup : Setup) (b : Block) : List Event :=
  b.nodes.flatMap (Node.events setup false)

/-- A tag that becomes an element: it is allowed, it is no script, and its attributes can all be
read off the tag. -/
def Tag.IsElement (config : Config) (tag : Tag) : Prop :=
  tag.name ∉ config.disallowedTags ∧ tag.name ≠ config.scriptTag ∧ tag.attributeBlocks = []

instance (config : Config) (tag : Tag) : Decidable (tag.IsElement config) :=
  inferInstanceAs (Decidable (_ ∧ _ ∧ _))

/-- The case of a branch. -/
def Node.caseOutput? (setup : Setup) : Node → Option Output
  | .branch mark test body => some (switchCase mark test (body.map (Block.outputs setup)))
  | _ => none

/-! ## Tags -/

section Tags

variable {config : Config} {reader : ScriptReader} {place : Place} {mark : Mark} {tag : Tag}
  {body : Option Block} {contents : Emission (List Item)}

theorem lowerTag_of_disallowed (hd : tag.name ∈ config.disallowedTags) :
    lowerTag (.standard config reader) place mark tag body contents =
      Yield.ofNodes? <$> reject (.disallowedTag tag.name) mark.position := by
  simp [lowerTag, hd]

theorem lowerTag_of_script (hd : tag.name ∉ config.disallowedTags)
    (hs : tag.name = config.scriptTag) :
    lowerTag (.standard config reader) place mark tag body contents =
      Yield.ofNodes? <$> lowerScript (.standard config reader) place mark tag body contents := by
  rw [hs] at hd
  simp [lowerTag, hd, hs]

theorem lowerTag_of_other (hd : tag.name ∉ config.disallowedTags)
    (hs : tag.name ≠ config.scriptTag) :
    lowerTag (.standard config reader) place mark tag body contents =
      Yield.boxed <$> (Yield.ofNode? <$> lowerElement (.standard config reader) mark tag
        contents) := by
  simp [lowerTag, hd, hs, unlessFixed]

theorem lowerElement_of_blocks (h : tag.attributeBlocks ≠ []) :
    lowerElement (.standard config reader) mark tag contents =
      reject .attributeBlocks mark.position := by
  simp [lowerElement, h]

theorem lowerElement_of_empty (h : tag.attributeBlocks = [])
    (hc : Item.misfits contents.value = []) :
    lowerElement (.standard config reader) mark tag contents =
      ⟨some (elementOutput config mark tag (Item.nodes contents.value)), contents.events⟩ := by
  apply Emission.ext
  · simp [lowerElement, h, Emission.solid, hc, elementOutput]
  · simp [lowerElement, h, Emission.solid, hc]

theorem items_lowerScript (setup : Setup) :
    (Yield.ofNodes? (lowerScript setup place mark tag body contents).value).items = [] := by
  unfold lowerScript
  split
  · rfl
  · split
    · rfl
    · split
      · split <;> rfl
      · rfl

theorem items_lowerTag (hc : Item.misfits contents.value = []) :
    (lowerTag (.standard config reader) place mark tag body contents).value.items =
      if tag.IsElement config then
        [.node (elementOutput config mark tag (Item.nodes contents.value))]
      else [] := by
  by_cases hd : tag.name ∈ config.disallowedTags
  · rw [lowerTag_of_disallowed hd, if_neg fun h => h.1 hd]
    rfl
  · by_cases hs : tag.name = config.scriptTag
    · rw [lowerTag_of_script hd hs, if_neg fun h => h.2.1 hs]
      exact items_lowerScript _
    · rw [lowerTag_of_other hd hs]
      by_cases ha : tag.attributeBlocks = []
      · rw [lowerElement_of_empty ha hc, if_pos ⟨hd, hs, ha⟩]
        rfl
      · rw [lowerElement_of_blocks ha, if_neg fun h => ha h.2.2]
        rfl

end Tags

/-! ## Lists and blocks of nodes -/

section Parts

variable (config : Config) (reader : ScriptReader)

/-- A node that is not the document adds the same output wherever it stands: only script depends on
the place, and it adds nothing anywhere. -/
theorem items_lowerNode_inner (topLevel : Bool) (n : Node) :
    (lowerNode (.standard config reader) { topLevel := topLevel } n).value.items =
      (n.outputs (.standard config reader)).map .node := by
  have hplace : (lowerNode (.standard config reader) { topLevel := topLevel } n).value.items =
      (lowerNode (.standard config reader) {} n).value.items := by
    cases n with
    | block b =>
      obtain ⟨mark, nodes⟩ := b
      simp only [lowerNode]
    | tag mark tag body =>
      have hc : Item.misfits (lowerBody (.standard config reader) body).value = [] := by
        rcases body with _ | ⟨mark, nodes⟩
        · simp [lowerBody, Item.misfits]
        · simp only [lowerBody]
          exact misfits_lowerNodes config reader _ nodes
      simp only [lowerNode]
      rw [items_lowerTag hc, items_lowerTag hc]
    | switch mark subject b =>
      obtain ⟨mark', nodes⟩ := b
      simp only [lowerNode]
    | _ => simp only [lowerNode]
  rw [hplace]
  exact (Item.map_node_nodes (Yield.misfits_items (isPlain_lowerNode config reader {} n))).symm

theorem value_lowerNodes (topLevel : Bool) (nodes : List Node) :
    (lowerNodes (.standard config reader) { topLevel := topLevel } nodes).value =
      (nodes.flatMap (Node.outputs (.standard config reader))).map .node := by
  induction nodes with
  | nil => simp [lowerNodes]
  | cons n rest ih =>
    simp only [lowerNodes, Emission.value_bind, Emission.value_pure]
    rw [items_lowerNode_inner, ih, List.flatMap_cons, List.map_append]

/-- What happens along nodes happens at each of them, one after the other. -/
theorem events_lowerNodes (setup : Setup) (topLevel : Bool) (nodes : List Node) :
    (lowerNodes setup { topLevel := topLevel } nodes).events =
      nodes.flatMap (Node.events setup topLevel) := by
  induction nodes with
  | nil => simp [lowerNodes]
  | cons n rest ih =>
    simp only [lowerNodes, Emission.events_bind, Emission.events_pure, List.append_nil]
    rw [ih, List.flatMap_cons, Node.events]

/-- A block yields the outputs of its nodes, and their events happen. -/
theorem lowerBlock_eq (b : Block) :
    lowerBlock (.standard config reader) b =
      ⟨b.outputs (.standard config reader), b.events (.standard config reader)⟩ := by
  obtain ⟨mark, nodes⟩ := b
  apply Emission.ext
  · simp only [lowerBlock, Emission.value_bind, value_lowerNodes, Emission.solid_map_node,
      Emission.value_pure, Block.outputs, Block.nodes]
  · simp only [lowerBlock, Emission.events_bind, value_lowerNodes, Emission.solid_map_node,
      Emission.events_pure, events_lowerNodes, Block.events, Block.nodes, List.append_nil]

theorem lowerBody_eq (body : Option Block) :
    lowerBody (.standard config reader) body =
      ⟨(body.elim [] (Block.outputs (.standard config reader))).map .node,
        body.elim [] (Block.events (.standard config reader))⟩ := by
  rcases body with _ | ⟨mark, nodes⟩
  · simp only [lowerBody]
    rfl
  · simp only [lowerBody]
    exact Emission.ext (value_lowerNodes config reader false nodes)
      (events_lowerNodes _ false nodes)

theorem lowerAlternative_eq (body : Option Block) :
    lowerAlternative (.standard config reader) body =
      ⟨body.map (Block.outputs (.standard config reader)),
        body.elim [] (Block.events (.standard config reader))⟩ := by
  cases body with
  | none => simp only [lowerAlternative]; rfl
  | some b =>
    simp only [lowerAlternative, lowerBlock_eq]
    exact Emission.ext rfl (Emission.events_map _ _)

/-- Only the branches count among the nodes of a case distinction. -/
theorem lowerCases_eq (nodes : List Node) :
    lowerCases (.standard config reader) nodes =
      ⟨nodes.filterMap (Node.caseOutput? (.standard config reader)),
        (nodes.filterMap Node.branchBody?).flatMap (Block.events (.standard config reader))⟩ := by
  induction nodes with
  | nil => simp only [lowerCases]; rfl
  | cons n rest ih =>
    cases n with
    | branch mark test body =>
      simp only [lowerCases, lowerAlternative_eq, ih]
      apply Emission.ext
      · simp [Node.caseOutput?]
      · cases body with
        | none => simp [List.filterMap_cons, Node.branchBody?]
        | some b => simp [Node.branchBody?]
    | _ => simpa only [lowerCases, List.filterMap_cons, Node.caseOutput?, Node.branchBody?] using ih

mutual

/-- What happens in a conditional happens in the blocks of its links. -/
theorem events_lowerConditional :
    (chain : Conditional) → (lowerConditional (.standard config reader) chain).events =
      chain.blocks.flatMap (Block.events (.standard config reader))
  | .mk mark test consequent alternate => by
    simp only [lowerConditional, Emission.events_bind, Emission.events_pure, lowerBlock_eq,
      events_lowerAlternate alternate, Conditional.blocks, List.flatMap_cons, List.append_nil]

theorem events_lowerAlternate :
    (alternate : Option Alternate) →
      (lowerAlternate (.standard config reader) alternate).events =
        (alternateBlocks alternate).flatMap (Block.events (.standard config reader))
  | none => by simp only [lowerAlternate]; rfl
  | some (.block b) => by
    simp only [lowerAlternate, lowerBlock_eq, alternateBlocks, Emission.events_map,
      List.flatMap_cons, List.flatMap_nil, List.append_nil]
  | some (.chain chain) => by
    simp only [lowerAlternate, alternateBlocks]
    exact events_lowerConditional chain

end

end Parts

end Lowering
