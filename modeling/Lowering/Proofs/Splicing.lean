import Lowering.Proofs.Run

/-!
# Concatenated and nested blocks

A block is lowered node by node, so that lowering turns concatenation into concatenation. A block
inside another one adds just what its nodes would add in its place; only directly in the document is
this different, since script is allowed there.

* `Gap`: a place for nodes anywhere inside a node, at any depth;
* `lowerNodes_append`, `lowerNodes_splice`: lists of nodes, put together and spliced into each other;
* `Gap.lowerNode_congr`: nodes that are lowered alike are lowered alike in every gap;
* `lowerDocument_append_and_splice`: the same for documents.
-/

namespace Lowering

/-! ## Lists of nodes -/

section Lists

variable (setup : Setup) (place : Place)

theorem lowerNodes_append (xs ys : List Node) :
    lowerNodes setup place (xs ++ ys) =
      (do
        let first ← lowerNodes setup place xs
        let second ← lowerNodes setup place ys
        pure (first ++ second)) := by
  induction xs with
  | nil => exact Emission.ext (by simp [lowerNodes]) (by simp [lowerNodes])
  | cons n rest ih =>
    rw [List.cons_append, lowerNodes, ih, lowerNodes]
    apply Emission.ext
    · simp
    · simp

/-- Parts of a list that are lowered alike can be exchanged. -/
theorem lowerNodes_congr {ys ys' : List Node}
    (h : lowerNodes setup place ys = lowerNodes setup place ys') (xs zs : List Node) :
    lowerNodes setup place (xs ++ ys ++ zs) = lowerNodes setup place (xs ++ ys' ++ zs) := by
  simp only [lowerNodes_append, h]

theorem lowerNodes_singleton (n : Node) :
    lowerNodes setup place [n] = Yield.items <$> lowerNode setup place n := by
  apply Emission.ext
  · simp [lowerNodes]
  · simp [lowerNodes]

/-- A block that is not directly in the document adds what its nodes add. -/
theorem lowerNodes_splice (mark : Mark) (xs ys zs : List Node) :
    lowerNodes setup {} (xs ++ [.block (.mk mark ys)] ++ zs) =
      lowerNodes setup {} (xs ++ ys ++ zs) := by
  apply lowerNodes_congr
  rw [lowerNodes_singleton, lowerNode]
  apply Emission.ext
  · simp
  · simp

end Lists

/-! ## Gaps -/

/-- A script tag in the primary dialect. Its contents are read as text; every other block is lowered
node by node, if at all. -/
def Tag.readsText (config : Config) (tag : Tag) : Bool :=
  tag.name = config.scriptTag && tag.dialect config = config.primaryDialect

/-- A place for the nodes of one block of a conditional: its consequent, the block it ends with, or a
block of a later link. -/
inductive ChainGap where
  | consequent (mark : Mark) (test : Text) (blockMark : Mark) (alternate : Option Alternate)
  | alternate (mark : Mark) (test : Text) (consequent : Block) (blockMark : Mark)
  | later (mark : Mark) (test : Text) (consequent : Block) (rest : ChainGap)

/-- A place for nodes inside a node: the nodes of one block, at any depth. -/
inductive Gap (config : Config) where
  | block (mark : Mark)
  | tag (mark : Mark) (tag : Tag) (blockMark : Mark) (lowered : tag.readsText config = false)
  | branch (mark : Mark) (subject : Text) (switchMark : Mark) (before : List Node)
    (branchMark : Mark) (test : Text) (blockMark : Mark) (after : List Node)
  | conditional (chain : ChainGap)
  | each (mark : Mark) (loop : Loop) (blockMark : Mark) (alternate : Option Block)
  | eachElse (mark : Mark) (loop : Loop) (body : Block) (blockMark : Mark)
  | inside (outer : Gap config) (before : List Node) (inner : Gap config) (after : List Node)

/-- The conditional with nodes in the gap. -/
def ChainGap.fill : ChainGap → List Node → Conditional
  | .consequent mark test blockMark other, nodes => .mk mark test (.mk blockMark nodes) other
  | .alternate mark test b blockMark, nodes =>
    .mk mark test b (some (.block (.mk blockMark nodes)))
  | .later mark test b rest, nodes => .mk mark test b (some (.chain (rest.fill nodes)))

namespace Gap

variable {config : Config}

/-- The node with nodes in the gap. -/
def fill : Gap config → List Node → Node
  | .block mark, nodes => .block (.mk mark nodes)
  | .tag mark t blockMark _, nodes => .tag mark t (some (.mk blockMark nodes))
  | .branch mark subject switchMark before branchMark test blockMark after, nodes =>
    .switch mark subject
      (.mk switchMark (before ++ .branch branchMark test (some (.mk blockMark nodes)) :: after))
  | .conditional chain, nodes => .conditional (chain.fill nodes)
  | .each mark loop blockMark alternate, nodes => .each mark loop (.mk blockMark nodes) alternate
  | .eachElse mark loop body blockMark, nodes =>
    .each mark loop body (some (.mk blockMark nodes))
  | .inside outer before inner after, nodes => outer.fill (before ++ [inner.fill nodes] ++ after)

/-- Where the nodes in the gap stand, if the whole node stands at a place. -/
def placeOf (place : Place) : Gap config → Place
  | .block _ => { topLevel := place.documentRoot }
  | .inside outer _ inner _ => inner.placeOf (outer.placeOf place)
  | _ => {}

/-- A gap that, in a document, is for the nodes directly in it. -/
def isWhole : Gap config → Bool
  | .block _ => true
  | _ => false

theorem documentRoot_placeOf (place : Place) (gap : Gap config) :
    (gap.placeOf place).documentRoot = false := by
  induction gap generalizing place with
  | inside outer before inner after ihOuter ihInner => exact ihInner _
  | _ => rfl

/-- Unless they are directly in the document, the nodes in a gap stand nowhere special. -/
theorem placeOf_eq {place : Place} {gap : Gap config}
    (h : place.documentRoot = false ∨ gap.isWhole = false) : gap.placeOf place = {} := by
  induction gap generalizing place with
  | block mark =>
    rcases h with h | h
    · rw [placeOf, h]
    · cases h
  | inside outer before inner after ihOuter ihInner =>
    exact ihInner (.inl (documentRoot_placeOf place outer))
  | _ => rfl

end Gap

/-! ## Nodes that are lowered alike -/

section Congruence

variable {setup : Setup} {ys ys' : List Node}

/-- A tag whose contents are not read as text is lowered by its lowered contents. -/
theorem lowerTag_congr {tag : Tag} (h : tag.readsText setup.config = false) (place : Place)
    (mark : Mark) (body body' : Option Block) (contents : Emission (List Item)) :
    lowerTag setup place mark tag body contents = lowerTag setup place mark tag body' contents := by
  unfold lowerTag
  split
  · rfl
  · split
    · rename_i hname
      have hdialect : tag.dialect setup.config ≠ setup.config.primaryDialect := by
        simpa [Tag.readsText, hname] using h
      unfold lowerScript
      rw [Tag.scriptDialect_eq]
      cases tag.scriptProblem? setup.config with
      | some problem => rfl
      | none => simp only [if_neg hdialect]
    · rfl

theorem lowerBlock_congr (h : lowerNodes setup {} ys = lowerNodes setup {} ys') (mark : Mark) :
    lowerBlock setup (.mk mark ys) = lowerBlock setup (.mk mark ys') := by
  rw [lowerBlock, lowerBlock, h]

/-- Whether a case distinction can be lowered depends on the heads of its branches only. -/
theorem caseProblem?_congr (mark : Mark) (test : Text) (body body' : Option Block)
    (before after : List Node) :
    caseProblem? (before ++ .branch mark test body :: after) =
      caseProblem? (before ++ .branch mark test body' :: after) := by
  have hstray : (before ++ .branch mark test body :: after).find? (fun n => !n.isBranch) =
      (before ++ .branch mark test body' :: after).find? (fun n => !n.isBranch) := by
    simp [List.find?_append, Node.isBranch]
  -- The second default branch is reported by its position, which its body does not change.
  have hdefaults :
      ((before ++ .branch mark test body :: after).filter Node.isDefault).map Node.position =
        ((before ++ .branch mark test body' :: after).filter Node.isDefault).map
          Node.position := by
    by_cases h : test = defaultTest
    · simp [Node.isDefault, h, Node.position, Node.mark]
    · simp [Node.isDefault, h]
  have hsecond : ∀ nodes : List Node,
      ((nodes.filter Node.isDefault)[1]?.map fun second =>
        (Problem.secondDefault, second.position)) =
        (((nodes.filter Node.isDefault).map Node.position)[1]?.map
          fun position => (Problem.secondDefault, position)) := by
    intro nodes
    rw [List.getElem?_map, Option.map_map]
    rfl
  unfold caseProblem?
  rw [hstray, hsecond, hsecond, hdefaults]

theorem lowerSwitch_congr {nodes nodes' : List Node} (h : caseProblem? nodes = caseProblem? nodes')
    (mark : Mark) (subject : Text) (cases : Emission (List Output)) :
    lowerSwitch mark subject nodes cases = lowerSwitch mark subject nodes' cases := by
  cases hp : caseProblem? nodes with
  | some found => rw [lowerSwitch_of_problem hp, lowerSwitch_of_problem (h ▸ hp)]
  | none =>
    rw [lowerSwitch_of_isCase (caseProblem?_eq_none_iff.mp hp),
      lowerSwitch_of_isCase (caseProblem?_eq_none_iff.mp (h ▸ hp))]

theorem lowerCases_congr (h : lowerNodes setup {} ys = lowerNodes setup {} ys') (branchMark : Mark)
    (test : Text) (blockMark : Mark) (before after : List Node) :
    lowerCases setup (before ++ .branch branchMark test (some (.mk blockMark ys)) :: after) =
      lowerCases setup
        (before ++ .branch branchMark test (some (.mk blockMark ys')) :: after) := by
  induction before with
  | nil => simp only [List.nil_append, lowerCases, lowerAlternative, lowerBlock_congr h]
  | cons n rest ih => cases n <;> simp only [List.cons_append, lowerCases, ih]

theorem ChainGap.lowerConditional_congr (h : lowerNodes setup {} ys = lowerNodes setup {} ys')
    (gap : ChainGap) :
    lowerConditional setup (gap.fill ys) = lowerConditional setup (gap.fill ys') := by
  induction gap with
  | consequent mark test blockMark alternate =>
    simp only [fill, lowerConditional, lowerBlock_congr h]
  | alternate mark test consequent blockMark =>
    simp only [fill, lowerConditional, lowerAlternate, lowerBlock_congr h]
  | later mark test consequent rest ih => simp only [fill, lowerConditional, lowerAlternate, ih]

/-- Nodes that are lowered alike at the place of a gap are lowered alike in the gap. -/
theorem Gap.lowerNode_congr (gap : Gap setup.config) {place : Place}
    (h : lowerNodes setup (gap.placeOf place) ys = lowerNodes setup (gap.placeOf place) ys') :
    lowerNode setup place (gap.fill ys) = lowerNode setup place (gap.fill ys') := by
  induction gap generalizing place ys ys' with
  | block mark =>
    rw [placeOf] at h
    rw [fill, fill, lowerNode, lowerNode, h]
  | tag mark tag blockMark lowered =>
    have hbody : lowerBody setup (some (.mk blockMark ys)) =
        lowerBody setup (some (.mk blockMark ys')) := by rw [lowerBody, lowerBody]; exact h
    rw [fill, fill, lowerNode, lowerNode, hbody]
    exact lowerTag_congr lowered place mark _ _ _
  | branch mark subject switchMark before branchMark test blockMark after =>
    rw [fill, fill, lowerNode, lowerNode, lowerCases_congr h,
      lowerSwitch_congr (caseProblem?_congr branchMark test _ (some (.mk blockMark ys')) before
        after)]
  | conditional chain => rw [fill, fill, lowerNode, lowerNode, chain.lowerConditional_congr h]
  | each mark loop blockMark alternate => rw [fill, fill, lowerNode, lowerNode, lowerBlock_congr h]
  | eachElse mark loop body blockMark =>
    rw [fill, fill, lowerNode, lowerNode, lowerAlternative, lowerAlternative, lowerBlock_congr h]
  | inside outer before inner after ihOuter ihInner =>
    -- The inner gap is filled first: its node is one of those in the outer gap, where it stands at
    -- the place that the outer gap gives it.
    apply ihOuter
    apply lowerNodes_congr
    rw [lowerNodes_singleton, ihInner h, lowerNodes_singleton]

end Congruence

/-! ## Documents -/

/-- The result with the lists of two results, one after the other. -/
def Report.append (first second : Report) : Report where
  statements := first.statements ++ second.statements
  render := first.render ++ second.render
  diagnostics := first.diagnostics ++ second.diagnostics

section Documents

variable (config : Config) (reader : ScriptReader)

/-- The result of a document of which the first fault is known. -/
theorem lowerDocument_eq (root : Node) :
    (lowerDocument (.standard config reader) root).2 =
      match (Event.faults (documentEvents (.standard config reader) root)).head? with
      | none => .ok (documentReport (.standard config reader) root)
      | some fault => .error (.fault fault) := by
  cases h : Event.faults (documentEvents (.standard config reader) root) with
  | nil => exact lowerDocument_of_faults_nil config reader h
  | cons fault rest => exact lowerDocument_of_fault config reader h

theorem documentReport_append (mark first second : Mark) (xs ys : List Node) :
    documentReport (.standard config reader) (.block (.mk mark (xs ++ ys))) =
      (documentReport (.standard config reader) (.block (.mk first xs))).append
        (documentReport (.standard config reader) (.block (.mk second ys))) := by
  simp only [documentReport, Report.append, documentHoisted, Node.topLevel, Block.nodes,
    documentEvents, Node.outputs_block, Block.outputs, List.flatMap_append,
    Event.diagnostics_append]

/-- A list of nodes as a document has the results of its parts, one after the other; the first fault
of a part is that of the whole. -/
theorem lowerDocument_append (mark first second : Mark) (xs ys : List Node) :
    (lowerDocument (.standard config reader) (.block (.mk mark (xs ++ ys)))).2 =
      (do
        let front ← (lowerDocument (.standard config reader) (.block (.mk first xs))).2
        let back ← (lowerDocument (.standard config reader) (.block (.mk second ys))).2
        pure (front.append back)) := by
  have hfaults : Event.faults
      (documentEvents (.standard config reader) (.block (.mk mark (xs ++ ys)))) =
        Event.faults (documentEvents (.standard config reader) (.block (.mk first xs))) ++
          Event.faults (documentEvents (.standard config reader) (.block (.mk second ys))) := by
    simp only [documentEvents, Block.nodes, List.flatMap_append, Event.faults_append]
  simp only [lowerDocument_eq, hfaults, List.head?_append]
  -- A fault in the front ends both runs; one in the back is only reached if there is none.
  cases (Event.faults (documentEvents (.standard config reader) (.block (.mk first xs)))).head? with
  | some fault => rfl
  | none =>
    cases (Event.faults
        (documentEvents (.standard config reader) (.block (.mk second ys)))).head? with
    | some fault => rfl
    | none =>
      rw [documentReport_append config reader mark first second]
      rfl

end Documents

/-- A block at any place is lowered to what its parts are lowered to, one after the other. -/
theorem lowerNode_block_append (setup : Setup) (place : Place) (mark first second : Mark)
    (xs ys : List Node) :
    lowerNode setup place (.block (.mk mark (xs ++ ys))) =
      (do
        let front ← lowerNode setup place (.block (.mk first xs))
        let back ← lowerNode setup place (.block (.mk second ys))
        pure (.several (front.items ++ back.items))) := by
  simp only [lowerNode, lowerNodes_append]
  apply Emission.ext
  · simp
  · simp

/-- A block in a gap that is not directly in the document can be replaced by its nodes. -/
theorem Gap.lowerNode_splice {setup : Setup} (gap : Gap setup.config) {place : Place}
    (h : place.documentRoot = false ∨ gap.isWhole = false) (mark : Mark) (xs ys zs : List Node) :
    lowerNode setup place (gap.fill (xs ++ [.block (.mk mark ys)] ++ zs)) =
      lowerNode setup place (gap.fill (xs ++ ys ++ zs)) := by
  apply gap.lowerNode_congr
  rw [Gap.placeOf_eq h]
  exact lowerNodes_splice setup mark xs ys zs

/-- Lowering turns the concatenation of blocks into that of their results, in documents and
everywhere inside them. A block directly inside a block that is not the document can be replaced by
its nodes, whatever these are and however deep it stands: the run is the same, event by event. -/
theorem lowerDocument_append_and_splice :
    (∀ (config : Config) (reader : ScriptReader) (mark first second : Mark) (xs ys : List Node),
      (lowerDocument (.standard config reader) (.block (.mk mark (xs ++ ys)))).2 =
        (do
          let front ← (lowerDocument (.standard config reader) (.block (.mk first xs))).2
          let back ← (lowerDocument (.standard config reader) (.block (.mk second ys))).2
          pure (front.append back))) ∧
    (∀ (setup : Setup) (place : Place) (mark first second : Mark) (xs ys : List Node),
      lowerNode setup place (.block (.mk mark (xs ++ ys))) =
        (do
          let front ← lowerNode setup place (.block (.mk first xs))
          let back ← lowerNode setup place (.block (.mk second ys))
          pure (.several (front.items ++ back.items)))) ∧
    (∀ (setup : Setup) (gap : Gap setup.config) (place : Place),
      place.documentRoot = false ∨ gap.isWhole = false →
      ∀ (mark : Mark) (xs ys zs : List Node),
        lowerNode setup place (gap.fill (xs ++ [.block (.mk mark ys)] ++ zs)) =
          lowerNode setup place (gap.fill (xs ++ ys ++ zs))) ∧
    ∀ (setup : Setup) (gap : Gap setup.config), gap.isWhole = false →
      ∀ (mark : Mark) (xs ys zs : List Node),
        lowerDocument setup (gap.fill (xs ++ [.block (.mk mark ys)] ++ zs)) =
          lowerDocument setup (gap.fill (xs ++ ys ++ zs)) := by
  refine ⟨lowerDocument_append, lowerNode_block_append, fun _ gap _ h => gap.lowerNode_splice h, ?_⟩
  intro setup gap h mark xs ys zs
  unfold lowerDocument
  rw [gap.lowerNode_splice (.inr h)]

/-- A gap in the body of a tag of a document, after a text. -/
def bodyGap : Gap {} :=
  .inside (.block {}) [.text {} "a"] (.tag {} { name := "div" } {} (by decide)) []

/-- A block with a script tag, which is refused there, between two texts in the body of a tag. -/
theorem lowerDocument_bodyGap :
    bodyGap.isWhole = false ∧
      lowerDocument (.standard {} (Grammar.reader fun _ _ => {})) (bodyGap.fill
          ([.text {} "b"] ++ [.block (.mk {} [.tag {} { name := "script" } none])] ++
            [.text {} "c"])) =
        lowerDocument (.standard {} (Grammar.reader fun _ _ => {})) (bodyGap.fill
          ([.text {} "b"] ++ [.tag {} { name := "script" } none] ++ [.text {} "c"])) :=
  ⟨rfl, lowerDocument_append_and_splice.2.2.2 (.standard {} (Grammar.reader fun _ _ => {})) bodyGap
    rfl {} [.text {} "b"] [.tag {} { name := "script" } none] [.text {} "c"]⟩

end Lowering
