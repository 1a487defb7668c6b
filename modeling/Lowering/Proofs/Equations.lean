import Lowering.Proofs.Standard

/-!
# Equations of lowering

With standard passes each kind of node has an equation for its output and one for its events, in
terms of the blocks inside it. A node that is refused has one event and no output; the blocks
inside it are not lowered.

* `IsCase`, `caseProblem?`: whether a case distinction can be lowered, and why not;
* `Node.outputs_tag`, `Node.outputs_switch`, …: the output of each kind of node;
* `Node.refusal?`: why a node inside a document is refused;
* `Node.events_of_refusal`, `Node.events_of_accepted`: the events of a node that is refused, and of
  one that is not.
-/

namespace Lowering

/-! ## Case distinctions -/

namespace Node

/-- A branch of a case distinction. -/
def isBranch : Node → Bool
  | .branch _ _ _ => true
  | _ => false

/-- A default branch. -/
def isDefault : Node → Bool
  | .branch _ test _ => test == defaultTest
  | _ => false

end Node

/-- The nodes of a case distinction that can be lowered: branches, with at most one default. -/
def IsCase (nodes : List Node) : Prop :=
  (∀ n ∈ nodes, n.isBranch = true) ∧ nodes.countP Node.isDefault ≤ 1

instance (nodes : List Node) : Decidable (IsCase nodes) :=
  inferInstanceAs (Decidable (_ ∧ _))

/-- What is wrong with the nodes of a case distinction, and where: the first one that is no branch,
or else the second default branch. -/
def caseProblem? (nodes : List Node) : Option (Problem × Position) :=
  match nodes.find? fun n => !n.isBranch with
  | some stray => some (.strayInCase stray.kind, stray.position)
  | none => (nodes.filter Node.isDefault)[1]?.map fun second => (.secondDefault, second.position)

theorem firstStray_eq_find? (nodes : List Node) :
    firstStray nodes = nodes.find? fun n => !n.isBranch := by
  induction nodes with
  | nil => rfl
  | cons n rest ih => cases n <;> simp [firstStray, Node.isBranch, ih]

theorem defaultBranches_eq_filter (nodes : List Node) :
    defaultBranches nodes = nodes.filter Node.isDefault := by
  unfold defaultBranches
  congr 1

theorem caseProblem?_eq_none_iff {nodes : List Node} :
    caseProblem? nodes = none ↔ IsCase nodes := by
  unfold caseProblem? IsCase
  rw [List.countP_eq_length_filter]
  cases h : nodes.find? fun n => !n.isBranch with
  | some stray =>
    have hs := List.find?_some h
    have hm := List.mem_of_find?_eq_some h
    simp only [reduceCtorEq, false_iff, not_and]
    intro hall
    rw [hall stray hm] at hs
    cases hs
  | none =>
    have hall : ∀ n ∈ nodes, n.isBranch = true := by simpa using h
    simp only [Option.map_eq_none_iff, List.getElem?_eq_none_iff]
    exact ⟨fun hd => ⟨hall, hd⟩, fun hd => hd.2⟩

theorem lowerSwitch_of_problem {mark : Mark} {subject : Text} {nodes : List Node}
    {cases : Emission (List Output)} {problem : Problem} {position : Position}
    (h : caseProblem? nodes = some (problem, position)) :
    lowerSwitch mark subject nodes cases = reject problem position := by
  unfold caseProblem? at h
  unfold lowerSwitch
  rw [firstStray_eq_find?, defaultBranches_eq_filter]
  cases hs : nodes.find? fun n => !n.isBranch with
  | some stray =>
    rw [hs] at h
    cases h
    rfl
  | none =>
    rw [hs] at h
    match hd : nodes.filter Node.isDefault with
    | [] => simp [hd] at h
    | [_] => simp [hd] at h
    | _ :: second :: _ =>
      simp only [hd, List.getElem?_cons_succ, List.getElem?_cons_zero, Option.map_some,
        Option.some.injEq, Prod.mk.injEq] at h
      rw [← h.1, ← h.2]

theorem lowerSwitch_of_isCase {mark : Mark} {subject : Text} {nodes : List Node}
    {cases : Emission (List Output)} (h : IsCase nodes) :
    lowerSwitch mark subject nodes cases =
      ⟨some (switchOutput mark subject cases.value), cases.events⟩ := by
  have hs : firstStray nodes = none := by
    rw [firstStray_eq_find?, List.find?_eq_none]
    intro n hn
    simp [h.1 n hn]
  have hd := h.2
  rw [List.countP_eq_length_filter, ← defaultBranches_eq_filter] at hd
  unfold lowerSwitch
  rw [hs]
  match hb : defaultBranches nodes with
  | [] => exact Emission.ext rfl (List.append_nil _)
  | [_] => exact Emission.ext rfl (List.append_nil _)
  | _ :: _ :: _ => simp [hb] at hd

/-! ## Outputs -/

/-- The output of code. -/
def codeOutput (mark : Mark) (code : Code) : Output where
  kind := if code.buffer then .expression else .statement
  value := some (Text.trim code.value)
  location := mark.position

section Outputs

variable (config : Config) (reader : ScriptReader)

theorem value_lowerConditional (mark : Mark) (test : Text) (consequent : Block)
    (alternate : Option Alternate) :
    (lowerConditional (.standard config reader) (.mk mark test consequent alternate)).value =
      conditionalOutput mark test (consequent.outputs (.standard config reader))
        (lowerAlternate (.standard config reader) alternate).value := by
  simp only [lowerConditional, lowerBlock_eq, Emission.value_bind, Emission.value_pure]

theorem value_lowerAlternate_none :
    (lowerAlternate (.standard config reader) none).value = .null := by
  simp only [lowerAlternate, Emission.value_pure]

theorem value_lowerAlternate_block (b : Block) :
    (lowerAlternate (.standard config reader) (some (.block b))).value =
      .fragment (b.outputs (.standard config reader)) := by
  simp only [lowerAlternate, lowerBlock_eq, Emission.value_map]

theorem value_lowerAlternate_chain (chain : Conditional) :
    (lowerAlternate (.standard config reader) (some (.chain chain))).value =
      (lowerConditional (.standard config reader) chain).value := by
  simp only [lowerAlternate]

namespace Node

theorem outputs_block (b : Block) :
    (Node.block b).outputs (.standard config reader) = b.outputs (.standard config reader) := by
  obtain ⟨mark, nodes⟩ := b
  simp only [outputs, lowerNode, Emission.value_map, value_lowerNodes, Yield.items_several,
    Item.nodes_map_node, Block.outputs, Block.nodes]

theorem outputs_tag (mark : Mark) (tag : Tag) (body : Option Block) :
    (Node.tag mark tag body).outputs (.standard config reader) =
      if tag.IsElement config then
        [elementOutput config mark tag (body.elim [] (Block.outputs (.standard config reader)))]
      else [] := by
  simp only [outputs, lowerNode]
  rw [lowerBody_eq, items_lowerTag (Item.misfits_map_node _), Item.nodes_map_node]
  split <;> rfl

theorem outputs_code (mark : Mark) (code : Code) (body : Option Block) :
    (Node.code mark code body).outputs (.standard config reader) =
      if body = none ∧ Text.trim code.value ≠ [] then [codeOutput mark code] else [] := by
  simp only [outputs, lowerNode]
  cases body with
  | some b => rfl
  | none =>
    by_cases h : Text.trim code.value = []
    · rw [if_neg fun hc => hc.2 h]
      simp [lowerCode, codeOutputs, h, unlessFixed, Yield.ofNodes?, Item.nodes]
    · rw [if_pos ⟨rfl, h⟩]
      simp [lowerCode, codeOutputs, h, unlessFixed, Yield.ofNodes?, Item.nodes, Item.node?,
        Yield.ofNodes, codeOutput]

theorem outputs_text (mark : Mark) (value : Text) :
    (Node.text mark value).outputs (.standard config reader) = [.text value mark.position] := by
  simp only [outputs, lowerNode, Emission.value_pure, Yield.items_ofNodes, Item.nodes_map_node]

theorem outputs_branch (mark : Mark) (test : Text) (body : Option Block) :
    (Node.branch mark test body).outputs (.standard config reader) = [] := by
  simp only [outputs, lowerNode, Emission.value_map, value_reject]
  rfl

theorem outputs_switch (mark blockMark : Mark) (subject : Text) (nodes : List Node) :
    (Node.switch mark subject (.mk blockMark nodes)).outputs (.standard config reader) =
      if IsCase nodes then
        [switchOutput mark subject (nodes.filterMap (caseOutput? (.standard config reader)))]
      else [] := by
  simp only [outputs, lowerNode, lowerCases_eq]
  split
  · rename_i h
    rw [lowerSwitch_of_isCase h]
    rfl
  · rename_i h
    rw [← caseProblem?_eq_none_iff] at h
    obtain ⟨⟨problem, position⟩, hp⟩ := Option.ne_none_iff_exists'.mp h
    rw [lowerSwitch_of_problem hp]
    rfl

theorem outputs_conditional (chain : Conditional) :
    (Node.conditional chain).outputs (.standard config reader) =
      [(lowerConditional (.standard config reader) chain).value] := by
  simp only [outputs, lowerNode]
  rfl

theorem outputs_each (mark : Mark) (loop : Loop) (body : Block) (alternate : Option Block) :
    (Node.each mark loop body alternate).outputs (.standard config reader) =
      [iterationOutput mark loop (body.outputs (.standard config reader))
        (alternate.map (Block.outputs (.standard config reader)))] := by
  simp only [outputs, lowerNode, lowerBlock_eq, lowerAlternative_eq]
  rfl

theorem outputs_other (mark : Mark) (kind : Text) :
    (Node.other mark kind).outputs (.standard config reader) = [] := by
  simp only [outputs, lowerNode, Emission.value_map, value_reject]
  rfl

end Node

end Outputs

/-! ## Script tags -/

namespace Tag

/-- A script whose source is not in the document. -/
def isExternal (tag : Tag) : Bool :=
  tag.attributes.any fun a => a.name == sourceAttribute

/-- The dialect that a script tag asks for: that of its first `type` attribute, without quotes, and
the primary one if there is none. -/
def dialect (config : Config) (tag : Tag) : Text :=
  match tag.attributes.find? fun a => a.name == dialectAttribute with
  | none => config.primaryDialect
  | some a => Literal.stripQuotes a.value.spelling

/-- Why a script tag is refused, wherever it stands. -/
def scriptProblem? (config : Config) (tag : Tag) : Option Problem :=
  if tag.isExternal then some .externalScript
  else if tag.dialect config = config.primaryDialect ∨
      tag.dialect config = config.templateDialect then none
  else some (.unknownDialect config.primaryDialect config.templateDialect)

theorem scriptDialect_eq (config : Config) (tag : Tag) :
    scriptDialect config tag.attributes =
      match tag.scriptProblem? config with
      | some problem => .error problem
      | none => .ok (tag.dialect config) := by
  unfold scriptDialect scriptProblem? isExternal dialect
  split
  · rfl
  · cases tag.attributes.find? fun a => a.name == dialectAttribute with
    | none => simp
    | some a =>
      by_cases h : Literal.stripQuotes a.value.spelling = config.primaryDialect ∨
          Literal.stripQuotes a.value.spelling = config.templateDialect
      · simp only [if_pos h]
      · simp only [if_neg h]

end Tag

section Scripts

variable {config : Config} {reader : ScriptReader} {place : Place} {mark : Mark} {tag : Tag}
  {body : Option Block} {contents : Emission (List Item)}

theorem events_lowerScript_of_problem {problem : Problem}
    (h : tag.scriptProblem? config = some problem) :
    (lowerScript (.standard config reader) place mark tag body contents).events =
      [.diagnosed (problem.diagnosticAt mark.position)] := by
  simp [lowerScript, Tag.scriptDialect_eq, h]

theorem events_lowerScript_inner (h : tag.scriptProblem? config = none)
    (hp : place.topLevel = false) :
    (lowerScript (.standard config reader) place mark tag body contents).events =
      [.diagnosed (Problem.nestedScript.diagnosticAt mark.position)] := by
  simp [lowerScript, Tag.scriptDialect_eq, h, hp]

theorem events_lowerScript_primary (h : tag.scriptProblem? config = none)
    (hd : tag.dialect config = config.primaryDialect) (hp : place.topLevel = true) :
    (lowerScript (.standard config reader) place mark tag body contents).events =
      (if hasMarkup body then
          [.diagnosed (Problem.scriptWithMarkup.diagnosticAt mark.position)] else []) ++
        (lowerScriptText (.standard config reader) mark body).events ++
        [.hoisted config.primaryDialect
          (((lowerScriptText (.standard config reader) mark body).value.getD []).map .node)] := by
  by_cases hm : hasMarkup body = true
  · simp [lowerScript, Tag.scriptDialect_eq, h, hd, hp, hm, primaryStatements, hoist,
      Emission.emit]
  · simp [lowerScript, Tag.scriptDialect_eq, h, hd, hp, hm, primaryStatements, hoist,
      Emission.emit]

theorem events_lowerScript_template (h : tag.scriptProblem? config = none)
    (hd : tag.dialect config ≠ config.primaryDialect) (hp : place.topLevel = true) :
    (lowerScript (.standard config reader) place mark tag body contents).events =
      contents.events ++ [.hoisted (tag.dialect config) (Item.present contents.value)] := by
  simp [lowerScript, Tag.scriptDialect_eq, h, hd, hp, hoist, Emission.emit]

end Scripts

/-! ## Events -/

namespace Node

/-- A tag that holds script. -/
def isScript (config : Config) : Node → Bool
  | .tag _ t _ => t.name ∉ config.disallowedTags && t.name == config.scriptTag
  | _ => false

theorem isScript_tag {config : Config} {mark : Mark} {tag : Tag} {body : Option Block} :
    (Node.tag mark tag body).isScript config = true ↔
      tag.name ∉ config.disallowedTags ∧ tag.name = config.scriptTag := by
  simp [isScript]

/-- Why a node inside a document is refused, and where the problem is reported. -/
def refusal? (config : Config) : Node → Option (Problem × Position)
  | .tag mark t _ =>
    if t.name ∈ config.disallowedTags then some (.disallowedTag t.name, mark.position)
    else if t.name = config.scriptTag then
      some ((t.scriptProblem? config).getD .nestedScript, mark.position)
    else if t.attributeBlocks = [] then none
    else some (.attributeBlocks, mark.position)
  | .code mark _ body => if body = none then none else some (.codeBlock, mark.position)
  | .branch mark _ _ => some (.unknownKind NodeKind.branch.name, mark.position)
  | .switch _ _ b => caseProblem? b.nodes
  | .other mark kind => some (.unknownKind kind, mark.position)
  | .block _ | .text _ _ | .conditional _ | .each _ _ _ _ => none

theorem refusal?_tag_eq_none_iff {config : Config} {mark : Mark} {tag : Tag}
    {body : Option Block} : (Node.tag mark tag body).refusal? config = none ↔
      tag.IsElement config := by
  simp only [refusal?, Tag.IsElement]
  split
  · rename_i hd
    exact iff_of_false (Option.some_ne_none _) fun h => h.1 hd
  · rename_i hd
    split
    · rename_i hs
      exact iff_of_false (Option.some_ne_none _) fun h => h.2.1 hs
    · rename_i hs
      split
      · rename_i ha
        exact ⟨fun _ => ⟨hd, hs, ha⟩, fun _ => rfl⟩
      · rename_i ha
        exact iff_of_false (Option.some_ne_none _) fun h => ha h.2.2

section Events

variable {config : Config} {reader : ScriptReader}

/-- A node that is no script does the same directly in the document and inside it. -/
theorem events_of_not_script {n : Node} (h : n.isScript config = false) (topLevel : Bool) :
    n.events (.standard config reader) topLevel = n.events (.standard config reader) false := by
  simp only [events]
  cases n with
  | block b =>
    obtain ⟨mark, nodes⟩ := b
    simp only [lowerNode]
  | tag mark tag body =>
    simp only [lowerNode]
    by_cases hd : tag.name ∈ config.disallowedTags
    · rw [lowerTag_of_disallowed hd, lowerTag_of_disallowed hd]
    · have hs : tag.name ≠ config.scriptTag := by simpa [isScript, hd] using h
      rw [lowerTag_of_other hd hs, lowerTag_of_other hd hs]
  | switch mark subject b =>
    obtain ⟨blockMark, nodes⟩ := b
    simp only [lowerNode]
  | _ => simp only [lowerNode]

theorem events_script {mark : Mark} {tag : Tag} {body : Option Block}
    (h : (Node.tag mark tag body).isScript config = true) (topLevel : Bool) :
    (Node.tag mark tag body).events (.standard config reader) topLevel =
      (lowerScript (.standard config reader) { topLevel := topLevel } mark tag body
        (lowerBody (.standard config reader) body)).events := by
  rw [isScript_tag] at h
  simp only [events, lowerNode]
  rw [lowerTag_of_script h.1 h.2, Emission.events_map]

/-- A script inside a document is refused, for what is wrong with the tag or else for its place. -/
theorem events_script_inner {mark : Mark} {tag : Tag} {body : Option Block}
    (h : (Node.tag mark tag body).isScript config = true) :
    (Node.tag mark tag body).events (.standard config reader) false =
      [.diagnosed (((tag.scriptProblem? config).getD .nestedScript).diagnosticAt
        mark.position)] := by
  rw [events_script h]
  cases hp : tag.scriptProblem? config with
  | some problem => exact events_lowerScript_of_problem hp
  | none => exact events_lowerScript_inner hp rfl

/-- At an element nothing happens but in its body. -/
theorem events_tag {mark : Mark} {tag : Tag} {body : Option Block}
    (h : tag.IsElement config) :
    (Node.tag mark tag body).events (.standard config reader) false =
      body.toList.flatMap (Block.events (.standard config reader)) := by
  simp only [events, lowerNode]
  rw [lowerTag_of_other h.1 h.2.1, lowerBody_eq,
    lowerElement_of_empty h.2.2 (Item.misfits_map_node _)]
  cases body <;> simp

/-- At a case distinction nothing happens but in its branches. -/
theorem events_switch {mark blockMark : Mark} {subject : Text} {nodes : List Node}
    (h : IsCase nodes) :
    (Node.switch mark subject (.mk blockMark nodes)).events (.standard config reader) false =
      (nodes.filterMap branchBody?).flatMap (Block.events (.standard config reader)) := by
  simp only [events, lowerNode, lowerCases_eq]
  rw [lowerSwitch_of_isCase h]
  simp [unlessFixed]

/-- At an iteration nothing happens but in its blocks. -/
theorem events_each (mark : Mark) (loop : Loop) (body : Block) (alternate : Option Block) :
    (Node.each mark loop body alternate).events (.standard config reader) false =
      (body :: alternate.toList).flatMap (Block.events (.standard config reader)) := by
  simp only [events, lowerNode, lowerEach, lowerBlock_eq, lowerAlternative_eq]
  cases alternate <;> simp [unlessFixed]

/-- A refused node reports one problem, and the blocks inside it are not lowered. -/
theorem events_of_refusal {n : Node} {problem : Problem} {position : Position}
    (h : n.refusal? config = some (problem, position)) :
    n.events (.standard config reader) false =
      [.diagnosed (problem.diagnosticAt position)] := by
  cases n with
  | tag mark tag body =>
    by_cases hd : tag.name ∈ config.disallowedTags
    · simp only [refusal?, if_pos hd, Option.some.injEq, Prod.mk.injEq] at h
      simp only [events, lowerNode]
      rw [lowerTag_of_disallowed hd, ← h.1, ← h.2]
      rfl
    · by_cases hs : tag.name = config.scriptTag
      · simp only [refusal?, if_neg hd, if_pos hs, Option.some.injEq, Prod.mk.injEq] at h
        rw [events_script_inner (isScript_tag.mpr ⟨hd, hs⟩), h.1, h.2]
      · by_cases ha : tag.attributeBlocks = []
        · simp [refusal?, hd, hs, ha] at h
        · simp only [refusal?, if_neg hd, if_neg hs, if_neg ha, Option.some.injEq,
            Prod.mk.injEq] at h
          simp only [events, lowerNode]
          rw [lowerTag_of_other hd hs, lowerElement_of_blocks ha, ← h.1, ← h.2]
          rfl
  | code mark code body =>
    cases body with
    | none => simp [refusal?] at h
    | some b =>
      simp only [refusal?, reduceCtorEq, if_false, Option.some.injEq, Prod.mk.injEq] at h
      rw [← h.1, ← h.2]
      simp only [events, lowerNode]
      rfl
  | branch mark test body =>
    simp only [refusal?, Option.some.injEq, Prod.mk.injEq] at h
    rw [← h.1, ← h.2]
    simp only [events, lowerNode, Emission.events_map, events_reject]
  | switch mark subject b =>
    obtain ⟨blockMark, nodes⟩ := b
    have hp : caseProblem? nodes = some (problem, position) := h
    simp only [events, lowerNode]
    rw [lowerSwitch_of_problem hp]
    rfl
  | other mark kind =>
    simp only [refusal?, Option.some.injEq, Prod.mk.injEq] at h
    rw [← h.1, ← h.2]
    simp only [events, lowerNode, Emission.events_map, events_reject]
  | block _ => cases h
  | text _ _ => cases h
  | conditional _ => cases h
  | each _ _ _ _ => cases h

/-- A node that is not refused does what the blocks inside it do. -/
theorem events_of_accepted {n : Node} (h : n.refusal? config = none) :
    n.events (.standard config reader) false =
      n.blocks.flatMap (Block.events (.standard config reader)) := by
  cases n with
  | block b =>
    obtain ⟨mark, nodes⟩ := b
    simp [events, lowerNode, events_lowerNodes, blocks, Block.events, Block.nodes]
  | tag mark tag body => exact events_tag (refusal?_tag_eq_none_iff.mp h)
  | code mark code body =>
    cases body with
    | some b => simp [refusal?] at h
    | none => simp [events, lowerNode, lowerCode, unlessFixed, blocks]
  | text mark value => simp [events, lowerNode, blocks]
  | switch mark subject b =>
    obtain ⟨blockMark, nodes⟩ := b
    exact events_switch (caseProblem?_eq_none_iff.mp h)
  | conditional chain =>
    simp [events, lowerNode, unlessFixed, events_lowerConditional, blocks]
  | each mark loop body alternate => exact events_each mark loop body alternate
  | branch _ _ _ => cases h
  | other _ _ => cases h

end Events

end Node

end Lowering
