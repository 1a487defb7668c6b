import Lowering.Proofs.Equations

/-!
# Runs over documents

Only the script tags directly in a document can hoist statements or end a run; everything else
leaves diagnostics at most. So the result of a document can be told from its direct children.

* `diagnosed_of_mem_events`: inside a document there are diagnostics only;
* `documentEvents`, `documentHoisted`: the events and the hoisted statements of a document;
* `lowerDocument_eq_ok_iff`: a document has a result exactly if its events hold no fault, and the
  result is made of the outputs, the hoisted statements and the diagnostics.
-/

namespace Lowering

/-! ## Inside a document -/

theorem Event.statements_eq_nil {events : List Event} (h : ∀ e ∈ events, ∃ d, e = .diagnosed d) :
    statements events = [] := by
  rw [statements, List.flatMap_eq_nil_iff]
  intro e he
  obtain ⟨d, rfl⟩ := h e he
  rfl

/-- Diagnostics are no faults. -/
theorem Event.faults_eq_nil {events : List Event} (h : ∀ e ∈ events, ∃ d, e = .diagnosed d) :
    faults events = [] := by
  rw [faults, List.filterMap_eq_nil_iff]
  intro e he
  obtain ⟨d, rfl⟩ := h e he
  rfl

section Inner

variable (config : Config) (reader : ScriptReader)

/-- Inside a document nothing is hoisted and no run ends. -/
theorem diagnosed_of_mem_events (n : Node) :
    ∀ e ∈ n.events (.standard config reader) false, ∃ d, e = .diagnosed d := by
  induction n using Node.induct with
  | step n ih =>
    intro e he
    cases h : n.refusal? config with
    | some refusal =>
      rw [Node.events_of_refusal h] at he
      exact ⟨_, List.mem_singleton.mp he⟩
    | none =>
      rw [Node.events_of_accepted h] at he
      obtain ⟨b, hb, he⟩ := List.mem_flatMap.mp he
      obtain ⟨m, hm, he⟩ := List.mem_flatMap.mp he
      exact ih b hb m hm e he

/-- Inside of a document only diagnostics come about. -/
theorem diagnosed_of_mem_blockEvents (b : Block) :
    ∀ e ∈ b.events (.standard config reader), ∃ d, e = .diagnosed d := by
  intro e he
  obtain ⟨m, hm, he⟩ := List.mem_flatMap.mp he
  exact diagnosed_of_mem_events config reader m e he

theorem diagnosed_of_mem_bodyEvents (body : Option Block) :
    ∀ e ∈ body.elim [] (Block.events (.standard config reader)), ∃ d, e = .diagnosed d := by
  cases body with
  | none => exact List.forall_mem_nil _
  | some b => exact diagnosed_of_mem_blockEvents config reader b

end Inner

/-! ## Hoisted statements -/

/-- The statements that a node directly in the document hoists. -/
def Node.hoisted (setup : Setup) (n : Node) : List Output :=
  Item.nodes (Event.statements (n.events setup true))

section Hoisted

variable {config : Config} {reader : ScriptReader}

theorem statements_of_not_script {n : Node} (h : n.isScript config = false) :
    Event.statements (n.events (.standard config reader) true) = [] := by
  rw [Node.events_of_not_script h]
  exact Event.statements_eq_nil (diagnosed_of_mem_events config reader n)

theorem faults_of_not_script {n : Node} (h : n.isScript config = false) :
    Event.faults (n.events (.standard config reader) true) = [] := by
  rw [Node.events_of_not_script h]
  exact Event.faults_eq_nil (diagnosed_of_mem_events config reader n)

theorem Node.events_script_of_problem {mark : Mark} {tag : Tag} {body : Option Block}
    (h : (Node.tag mark tag body).isScript config = true) {problem : Problem}
    (hp : tag.scriptProblem? config = some problem) (topLevel : Bool) :
    (Node.tag mark tag body).events (.standard config reader) topLevel =
      [.diagnosed (problem.diagnosticAt mark.position)] := by
  rw [events_script h, events_lowerScript_of_problem hp]

theorem Node.events_script_primary {mark : Mark} {tag : Tag} {body : Option Block}
    (h : (Node.tag mark tag body).isScript config = true)
    (hp : tag.scriptProblem? config = none) (hd : tag.dialect config = config.primaryDialect) :
    (Node.tag mark tag body).events (.standard config reader) true =
      (if hasMarkup body then
          [.diagnosed (Problem.scriptWithMarkup.diagnosticAt mark.position)] else []) ++
        (lowerScriptText (.standard config reader) mark body).events ++
        [.hoisted config.primaryDialect
          (((lowerScriptText (.standard config reader) mark body).value.getD []).map .node)] := by
  rw [events_script h, events_lowerScript_primary hp hd rfl]

theorem Node.events_script_template {mark : Mark} {tag : Tag} {body : Option Block}
    (h : (Node.tag mark tag body).isScript config = true)
    (hp : tag.scriptProblem? config = none) (hd : tag.dialect config ≠ config.primaryDialect) :
    (Node.tag mark tag body).events (.standard config reader) true =
      body.elim [] (Block.events (.standard config reader)) ++
        [.hoisted (tag.dialect config)
          ((body.elim [] (Block.outputs (.standard config reader))).map .node)] := by
  rw [events_script h, events_lowerScript_template hp hd rfl, lowerBody_eq, Item.present_map_node]

theorem statements_placeStatements (origins : Origins) (statements : List Statement) :
    Event.statements (placeStatements origins statements).events = [] := by
  induction statements with
  | nil => rfl
  | cons s rest ih =>
    simp only [placeStatements]
    split
    · rfl
    · simpa using ih

theorem statements_lowerScriptText (setup : Setup) (mark : Mark) (body : Option Block) :
    Event.statements (lowerScriptText setup mark body).events = [] := by
  unfold lowerScriptText
  dsimp only
  split
  · rfl
  · split
    · rfl
    · split <;> rfl
    · simpa [Event.statements, Emission.emit] using statements_placeStatements _ _

/-- Nothing but nodes is ever hoisted. -/
theorem statements_events (n : Node) :
    Event.statements (n.events (.standard config reader) true) =
      (n.hoisted (.standard config reader)).map .node := by
  refine (Item.map_node_nodes ?_).symm
  cases h : n.isScript config with
  | false => rw [statements_of_not_script h]; rfl
  | true =>
    cases n with
    | tag mark tag body =>
      cases hp : tag.scriptProblem? config with
      | some problem => rw [Node.events_script_of_problem h hp]; rfl
      | none =>
        by_cases hd : tag.dialect config = config.primaryDialect
        · rw [Node.events_script_primary h hp hd]
          simp only [Event.statements_append, statements_lowerScriptText]
          split <;> simp [Event.statements]
        · rw [Node.events_script_template h hp hd, Event.statements_append,
            Event.statements_eq_nil (diagnosed_of_mem_bodyEvents config reader body)]
          simp [Event.statements]
    | _ => cases h

end Hoisted

/-! ## Documents -/

/-- The events of a document. -/
def documentEvents (setup : Setup) : Node → List Event
  | .block b => b.nodes.flatMap (Node.events setup true)
  | n => n.events setup false

/-- The nodes directly in a document; there are none if it is not a block. -/
def Node.topLevel : Node → List Node
  | .block b => b.nodes
  | _ => []

/-- The statements that a document hoists: those of the nodes directly in it. -/
def documentHoisted (setup : Setup) (root : Node) : List Output :=
  root.topLevel.flatMap (Node.hoisted setup)

section Documents

variable (config : Config) (reader : ScriptReader)

theorem events_document (root : Node) :
    (lowerNode (.standard config reader) { documentRoot := true } root).events =
      documentEvents (.standard config reader) root := by
  cases root with
  | block b =>
    obtain ⟨mark, nodes⟩ := b
    simp only [lowerNode, Emission.events_map, events_lowerNodes, documentEvents, Block.nodes]
  | tag mark tag body => simp only [lowerNode, lowerTag, lowerScript, documentEvents, Node.events]
  | switch mark subject b =>
    obtain ⟨blockMark, nodes⟩ := b
    simp only [lowerNode, documentEvents, Node.events]
  | _ => simp only [lowerNode, documentEvents, Node.events]

theorem items_document (root : Node) :
    (lowerNode (.standard config reader) { documentRoot := true } root).value.items =
      (root.outputs (.standard config reader)).map .node := by
  cases root with
  | block b =>
    rw [Node.outputs_block]
    obtain ⟨mark, nodes⟩ := b
    simp only [lowerNode, Emission.value_map, value_lowerNodes, Yield.items_several,
      Block.outputs, Block.nodes]
  | tag mark tag body =>
    simp only [lowerNode]
    rw [Node.outputs_tag, lowerBody_eq, items_lowerTag (Item.misfits_map_node _),
      Item.nodes_map_node]
    split <;> rfl
  | switch mark subject b =>
    obtain ⟨blockMark, nodes⟩ := b
    rw [← items_lowerNode_inner config reader false]
    simp only [lowerNode]
  | _ =>
    rw [← items_lowerNode_inner config reader false]
    simp only [lowerNode]

theorem statements_documentEvents (root : Node) :
    Event.statements (documentEvents (.standard config reader) root) =
      (documentHoisted (.standard config reader) root).map .node := by
  cases root with
  | block b =>
    simp only [documentEvents, documentHoisted, Node.topLevel, Event.statements_flatMap,
      statements_events, List.map_flatMap]
  | _ => exact Event.statements_eq_nil (diagnosed_of_mem_events config reader _)

/-- The result of a document whose run does not end in a fault. -/
def documentReport (setup : Setup) (root : Node) : Report where
  statements := documentHoisted setup root
  render := root.outputs setup
  diagnostics := Event.diagnostics (documentEvents setup root)

theorem lowerDocument_of_faults_nil {root : Node}
    (h : Event.faults (documentEvents (.standard config reader) root) = []) :
    (lowerDocument (.standard config reader) root).2 =
      .ok (documentReport (.standard config reader) root) := by
  have hrun := events_document config reader root
  have hsettle := Emission.settle_of_faults_nil (hrun ▸ h)
  have hrender := Yield.render_of_isPlain
    (isPlain_lowerNode config reader { documentRoot := true } root)
  rw [items_document] at hrender
  have hall : Event.statements (documentEvents (.standard config reader) root) ++
      (root.outputs (.standard config reader)).map .node =
        (documentHoisted (.standard config reader) root ++
          root.outputs (.standard config reader)).map .node := by
    rw [statements_documentEvents, List.map_append]
  have hofItems : (lowerDocument (.standard config reader) root).2 =
      Report.ofItems (Event.statements (documentEvents (.standard config reader) root))
        ((root.outputs (.standard config reader)).map .node)
        (Event.diagnostics (documentEvents (.standard config reader) root)) := by
    unfold lowerDocument
    dsimp only
    rw [hsettle, ← hrun]
    change Except.bind (Except.mapError _ (Yield.render _)) _ = _
    rw [hrender]
    rfl
  rw [hofItems]
  simp only [Report.ofItems, hall, Item.misfits_map_node]
  rw [statements_documentEvents, Item.nodes_map_node, Item.nodes_map_node]
  rfl

theorem lowerDocument_of_fault {root : Node} {fault : Fault} {rest : List Fault}
    (h : Event.faults (documentEvents (.standard config reader) root) = fault :: rest) :
    (lowerDocument (.standard config reader) root).2 = .error (.fault fault) := by
  have hsettle := Emission.settle_of_fault (events_document config reader root ▸ h)
  unfold lowerDocument
  dsimp only
  rw [hsettle]
  rfl

/-- A document has a result exactly if its events hold no fault. -/
theorem lowerDocument_eq_ok_iff {root : Node} {report : Report} :
    (lowerDocument (.standard config reader) root).2 = .ok report ↔
      Event.faults (documentEvents (.standard config reader) root) = [] ∧
        report = documentReport (.standard config reader) root := by
  cases h : Event.faults (documentEvents (.standard config reader) root) with
  | nil =>
    rw [lowerDocument_of_faults_nil config reader h]
    simp [eq_comm]
  | cons fault rest =>
    rw [lowerDocument_of_fault config reader h]
    simp

end Documents

end Lowering
