import Lowering.Proofs.Sessions
import Lowering.Proofs.Shape
import Lowering.Proofs.Silence

/-!
# What the place of a node decides

Whether a node stands directly in the document decides only what becomes of script, and whether a
block is the document only which of its nodes stand directly in it. So the same block as the document
and inside one has the same output, and what happens on the way differs in its script tags alone. A
script tag directly in the document is read, though, and if that ends in a fault then there is no
output at all.

* `Settings.ofPlace`, `Session.lowerAt`: the pass for nodes, run at a place;
* `lowerNode_of_not_script`: a node that is no script does the same at all places;
* `reachedNodes`, `lowerAt_block`: a block leaves what its nodes leave, up to the first fault;
* `lowerAt_documentRoot_iff`: a block as the document and inside one.
-/

namespace Lowering

/-! ## Runs at a place -/

/-- The settings of the pass for nodes at a place. -/
def Settings.ofPlace (place : Place) : Settings where
  values := [("is_top_level", .bool place.topLevel), ("is_document_root", .bool place.documentRoot)]

theorem Settings.onlyPlace_ofPlace (place : Place) : (ofPlace place).OnlyPlace := by
  intro part htop hroot
  simp [value?, ofPlace, List.lookup_cons, beq_eq_false_iff_ne.mpr htop,
    beq_eq_false_iff_ne.mpr hroot]

/-- A run at a place lowers its node there. -/
theorem Pass.run_ofPlace (place : Place) (setup : Setup) (n : Node) :
    Pass.node.run (.ofPlace place) setup n = kept setup n <$> lowerNode setup place n :=
  run_of_onlyPlace (Settings.onlyPlace_ofPlace place) rfl setup n

/-- Runs the pass for nodes at a place, in a session. -/
def Session.lowerAt (session : Session) (setup : Setup) (place : Place) (n : Node) :
    Session × Except Fault (Option Yield) :=
  session.perform (Pass.node.run (.ofPlace place) setup n)

theorem Emission.settle_snd {α : Type} (x : Emission α) :
    x.settle.2 = match (Event.faults x.events).head? with
      | none => .ok x.value
      | some fault => .error fault := by
  cases h : Event.faults x.events with
  | nil => rw [settle_of_faults_nil h]; rfl
  | cons fault rest => exact settle_of_fault h

theorem Emission.settle_fst {α : Type} (x : Emission α) : x.settle.1 = (split x.events).1 := by
  unfold settle
  rcases split x.events with ⟨events, _ | fault⟩ <;> rfl

namespace Session

variable (session : Session) (setup : Setup) (place : Place) (n : Node)

theorem lowerAt_fst : (session.lowerAt setup place n).1 =
    session.record (Emission.split (lowerNode setup place n).events).1 := by
  rw [lowerAt, Pass.run_ofPlace, perform, ← Emission.events_map (Pass.kept setup n),
    ← Emission.settle_fst]

theorem lowerAt_snd : (session.lowerAt setup place n).2 =
    match (Event.faults (lowerNode setup place n).events).head? with
    | none => .ok (Pass.kept setup n (lowerNode setup place n).value)
    | some fault => .error fault := by
  rw [lowerAt, Pass.run_ofPlace, perform, Emission.settle_snd, Emission.events_map,
    Emission.value_map]

variable {session setup place n}

theorem lowerAt_eq_ok_iff {y : Option Yield} : (session.lowerAt setup place n).2 = .ok y ↔
    Event.faults (lowerNode setup place n).events = [] ∧
      y = Pass.kept setup n (lowerNode setup place n).value := by
  rw [lowerAt_snd]
  cases Event.faults (lowerNode setup place n).events with
  | nil => simp [eq_comm]
  | cons fault rest => simp

theorem exists_lowerAt_iff : (∃ y, (session.lowerAt setup place n).2 = .ok y) ↔
    Event.faults (lowerNode setup place n).events = [] := by
  simp [lowerAt_eq_ok_iff]

end Session

/-! ## Nodes at different places -/

section Places

variable {setup : Setup} {n : Node}

/-- A node that is no script does the same whether or not it stands directly in the document. -/
theorem lowerNode_of_not_script (h : n.isScript setup.config = false)
    (topLevel topLevel' documentRoot : Bool) :
    lowerNode setup ⟨topLevel, documentRoot⟩ n = lowerNode setup ⟨topLevel', documentRoot⟩ n := by
  cases n with
  | block b =>
    rw [lowerNode_block, lowerNode_block]
  | tag mark tag body =>
    simp only [lowerNode, lowerTag]
    split
    · rfl
    · rename_i hd
      have hs : tag.name ≠ setup.config.scriptTag := by
        intro hs
        have hscript : (Node.tag mark tag body).isScript setup.config = true :=
          Node.isScript_tag.mpr ⟨by simpa using hd, hs⟩
        rw [h] at hscript
        cases hscript
      rw [if_neg hs, if_neg hs]
  | switch mark subject b =>
    obtain ⟨blockMark, nodes⟩ := b
    simp only [lowerNode]
  | _ => simp only [lowerNode]

theorem lowerNode_of_script (h : n.isScript setup.config = true) (place : Place) :
    ∃ mark tag body, n = .tag mark tag body ∧ lowerNode setup place n =
      Yield.ofNodes? <$> lowerScript setup place mark tag body (lowerBody setup body) := by
  cases n with
  | tag mark tag body =>
    obtain ⟨hallowed, hname⟩ := Node.isScript_tag.mp h
    have hd : ¬setup.config.disallowedTags.contains tag.name = true := by simpa using hallowed
    exact ⟨mark, tag, body, rfl, by rw [lowerNode, lowerTag, if_neg hd, if_pos hname]⟩
  | _ => cases h

/-- Nothing is left of script at its place. -/
theorem items_of_script (h : n.isScript setup.config = true) (place : Place) :
    (lowerNode setup place n).value.items = [] := by
  obtain ⟨mark, tag, body, -, hlower⟩ := lowerNode_of_script h place
  rw [hlower, Emission.value_map]
  exact items_lowerScript setup

/-- Script inside a document is reported and not looked into. -/
theorem faults_of_inner_script (h : n.isScript setup.config = true) (documentRoot : Bool) :
    Event.faults (lowerNode setup ⟨false, documentRoot⟩ n).events = [] := by
  obtain ⟨mark, tag, body, -, hlower⟩ := lowerNode_of_script h ⟨false, documentRoot⟩
  rw [hlower, Emission.events_map, lowerScript]
  cases scriptDialect setup.config tag.attributes <;> rfl

theorem items_lowerNode_place (topLevel topLevel' documentRoot : Bool) :
    (lowerNode setup ⟨topLevel, documentRoot⟩ n).value.items =
      (lowerNode setup ⟨topLevel', documentRoot⟩ n).value.items := by
  cases h : n.isScript setup.config with
  | false => rw [lowerNode_of_not_script h topLevel topLevel']
  | true => rw [items_of_script h, items_of_script h]

end Places

/-! ## Blocks -/

section Blocks

variable (setup : Setup)

theorem value_lowerNodes_eq (place : Place) (nodes : List Node) :
    (lowerNodes setup place nodes).value =
      nodes.flatMap fun n => (lowerNode setup place n).value.items := by
  induction nodes with
  | nil => simp [lowerNodes]
  | cons n rest ih => simp [lowerNodes, ih]

/-- The output of a block does not depend on its place. -/
theorem value_lowerNode_block (place place' : Place) (b : Block) :
    (lowerNode setup place (.block b)).value = (lowerNode setup place' (.block b)).value := by
  rw [lowerNode_block, lowerNode_block, Emission.value_map, Emission.value_map,
    value_lowerNodes_eq, value_lowerNodes_eq]
  congr 2
  funext n
  exact items_lowerNode_place _ _ false

theorem events_lowerNode_block (place : Place) (b : Block) :
    (lowerNode setup place (.block b)).events =
      b.nodes.flatMap (Node.events setup place.documentRoot) := by
  rw [lowerNode_block, Emission.events_map, events_lowerNodes]

/-- The nodes of a list that a run comes to: those up to the first one that ends in a fault. -/
def reachedNodes (setup : Setup) (topLevel : Bool) : List Node → List Node
  | [] => []
  | n :: rest =>
    n :: if (Event.faults (n.events setup topLevel)).isEmpty then reachedNodes setup topLevel rest
      else []

theorem reachedNodes_of_faults_nil {topLevel : Bool} {nodes : List Node}
    (h : Event.faults (nodes.flatMap (Node.events setup topLevel)) = []) :
    reachedNodes setup topLevel nodes = nodes := by
  induction nodes with
  | nil => rfl
  | cons n rest ih =>
    rw [List.flatMap_cons, Event.faults_append, List.append_eq_nil_iff] at h
    rw [reachedNodes, h.1, ih h.2]
    rfl

/-- The events of a list that count are those of the nodes that are reached. -/
theorem split_flatMap_events (topLevel : Bool) (nodes : List Node) :
    (Emission.split (nodes.flatMap (Node.events setup topLevel))).1 =
      (reachedNodes setup topLevel nodes).flatMap fun n =>
        (Emission.split (n.events setup topLevel)).1 := by
  induction nodes with
  | nil => rfl
  | cons n rest ih =>
    rw [List.flatMap_cons, Emission.split_append, reachedNodes, List.flatMap_cons]
    cases h : Event.faults (n.events setup topLevel) with
    | nil =>
      rw [Emission.split_of_faults_nil h]
      simp only [ih]
      rfl
    | cons fault more =>
      have hsplit := Emission.split_snd (n.events setup topLevel)
      rw [h, List.head?_cons] at hsplit
      rcases hs : Emission.split (n.events setup topLevel) with ⟨events, found⟩
      rw [hs] at hsplit
      cases hsplit
      simp

/-- A block leaves in a session what each of its nodes leaves by itself, one after the other, up to
the first one that ends in a fault. -/
theorem lowerAt_block (session : Session) (place : Place) (b : Block) :
    (session.lowerAt setup place (.block b)).1 =
      { diagnostics := session.diagnostics ++
          (reachedNodes setup place.documentRoot b.nodes).flatMap fun n =>
            (Session.lowerAt {} setup { topLevel := place.documentRoot } n).1.diagnostics
        statements := session.statements ++
          (reachedNodes setup place.documentRoot b.nodes).flatMap fun n =>
            (Session.lowerAt {} setup { topLevel := place.documentRoot } n).1.statements } := by
  simp only [Session.lowerAt_fst, events_lowerNode_block, split_flatMap_events, Session.record,
    Event.diagnostics_flatMap, Event.statements_flatMap, List.nil_append]
  rfl

end Blocks

/-- The script tags among nodes have a run that ends without a fault directly in the document. -/
def ScriptsEnd (setup : Setup) (nodes : List Node) : Prop :=
  ∀ n ∈ nodes, n.isScript setup.config = true →
    ∃ y, (Session.lowerAt {} setup { topLevel := true } n).2 = .ok y

theorem scriptsEnd_iff {setup : Setup} {nodes : List Node} :
    ScriptsEnd setup nodes ↔ ∀ n ∈ nodes, n.isScript setup.config = true →
      Event.faults (n.events setup true) = [] := by
  simp only [ScriptsEnd, Session.exists_lowerAt_iff]
  rfl

/-- If its script tags end without a fault, a block meets the same faults as the document and inside
one. -/
theorem faults_block_of_scriptsEnd {setup : Setup} {b : Block} (h : ScriptsEnd setup b.nodes)
    (topLevel : Bool) :
    Event.faults (lowerNode setup ⟨topLevel, true⟩ (.block b)).events =
      Event.faults (lowerNode setup ⟨topLevel, false⟩ (.block b)).events := by
  rw [events_lowerNode_block, events_lowerNode_block, Event.faults_flatMap, Event.faults_flatMap]
  apply List.flatMap_congr
  intro n hn
  cases hs : n.isScript setup.config with
  | false =>
    have hsame := lowerNode_of_not_script hs true false false
    rw [Node.events, Node.events, hsame]
  | true => rw [scriptsEnd_iff.mp h n hn hs, Node.events, faults_of_inner_script hs]

/-- A block that has an output as the document has script tags that end without a fault. -/
theorem scriptsEnd_of_ok {setup : Setup} {session : Session} {topLevel : Bool} {b : Block}
    {y : Option Yield} (h : (session.lowerAt setup ⟨topLevel, true⟩ (.block b)).2 = .ok y) :
    ScriptsEnd setup b.nodes := by
  have hfaults := (Session.lowerAt_eq_ok_iff.mp h).1
  rw [events_lowerNode_block, Event.faults_flatMap, List.flatMap_eq_nil_iff] at hfaults
  exact scriptsEnd_iff.mpr fun n hn _ => hfaults n hn

theorem lowerAt_snd_of_scriptsEnd {setup : Setup} {b : Block} (h : ScriptsEnd setup b.nodes)
    (session : Session) (topLevel : Bool) :
    (session.lowerAt setup ⟨topLevel, true⟩ (.block b)).2 =
      (session.lowerAt setup ⟨topLevel, false⟩ (.block b)).2 := by
  rw [Session.lowerAt_snd, Session.lowerAt_snd, faults_block_of_scriptsEnd h,
    value_lowerNode_block setup ⟨topLevel, true⟩ ⟨topLevel, false⟩]

/-- With nothing replaced, the script tags end without a fault if their scripts can be read. -/
theorem scriptsEnd_standard_iff (config : Config) (grammar : Grammar) (b : Block) :
    ScriptsEnd (.standard config grammar.reader) b.nodes ↔
      ReadableDocument config grammar (.block b) := by
  rw [← faults_document_iff, documentEvents, Event.faults_flatMap, List.flatMap_eq_nil_iff,
    scriptsEnd_iff]
  constructor
  · intro h n hn
    cases hs : n.isScript config with
    | false => exact faults_of_not_script hs
    | true => exact h n hn hs
  · intro h n hn _
    exact h n hn

/-- A block as the document and inside one. If the script tags directly in it end without a fault,
then both runs end alike, with the same output or with the same fault; and where there is an output
inside, there is one as the document in no other case. In both runs the block leaves what its nodes
leave each by itself, one after the other, up to the first one that ends in a fault. Here only script
tags depend on the run: no other node does anything else directly in the document. Where a setup
fixes the output of a construct, that is one output for all its nodes, which comes about without an
event: nothing is said of constructs that are replaced by what looks at its node or place. -/
theorem lowerAt_documentRoot_iff (setup : Setup) (session : Session) (topLevel : Bool) (b : Block) :
    (ScriptsEnd setup b.nodes →
      (session.lowerAt setup ⟨topLevel, true⟩ (.block b)).2 =
        (session.lowerAt setup ⟨topLevel, false⟩ (.block b)).2) ∧
    (∀ y, (session.lowerAt setup ⟨topLevel, false⟩ (.block b)).2 = .ok y →
      ((session.lowerAt setup ⟨topLevel, true⟩ (.block b)).2 = .ok y ↔
        ScriptsEnd setup b.nodes)) ∧
    (∀ y, (session.lowerAt setup ⟨topLevel, true⟩ (.block b)).2 = .ok y →
      (session.lowerAt setup ⟨topLevel, false⟩ (.block b)).2 = .ok y) ∧
    (∀ documentRoot,
      (session.lowerAt setup ⟨topLevel, documentRoot⟩ (.block b)).1 =
        { diagnostics := session.diagnostics ++
            (reachedNodes setup documentRoot b.nodes).flatMap fun n =>
              (Session.lowerAt {} setup { topLevel := documentRoot } n).1.diagnostics
          statements := session.statements ++
            (reachedNodes setup documentRoot b.nodes).flatMap fun n =>
              (Session.lowerAt {} setup { topLevel := documentRoot } n).1.statements } ∧
      ∀ y, (session.lowerAt setup ⟨topLevel, documentRoot⟩ (.block b)).2 = .ok y →
        reachedNodes setup documentRoot b.nodes = b.nodes) ∧
    (∀ n : Node, n.isScript setup.config = false → ∀ documentRoot,
      session.lowerAt setup ⟨true, documentRoot⟩ n =
        session.lowerAt setup ⟨false, documentRoot⟩ n) ∧
    ∀ (config : Config) (grammar : Grammar), ScriptsEnd (.standard config grammar.reader) b.nodes ↔
      ReadableDocument config grammar (.block b) := by
  refine ⟨fun h => lowerAt_snd_of_scriptsEnd h session topLevel, ?_, ?_, ?_, ?_,
    fun config grammar => scriptsEnd_standard_iff config grammar b⟩
  · intro y hinside
    constructor
    · exact scriptsEnd_of_ok
    · intro h
      rw [lowerAt_snd_of_scriptsEnd h, hinside]
  · intro y hdocument
    rw [← lowerAt_snd_of_scriptsEnd (scriptsEnd_of_ok hdocument), hdocument]
  · intro documentRoot
    refine ⟨lowerAt_block setup session ⟨topLevel, documentRoot⟩ b, ?_⟩
    intro y h
    have hfaults := (Session.lowerAt_eq_ok_iff.mp h).1
    rw [events_lowerNode_block] at hfaults
    exact reachedNodes_of_faults_nil setup hfaults
  · intro n h documentRoot
    unfold Session.lowerAt
    rw [Pass.run_ofPlace, Pass.run_ofPlace, lowerNode_of_not_script h true false]

/-- A block of a script tag and a comment. -/
def commentedScript (source : Text) : Block :=
  .mk {} [.tag {} { name := "script" } (some (.mk {} [.text {} source])), .other {} "Comment"]

/-- A script with one statement, in front of a comment: the script tag ends without a fault, and the
output is the same as the document and inside one. -/
theorem lowerAt_documentRoot_statement :
    ScriptsEnd { reader := Grammar.reader fun _ _ => statementTree 2 }
        (commentedScript "x;").nodes ∧
      (Session.lowerAt {} { reader := Grammar.reader fun _ _ => statementTree 2 } ⟨false, true⟩
          (.block (commentedScript "x;"))).2 =
        (Session.lowerAt {} { reader := Grammar.reader fun _ _ => statementTree 2 } ⟨false, false⟩
          (.block (commentedScript "x;"))).2 := by
  have hend : ScriptsEnd { reader := Grammar.reader fun _ _ => statementTree 2 }
      (commentedScript "x;").nodes := by
    rw [scriptsEnd_iff]
    intro n hn _
    rcases List.mem_pair.mp hn with rfl | rfl
    · rfl
    · rfl
  exact ⟨hend, (lowerAt_documentRoot_iff _ {} false (commentedScript "x;")).1 hend⟩

/-- A script with a surrogate in front of a comment. Inside a document there is an output, and the
script and the comment are reported; as the document there is none, and nothing is. -/
theorem lowerAt_documentRoot_surrogate :
    (Session.lowerAt {} { reader := Grammar.reader fun _ _ => {} } ⟨false, false⟩
        (.block (commentedScript [.surrogate 61]))) =
      ({ diagnostics := [Problem.nestedScript.diagnosticAt {},
          (Problem.unknownKind "Comment").diagnosticAt {}] }, .ok (some (.several []))) ∧
      (Session.lowerAt {} { reader := Grammar.reader fun _ _ => {} } ⟨false, true⟩
        (.block (commentedScript [.surrogate 61]))) =
      ({}, .error (.script (.unencodable ⟨0, 61, 1⟩))) :=
  ⟨rfl, rfl⟩

end Lowering
