import Lowering.Proofs.Hoisting

/-!
# The shape of output trees

Rendering relies on the shape of the nodes it meets: a conditional is taken apart into two children,
an iteration into one or two. Lowering produces no other shapes, so that its results can always be
rendered.

* `Output.IsShaped`: a node has children of the right number and kinds;
* `Output.WellFormed`: a list that may stand among children, all of whose nodes are shaped;
* `wellFormed_outputs`, `wellFormed_hoist`: lowering yields well-formed lists;
* `Output.exists_render`: a shaped tree can be rendered;
* `lowerDocument_ok_iff_no_surrogate`: along trees that fit, a document has a result exactly if there
  is no surrogate in its scripts. The result is well formed, and it can be dumped exactly if the
  positions of its diagnostics can be written.
-/

namespace Lowering

namespace Output

/-- A node that may stand by itself: in the result, in an element or in a fragment. -/
def IsMember (node : Output) : Prop :=
  node.kind ≠ .fragment ∧ node.kind ≠ .null ∧ node.kind ≠ .switchCase

instance (node : Output) : Decidable node.IsMember :=
  inferInstanceAs (Decidable (_ ∧ _ ∧ _))

/-- A node whose children have the right number and kinds. -/
def IsShaped (node : Output) : Prop :=
  match node.kind with
  | .element | .fragment => ∀ child ∈ node.children, child.IsMember
  | .conditional => ∃ consequent alternate, node.children = [consequent, alternate] ∧
      consequent.kind = .fragment ∧ alternate.kind ∈ [.fragment, .conditional, .null]
  | .iteration => node.children.length ∈ [1, 2] ∧ node.params.length ∈ [1, 2] ∧
      ∀ child ∈ node.children, child.kind = .fragment
  | .switch => (∀ child ∈ node.children, child.kind = .switchCase) ∧
      node.children.countP (fun child => child.value.isNone) ≤ 1
  | .switchCase => node.children.length ≤ 1 ∧ ∀ child ∈ node.children, child.kind = .fragment
  | .text | .expression | .statement | .null => node.children = []

/-- A forest all of whose nodes are shaped. -/
def AllShaped (nodes : List Output) : Prop :=
  ∀ node ∈ walk nodes, node.IsShaped

/-- A list of nodes that may stand by themselves, shaped throughout. -/
def WellFormed (nodes : List Output) : Prop :=
  (∀ node ∈ nodes, node.IsMember) ∧ AllShaped nodes

theorem allShaped_nil : AllShaped [] :=
  List.forall_mem_nil _

theorem allShaped_cons {node : Output} {rest : List Output} :
    AllShaped (node :: rest) ↔ node.IsShaped ∧ AllShaped node.children ∧ AllShaped rest :=
  forall_mem_walk_cons

theorem allShaped_singleton {node : Output} :
    AllShaped [node] ↔ node.IsShaped ∧ AllShaped node.children := by
  rw [allShaped_cons, and_iff_left allShaped_nil]

theorem wellFormed_nil : WellFormed [] :=
  ⟨List.forall_mem_nil _, allShaped_nil⟩

theorem wellFormed_singleton {node : Output} :
    WellFormed [node] ↔ node.IsMember ∧ AllShaped [node] := by
  simp only [WellFormed, List.mem_singleton, forall_eq]

theorem wellFormed_append {xs ys : List Output} (hx : WellFormed xs) (hy : WellFormed ys) :
    WellFormed (xs ++ ys) := by
  exact ⟨List.forall_mem_append.mpr ⟨hx.1, hy.1⟩, forall_mem_walk_append.mpr ⟨hx.2, hy.2⟩⟩

theorem wellFormed_flatMap {α : Type} {f : α → List Output} {xs : List α}
    (h : ∀ x ∈ xs, WellFormed (f x)) : WellFormed (xs.flatMap f) := by
  induction xs with
  | nil => exact wellFormed_nil
  | cons x rest ih =>
    rw [List.forall_mem_cons] at h
    rw [List.flatMap_cons]
    exact wellFormed_append h.1 (ih h.2)

/-- A list of members without children is well formed, whatever its length. -/
theorem wellFormed_of_leaves {nodes : List Output}
    (h : ∀ node ∈ nodes, node.kind ∈ [.text, .expression, .statement] ∧ node.children = []) :
    WellFormed nodes := by
  rw [← List.flatMap_singleton' nodes]
  refine wellFormed_flatMap fun node hn => ?_
  obtain ⟨hk, hc⟩ := h node hn
  rw [wellFormed_singleton, allShaped_singleton, hc]
  simp only [List.mem_cons, List.not_mem_nil, or_false] at hk
  rcases hk with hk | hk | hk <;> simp [IsMember, IsShaped, hk, hc, allShaped_nil]

theorem allShaped_fragment {children : List Output} (h : WellFormed children) :
    AllShaped [fragment children] :=
  allShaped_singleton.mpr h

end Output

/-! ## The outputs of constructs -/

section Constructs

theorem wellFormed_elementOutput (config : Config) (mark : Mark) (tag : Tag)
    {children : List Output} (h : Output.WellFormed children) :
    Output.WellFormed [elementOutput config mark tag children] := by
  rw [Output.wellFormed_singleton, Output.allShaped_singleton]
  exact ⟨by simp [Output.IsMember, elementOutput], h⟩

theorem allShaped_conditionalOutput (mark : Mark) (test : Text) {consequent : List Output}
    {alternate : Output} (hc : Output.WellFormed consequent)
    (hk : alternate.kind ∈ [.fragment, .conditional, .null]) (ha : Output.AllShaped [alternate]) :
    Output.AllShaped [conditionalOutput mark test consequent alternate] := by
  rw [Output.allShaped_singleton]
  refine ⟨⟨_, _, rfl, rfl, hk⟩, ?_⟩
  exact Output.allShaped_cons.mpr ⟨hc.1, hc.2, ha⟩

theorem length_params (loop : Loop) : loop.params.length ∈ [1, 2] := by
  unfold Loop.params
  split
  · simp
  · split <;> simp

theorem wellFormed_iterationOutput (mark : Mark) (loop : Loop) {body : List Output}
    {alternate : Option (List Output)} (hb : Output.WellFormed body)
    (ha : ∀ children ∈ alternate, Output.WellFormed children) :
    Output.WellFormed [iterationOutput mark loop body alternate] := by
  rw [Output.wellFormed_singleton, Output.allShaped_singleton]
  have hmember : (iterationOutput mark loop body alternate).IsMember := by
    simp [Output.IsMember, iterationOutput]
  cases alternate with
  | none =>
    refine ⟨hmember, ⟨List.mem_cons_self, length_params loop, ?_⟩, ?_⟩
    · simp [iterationOutput, Output.fragment]
    · exact Output.allShaped_fragment hb
  | some children =>
    refine ⟨hmember, ⟨List.mem_cons_of_mem _ List.mem_cons_self, length_params loop, ?_⟩, ?_⟩
    · simp [iterationOutput, Output.fragment]
    · exact Output.allShaped_cons.mpr
        ⟨hb.1, hb.2, Output.allShaped_fragment (ha children rfl)⟩

theorem allShaped_switchCase (mark : Mark) (test : Text) {children : Option (List Output)}
    (h : ∀ list ∈ children, Output.WellFormed list) :
    Output.AllShaped [switchCase mark test children] := by
  rw [Output.allShaped_singleton]
  cases children with
  | none => exact ⟨⟨Nat.zero_le 1, List.forall_mem_nil _⟩, Output.allShaped_nil⟩
  | some list =>
    refine ⟨⟨Nat.le_refl 1, ?_⟩, Output.allShaped_fragment (h list rfl)⟩
    simp [switchCase, Output.fragment]

theorem wellFormed_switchOutput (mark : Mark) (subject : Text) {cases : List Output}
    (hk : ∀ node ∈ cases, node.kind = .switchCase)
    (hd : cases.countP (fun node => node.value.isNone) ≤ 1) (hs : Output.AllShaped cases) :
    Output.WellFormed [switchOutput mark subject cases] := by
  rw [Output.wellFormed_singleton, Output.allShaped_singleton]
  exact ⟨by simp [Output.IsMember, switchOutput], ⟨hk, hd⟩, hs⟩

end Constructs

/-! ## Lowering yields well-formed lists -/

section Nodes

variable {config : Config} {reader : ScriptReader}

theorem wellFormed_bodyOutputs {body : Option Block}
    (h : ∀ b ∈ body.toList, Output.WellFormed (b.outputs (.standard config reader))) :
    Output.WellFormed (body.elim [] (Block.outputs (.standard config reader))) := by
  cases body with
  | none => exact Output.wellFormed_nil
  | some b => exact h b (by simp)

theorem wellFormed_of_mem_bodyOutputs {body : Option Block}
    (h : ∀ b ∈ body.toList, Output.WellFormed (b.outputs (.standard config reader))) :
    ∀ children ∈ body.map (Block.outputs (.standard config reader)),
      Output.WellFormed children := by
  intro children hchildren
  obtain ⟨b, hb, rfl⟩ := Option.map_eq_some_iff.mp hchildren
  exact h b (Option.mem_toList.mpr hb)

theorem kind_caseOutput (nodes : List Node) :
    ∀ node ∈ nodes.filterMap (Node.caseOutput? (.standard config reader)),
      node.kind = .switchCase := by
  intro node hnode
  obtain ⟨n, -, hn⟩ := List.mem_filterMap.mp hnode
  cases n with
  | branch mark test body =>
    cases hn
    rfl
  | _ => cases hn

/-- The cases without a value are the default branches. -/
theorem countP_caseOutput (nodes : List Node) :
    (nodes.filterMap (Node.caseOutput? (.standard config reader))).countP
        (fun node => node.value.isNone) = nodes.countP Node.isDefault := by
  induction nodes with
  | nil => rfl
  | cons n rest ih =>
    cases n with
    | branch mark test body =>
      simp only [List.filterMap_cons, Node.caseOutput?, List.countP_cons, ih, switchCase,
        Node.isDefault]
      by_cases ht : test = defaultTest <;> simp [ht]
    | _ =>
      rw [List.countP_cons_of_neg (by simp [Node.isDefault])]
      exact ih

theorem allShaped_caseOutputs {nodes : List Node}
    (h : ∀ b ∈ nodes.filterMap Node.branchBody?,
      Output.WellFormed (b.outputs (.standard config reader))) :
    Output.AllShaped (nodes.filterMap (Node.caseOutput? (.standard config reader))) := by
  induction nodes with
  | nil => exact Output.allShaped_nil
  | cons n rest ih =>
    cases n with
    | branch mark test body =>
      rw [Node.filterMap_branchBody?_cons, List.forall_mem_append] at h
      have hcase := allShaped_switchCase mark test (wellFormed_of_mem_bodyOutputs h.1)
      rw [Output.allShaped_singleton] at hcase
      exact Output.allShaped_cons.mpr ⟨hcase.1, hcase.2, ih h.2⟩
    | _ => exact ih h

mutual

/-- A conditional and all its links are shaped. -/
theorem allShaped_lowerConditional :
    (chain : Conditional) →
      (∀ b ∈ chain.blocks, Output.WellFormed (b.outputs (.standard config reader))) →
      Output.AllShaped [(lowerConditional (.standard config reader) chain).value]
  | .mk mark test consequent alternate, h => by
    simp only [Conditional.blocks, List.forall_mem_cons] at h
    obtain ⟨hk, hs⟩ := allShaped_lowerAlternate alternate h.2
    rw [value_lowerConditional]
    exact allShaped_conditionalOutput mark test h.1 hk hs

theorem allShaped_lowerAlternate :
    (alternate : Option Alternate) →
      (∀ b ∈ alternateBlocks alternate,
        Output.WellFormed (b.outputs (.standard config reader))) →
      (lowerAlternate (.standard config reader) alternate).value.kind ∈
          [Kind.fragment, .conditional, .null] ∧
        Output.AllShaped [(lowerAlternate (.standard config reader) alternate).value]
  | none, _ => by
    rw [value_lowerAlternate_none, Output.allShaped_singleton]
    exact ⟨by decide, rfl, Output.allShaped_nil⟩
  | some (.block b), h => by
    simp only [alternateBlocks, List.mem_singleton, forall_eq] at h
    rw [value_lowerAlternate_block]
    exact ⟨List.mem_cons_self, Output.allShaped_fragment h⟩
  | some (.chain chain), h => by
    simp only [alternateBlocks] at h
    rw [value_lowerAlternate_chain]
    refine ⟨?_, allShaped_lowerConditional chain h⟩
    obtain ⟨mark, test, consequent, alternate⟩ := chain
    rw [value_lowerConditional]
    exact List.mem_cons_of_mem _ List.mem_cons_self

end

variable (config reader)

/-- The outputs of a node are well formed. -/
theorem wellFormed_outputs (n : Node) :
    Output.WellFormed (n.outputs (.standard config reader)) := by
  induction n using Node.induct with
  | step n ih =>
    have hblocks : ∀ b ∈ n.blocks, Output.WellFormed (b.outputs (.standard config reader)) :=
      fun b hb => Output.wellFormed_flatMap (ih b hb)
    cases n with
    | block b =>
      rw [Node.outputs_block]
      exact hblocks b (by simp [Node.blocks])
    | tag mark t body =>
      rw [Node.outputs_tag]
      split
      · exact wellFormed_elementOutput config mark t (wellFormed_bodyOutputs hblocks)
      · exact Output.wellFormed_nil
    | code mark c body =>
      rw [Node.outputs_code]
      split
      · apply Output.wellFormed_of_leaves
        cases h : c.buffer <;> simp [codeOutput, h]
      · exact Output.wellFormed_nil
    | text mark value =>
      rw [Node.outputs_text]
      apply Output.wellFormed_of_leaves
      simp [Output.text]
    | branch mark test body =>
      rw [Node.outputs_branch]
      exact Output.wellFormed_nil
    | switch mark subject b =>
      obtain ⟨blockMark, nodes⟩ := b
      rw [Node.outputs_switch]
      split
      · rename_i hcase
        refine wellFormed_switchOutput mark subject (kind_caseOutput nodes) ?_
          (allShaped_caseOutputs hblocks)
        rw [countP_caseOutput]
        exact hcase.2
      · exact Output.wellFormed_nil
    | conditional chain =>
      rw [Node.outputs_conditional, Output.wellFormed_singleton]
      refine ⟨?_, allShaped_lowerConditional chain hblocks⟩
      obtain ⟨mark, test, consequent, alternate⟩ := chain
      rw [value_lowerConditional]
      simp [Output.IsMember, conditionalOutput]
    | each mark loop body alternate =>
      simp only [Node.blocks, List.forall_mem_cons] at hblocks
      rw [Node.outputs_each]
      exact wellFormed_iterationOutput mark loop hblocks.1
        (wellFormed_of_mem_bodyOutputs hblocks.2)
    | other mark kind =>
      rw [Node.outputs_other]
      exact Output.wellFormed_nil

end Nodes

/-- The statements that a document adds to the module are well formed. -/
theorem wellFormed_hoist (config : Config) (grammar : Grammar) (n : Node) :
    Output.WellFormed (n.hoist config grammar) := by
  cases n with
  | tag mark t body =>
    rw [Node.hoist]
    split
    · split
      · unfold scriptStatements
        dsimp only
        split
        · exact Output.wellFormed_nil
        · apply Output.wellFormed_of_leaves
          intro node hnode
          obtain ⟨n, -, rfl⟩ := List.mem_map.mp hnode
          simp [statementOutput, Output.statement]
      · simp only [lowerBlock_eq]
        apply wellFormed_bodyOutputs
        intro b _
        exact Output.wellFormed_flatMap fun m _ => wellFormed_outputs config grammar.reader m
    · exact Output.wellFormed_nil
  | _ => exact Output.wellFormed_nil

/-! ## Shaped trees can be rendered -/

namespace Output

theorem renderAll_of_each {nodes : List Output}
    (h : ∀ node ∈ nodes, ∃ text, node.render = .ok text) :
    ∃ texts, renderAll nodes = .ok texts := by
  induction nodes with
  | nil => exact ⟨[], rfl⟩
  | cons node rest ih =>
    rw [List.forall_mem_cons] at h
    obtain ⟨text, ht⟩ := h.1
    obtain ⟨texts, hts⟩ := ih h.2
    simp [renderAll, ht, hts, bind, Except.bind]

theorem renderChildren_of_each {nodes : List Output}
    (h : ∀ node ∈ nodes, ∃ text, node.render = .ok text) :
    ∃ texts, renderChildren nodes = .ok texts := by
  induction nodes with
  | nil => exact ⟨[], rfl⟩
  | cons node rest ih =>
    rw [List.forall_mem_cons] at h
    obtain ⟨text, ht⟩ := h.1
    obtain ⟨texts, hts⟩ := ih h.2
    simp [renderChildren, ht, hts, bind, Except.bind]

/-- The step from the children of a shaped node to the node. -/
theorem render_of_children {node : Output} (hs : node.IsShaped)
    (h : ∀ child ∈ node.children, ∃ text, child.render = .ok text) :
    ∃ text, node.render = .ok text := by
  obtain ⟨kind, name, value, attributes, params, children, location⟩ := node
  dsimp only at h
  cases kind with
  | element =>
    obtain ⟨texts, hts⟩ := renderChildren_of_each h
    simp [render, hts, bind, Except.bind]
  | fragment =>
    obtain ⟨texts, hts⟩ := renderChildren_of_each h
    simp [render, hts, bind, Except.bind]
  | conditional =>
    obtain ⟨consequent, alternate, hc, -, -⟩ := hs
    dsimp only at hc
    subst hc
    obtain ⟨text₁, ht₁⟩ := h consequent (by simp)
    obtain ⟨text₂, ht₂⟩ := h alternate (by simp)
    simp [render, ht₁, ht₂, bind, Except.bind]
  | iteration =>
    -- Of the children only the first two are rendered; the shape excludes that there are none.
    obtain ⟨hlength, -, -⟩ := hs
    match children, h, hlength with
    | [], _, hlength => simp at hlength
    | [body], h, _ =>
      obtain ⟨text, ht⟩ := h body (by simp)
      simp [render, ht, bind, Except.bind]
    | body :: alternate :: _, h, _ =>
      obtain ⟨text₁, ht₁⟩ := h body (by simp)
      obtain ⟨text₂, ht₂⟩ := h alternate (by simp)
      simp [render, ht₁, ht₂, bind, Except.bind]
  | switch =>
    obtain ⟨texts, hts⟩ := renderAll_of_each h
    simp [render, hts, bind, Except.bind]
  | switchCase =>
    match children, h with
    | [], _ => simp [render]
    | result :: _, h =>
      obtain ⟨text, ht⟩ := h result (by simp)
      simp [render, ht, bind, Except.bind]
  | text => simp [render]
  | expression => simp [render]
  | statement => simp [render]
  | null => simp [render]

mutual

/-- A shaped tree can be rendered. -/
theorem exists_render : (node : Output) → AllShaped [node] → ∃ text, node.render = .ok text
  | ⟨_, _, _, _, _, children, _⟩, h => by
    rw [allShaped_singleton] at h
    exact render_of_children h.1 (exists_render_of_mem children h.2)

theorem exists_render_of_mem :
    (nodes : List Output) → AllShaped nodes → ∀ node ∈ nodes, ∃ text, node.render = .ok text
  | [], _ => List.forall_mem_nil _
  | node :: rest, h => by
    rw [allShaped_cons] at h
    rw [List.forall_mem_cons]
    exact ⟨exists_render node (allShaped_singleton.mpr ⟨h.1, h.2.1⟩),
      exists_render_of_mem rest h.2.2⟩

end

end Output

/-! ## Dumping results -/

namespace Report

theorem diagnosticTexts_eq_ok_iff {diagnostics : List Diagnostic} :
    (∃ texts, diagnosticTexts diagnostics = .ok texts) ↔
      ∀ d ∈ diagnostics, d.position.isWritable = true := by
  induction diagnostics with
  | nil => simp [diagnosticTexts]
  | cons d rest ih =>
    rw [List.forall_mem_cons, ← ih]
    by_cases hd : d.position.isWritable = true
    · cases hrest : diagnosticTexts rest <;>
        simp [diagnosticTexts, Diagnostic.line?, hd, hrest, Except.map]
    · simp [diagnosticTexts, Diagnostic.line?, hd]

theorem diagnosticTexts_eq_error {diagnostics : List Diagnostic} {e : RenderError}
    (h : diagnosticTexts diagnostics = .error e) : e = .oversized := by
  induction diagnostics with
  | nil => cases h
  | cons d rest ih =>
    simp only [diagnosticTexts] at h
    split at h
    · cases h
      rfl
    · cases hrest : diagnosticTexts rest with
      | error e' =>
        rw [hrest] at h
        cases h
        exact ih hrest
      | ok texts =>
        rw [hrest] at h
        cases h

theorem diagnosticLines_of_ok {r : Report} {texts : List Text}
    (h : diagnosticTexts r.diagnostics = .ok texts) : ∃ list, r.diagnosticLines = .ok list := by
  unfold diagnosticLines
  split
  · exact ⟨[], rfl⟩
  · simp [h, bind, Except.bind]

theorem diagnosticLines_of_error {r : Report} {e : RenderError}
    (h : diagnosticTexts r.diagnostics = .error e) : r.diagnosticLines = .error e := by
  unfold diagnosticLines
  split
  · rename_i hnil
    rw [hnil] at h
    cases h
  · simp [h, bind, Except.bind]

/-- Dumping a well-formed result can only fail on a diagnostic. -/
theorem dump_of_wellFormed {r : Report} (hs : Output.WellFormed r.statements)
    (hr : Output.WellFormed r.render) :
    ((∃ text, r.dump = .ok text) ↔ ∀ d ∈ r.diagnostics, d.position.isWritable = true) ∧
      ∀ e, r.dump = .error e → e = .oversized := by
  obtain ⟨texts₁, h₁⟩ := Output.renderAll_of_each (Output.exists_render_of_mem _ hs.2)
  obtain ⟨texts₂, h₂⟩ := Output.renderAll_of_each (Output.exists_render_of_mem _ hr.2)
  rw [← diagnosticTexts_eq_ok_iff]
  cases hd : diagnosticTexts r.diagnostics with
  | ok texts =>
    obtain ⟨list, hlist⟩ := diagnosticLines_of_ok hd
    simp [dump, lines, h₁, h₂, hlist, bind, Except.bind, Except.map]
  | error e =>
    rw [diagnosticTexts_eq_error hd] at hd ⊢
    simp [dump, lines, h₁, h₂, diagnosticLines_of_error hd, bind, Except.bind, Except.map]

end Report

/-! ## Documents -/

theorem wellFormed_documentReport {config : Config} {grammar : Grammar} {root : Node}
    (h : ReadableDocument config grammar root) :
    Output.WellFormed (documentReport (.standard config grammar.reader) root).statements ∧
      Output.WellFormed (documentReport (.standard config grammar.reader) root).render := by
  refine ⟨?_, wellFormed_outputs config grammar.reader root⟩
  rw [documentReport, documentHoisted_eq h]
  exact Output.wellFormed_flatMap fun n _ => wellFormed_hoist config grammar n

theorem readableDocument_iff_of_fits {config : Config} {grammar : Grammar} {root : Node}
    (h : ∀ source ∈ documentScripts config root, Text.isBlankText source = false →
      (grammar config.language source).Fits source) :
    ReadableDocument config grammar root ↔
      ∀ source ∈ documentScripts config root, ∀ index, CodePoint.surrogate index ∉ source := by
  unfold ReadableDocument
  constructor
  · intro hread source hsource
    exact (readable_iff_of_fits (h source hsource)).mp (hread source hsource)
  · intro hchars source hsource
    exact (readable_iff_of_fits (h source hsource)).mpr (hchars source hsource)

/-- Along trees that fit, a document has a result exactly if there is no surrogate in the scripts
that are read. The lists of a result are well formed. It can be dumped exactly if the positions of
all its diagnostics can be written, and nothing else can be wrong with it. -/
theorem lowerDocument_ok_iff_no_surrogate (config : Config) (grammar : Grammar) (root : Node)
    (h : ∀ source ∈ documentScripts config root, Text.isBlankText source = false →
      (grammar config.language source).Fits source) :
    ((∃ report, (lowerDocument (.standard config grammar.reader) root).2 = .ok report) ↔
        ∀ source ∈ documentScripts config root, ∀ index, CodePoint.surrogate index ∉ source) ∧
      ∀ report, (lowerDocument (.standard config grammar.reader) root).2 = .ok report →
        Output.WellFormed report.statements ∧ Output.WellFormed report.render ∧
          ((∃ text, report.dump = .ok text) ↔
            ∀ d ∈ report.diagnostics, d.position.isWritable = true) ∧
          ∀ e, report.dump = .error e → e = .oversized := by
  refine ⟨(exists_lowerDocument_iff config grammar).trans (readableDocument_iff_of_fits h), ?_⟩
  intro report hok
  obtain ⟨hread, rfl⟩ := (lowerDocument_eq_ok_iff_readable config grammar).mp hok
  obtain ⟨hstatements, hrender⟩ := wellFormed_documentReport hread
  exact ⟨hstatements, hrender, Report.dump_of_wellFormed hstatements hrender⟩

/-- A document with one script in the primary dialect. -/
def scriptDocument (texts : List Text) : Node :=
  .block (.mk {} [.tag {} { name := "script" } (some (.mk {} (texts.map (.text {}))))])

/-- The tree of a source that is one statement, up to an offset. -/
def statementTree (stop : Nat) : Syntax :=
  { stop := stop, children := [{ kind := "expression_statement", stop := stop }] }

theorem fits_statementTree {source upto : Text} {stop : Nat}
    (h : Utf8.OnBoundary source upto stop) : (statementTree stop).Fits source := by
  have hstart : Utf8.OnBoundary source [] 0 := ⟨source, [], rfl, rfl, rfl⟩
  intro n hn
  simp only [statementTree, Syntax.walkNode, Syntax.walk, List.append_nil, List.mem_cons,
    List.not_mem_nil, or_false] at hn
  rcases hn with rfl | rfl
  · exact ⟨⟨_, hstart⟩, ⟨_, h⟩, Int.le_refl 0⟩
  · exact ⟨⟨_, hstart⟩, ⟨_, h⟩, Int.le_refl 0⟩

theorem fits_statementTree_two : (statementTree 2).Fits "x;" := by
  have hend : Utf8.OnBoundary (Text.ofString "x;") (Text.ofString "x;") 2 :=
    ⟨[], [120, 59], rfl, rfl, rfl⟩
  exact fits_statementTree hend

/-- A script with one statement is lowered. -/
theorem lowerDocument_one_statement :
    (∀ source ∈ documentScripts {} (scriptDocument ["x;"]), Text.isBlankText source = false →
        (statementTree 2).Fits source) ∧
      ∃ report, (lowerDocument (.standard {} (Grammar.reader fun _ _ => statementTree 2))
          (scriptDocument ["x;"])).2 = .ok report ∧
        Output.WellFormed report.statements ∧ Output.WellFormed report.render := by
  have hscripts : documentScripts {} (scriptDocument ["x;"]) = [Text.ofString "x;"] := by decide
  have hfits : ∀ source ∈ documentScripts {} (scriptDocument ["x;"]),
      Text.isBlankText source = false → (statementTree 2).Fits source := by
    rw [hscripts]
    intro source hsource _
    cases List.mem_singleton.mp hsource
    exact fits_statementTree_two
  have hlowered := lowerDocument_ok_iff_no_surrogate {} (fun _ _ => statementTree 2)
    (scriptDocument ["x;"]) hfits
  obtain ⟨report, hok⟩ := hlowered.1.mpr (by rw [hscripts]; simp [Text.ofString])
  exact ⟨hfits, report, hok, (hlowered.2 report hok).1, (hlowered.2 report hok).2.1⟩

/-- A script with a surrogate ends the run, although its tree fits. -/
theorem lowerDocument_surrogate_fault :
    (∀ source ∈ documentScripts {} (scriptDocument ["x", [.surrogate 61, .char 'y']]),
        Text.isBlankText source = false → (statementTree 0).Fits source) ∧
      (lowerDocument (.standard {} (Grammar.reader fun _ _ => statementTree 0))
          (scriptDocument ["x", [.surrogate 61, .char 'y']])).2 =
        .error (.fault (.script (.unencodable ⟨1, 61, 1⟩))) := by
  refine ⟨?_, rfl⟩
  intro source _ _
  have hstart : Utf8.OnBoundary source [] 0 := ⟨source, [], rfl, rfl, rfl⟩
  exact fits_statementTree hstart

end Lowering
