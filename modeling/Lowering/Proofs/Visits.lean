import Lowering.Proofs.Hoisting

/-!
# Visited nodes and their problems

The diagnostics of a document are the problems of single nodes, in the order of a walk over the
document. What a node is reported for depends on the node and on where it stands, and so does
whether the walk goes on inside it.

* `Node.visits`: the walk, in pre-order;
* `Visit.isEntered`: whether the walk goes on inside a node;
* `Visit.own`: the problems of a node itself;
* `diagnostics_lowerDocument`: the diagnostics of a result are the problems of the visited nodes, one
  after the other.
-/

namespace Lowering

/-! ## The walk -/

/-- Where a visited node stands: it is the document, it stands directly in the document, it is a
branch of a case distinction, or it stands further inside. -/
inductive Standing where
  | document
  | topLevel
  | branch
  | inner
deriving DecidableEq, Repr

/-- Where the nodes of a block stand. -/
def Standing.below : Standing → Standing
  | .document => .topLevel
  | _ => .inner

/-- A node on the walk. -/
structure Visit where
  standing : Standing
  node : Node

/-- A visit, and the visits inside the node if it is entered. -/
def Visit.followed (enters : Visit → Bool) (v : Visit) (inside : List Visit) : List Visit :=
  v :: if enters v then inside else []

mutual

/-- The visited nodes from a node on, in pre-order. -/
def Node.visits (enters : Visit → Bool) (standing : Standing) : Node → List Visit
  | .block (.mk mark nodes) =>
    Visit.followed enters ⟨standing, .block (.mk mark nodes)⟩
      (nodesVisits enters standing.below nodes)
  | .tag mark t body => Visit.followed enters ⟨standing, .tag mark t body⟩ (bodyVisits enters body)
  | .code mark c body =>
    Visit.followed enters ⟨standing, .code mark c body⟩ (bodyVisits enters body)
  | .text mark value => Visit.followed enters ⟨standing, .text mark value⟩ []
  | .branch mark test body =>
    Visit.followed enters ⟨standing, .branch mark test body⟩ (bodyVisits enters body)
  | .switch mark subject b =>
    Visit.followed enters ⟨standing, .switch mark subject b⟩ (b.visits enters .branch)
  | .conditional chain => chain.visits enters standing
  | .each mark loop b alternate =>
    Visit.followed enters ⟨standing, .each mark loop b alternate⟩
      (b.visits enters .inner ++ bodyVisits enters alternate)
  | .other mark kind => Visit.followed enters ⟨standing, .other mark kind⟩ []

/-- The visited nodes from several nodes on. -/
def nodesVisits (enters : Visit → Bool) (standing : Standing) : List Node → List Visit
  | [] => []
  | n :: rest => n.visits enters standing ++ nodesVisits enters standing rest

/-- The visited nodes of a block inside a node; `standing` is that of its nodes. -/
def Block.visits (enters : Visit → Bool) (standing : Standing) : Block → List Visit
  | .mk mark nodes =>
    Visit.followed enters ⟨.inner, .block (.mk mark nodes)⟩ (nodesVisits enters standing nodes)

/-- The visited nodes of a body. -/
def bodyVisits (enters : Visit → Bool) : Option Block → List Visit
  | none => []
  | some b => b.visits enters .inner

/-- The visited nodes of a conditional: the consequent comes before the alternate. -/
def Conditional.visits (enters : Visit → Bool) (standing : Standing) : Conditional → List Visit
  | .mk mark test consequent alternate =>
    Visit.followed enters ⟨standing, .conditional (.mk mark test consequent alternate)⟩
      (consequent.visits enters .inner ++ alternateVisits enters alternate)

/-- The visited nodes of what a conditional takes when its test fails. -/
def alternateVisits (enters : Visit → Bool) : Option Alternate → List Visit
  | none => []
  | some (.block b) => b.visits enters .inner
  | some (.chain chain) => chain.visits enters .inner

end

/-! ## Problems of single nodes -/

/-- The position of the first error of the script in a tag. -/
def scriptErrorPosition (config : Config) (grammar : Grammar) (mark : Mark)
    (body : Option Block) : Position :=
  let point := (scriptTree config grammar body).errorPoint (scriptSource body)
  scriptPosition mark body point.1 point.2

/-- The problems of a script in the primary dialect: contents that are no text, and an error. -/
def scriptOwn (config : Config) (grammar : Grammar) (mark : Mark) (body : Option Block) :
    List Diagnostic :=
  (if hasMarkup body then [Problem.scriptWithMarkup.diagnosticAt mark.position] else []) ++
    if Text.isBlankText (scriptSource body) = false ∧
        (scriptTree config grammar body).hasError = true then
      [(Problem.invalidScript config.language).diagnosticAt
        (scriptErrorPosition config grammar mark body)]
    else []

namespace Visit

/-- Whether the walk goes on inside a node: not inside tags that are not allowed, inside script other
than template script directly in the document, inside other tags with attribute blocks, inside code,
inside case distinctions that cannot be lowered, inside branches that stand elsewhere, and inside
nodes of unknown kinds. -/
def isEntered (config : Config) : Visit → Bool
  | ⟨standing, .tag _ t _⟩ =>
    !config.disallowedTags.contains t.name &&
      if t.name = config.scriptTag then
        standing = .topLevel && t.scriptProblem? config = none &&
          t.dialect config ≠ config.primaryDialect
      else t.attributeBlocks = []
  | ⟨_, .switch _ _ b⟩ => IsCase b.nodes
  | ⟨standing, .branch _ _ _⟩ => standing = .branch
  | ⟨_, .code _ _ _⟩ | ⟨_, .other _ _⟩ => false
  | ⟨_, .block _⟩ | ⟨_, .text _ _⟩ | ⟨_, .conditional _⟩ | ⟨_, .each _ _ _ _⟩ => true

/-- The problems of a node itself. -/
def own (config : Config) (grammar : Grammar) : Visit → List Diagnostic
  | ⟨standing, .tag mark t body⟩ =>
    if config.disallowedTags.contains t.name then
      [(Problem.disallowedTag t.name).diagnosticAt mark.position]
    else if t.name = config.scriptTag then
      match t.scriptProblem? config with
      | some problem => [problem.diagnosticAt mark.position]
      | none =>
        if standing ≠ .topLevel then [Problem.nestedScript.diagnosticAt mark.position]
        else if t.dialect config = config.primaryDialect then scriptOwn config grammar mark body
        else []
    else if t.attributeBlocks = [] then []
    else [Problem.attributeBlocks.diagnosticAt mark.position]
  | ⟨_, .code mark _ body⟩ =>
    if body = none then [] else [Problem.codeBlock.diagnosticAt mark.position]
  | ⟨_, .switch _ _ b⟩ =>
    (caseProblem? b.nodes).toList.map fun found => found.1.diagnosticAt found.2
  | ⟨standing, .branch mark _ _⟩ =>
    if standing = .branch then []
    else [(Problem.unknownKind NodeKind.branch.name).diagnosticAt mark.position]
  | ⟨_, .other mark kind⟩ => [(Problem.unknownKind kind).diagnosticAt mark.position]
  | ⟨_, .block _⟩ | ⟨_, .text _ _⟩ | ⟨_, .conditional _⟩ | ⟨_, .each _ _ _ _⟩ => []

/-- A node of a kind that is not known where it stands. -/
def isUnknown : Visit → Bool
  | ⟨standing, .branch _ _ _⟩ => standing ≠ .branch
  | ⟨_, .other _ _⟩ => true
  | _ => false

/-- A tag directly in the document whose script is read. -/
def isReadScript (config : Config) (v : Visit) : Bool :=
  v.standing = .topLevel && (v.node.scriptSource? config).isSome

/-- Where a problem of a node is reported: at the node itself, but for a case distinction at the
node in it that is in the way. -/
def place : Visit → Position
  | ⟨_, .switch mark _ b⟩ => ((caseProblem? b.nodes).map Prod.snd).getD mark.position
  | ⟨_, n⟩ => n.position

/-- What the problems of a single node can be: at most one, which is fatal unless the kind of the
node is not known; for a script that is read also an error in it. -/
structure OwnShape (config : Config) (grammar : Grammar) (v : Visit) : Prop where
  single : v.isReadScript config = false → (v.own config grammar).length ≤ 1 ∧
    ∀ d ∈ v.own config grammar, d.code = .unsupportedSyntax ∧ d.position = v.place ∧
      d.isFatal = !v.isUnknown ∧ d.maybeBug = v.isUnknown
  unknown : v.isUnknown = true → (v.own config grammar).length = 1
  script : ∀ mark t body, v.node = .tag mark t body → v.isReadScript config = true →
    List.Sublist (v.own config grammar) [Problem.scriptWithMarkup.diagnosticAt mark.position,
      (Problem.invalidScript config.language).diagnosticAt
        (scriptErrorPosition config grammar mark body)]

end Visit

/-! ## The problems along the walk -/

section Reports

variable (config : Config) (grammar : Grammar)

/-- The problems of the visited nodes from a node on. -/
def Node.reports (standing : Standing) (n : Node) : List Diagnostic :=
  (n.visits (Visit.isEntered config) standing).flatMap (Visit.own config grammar)

/-- The problems of the visited nodes in a block. -/
def Block.reports (b : Block) : List Diagnostic :=
  b.nodes.flatMap (Node.reports config grammar .inner)

theorem own_followed (v : Visit) (inside : List Visit) :
    (v.followed (Visit.isEntered config) inside).flatMap (Visit.own config grammar) =
      v.own config grammar ++
        if v.isEntered config then inside.flatMap (Visit.own config grammar) else [] := by
  rw [Visit.followed, List.flatMap_cons]
  split <;> rfl

theorem own_nodesVisits (standing : Standing) (nodes : List Node) :
    (nodesVisits (Visit.isEntered config) standing nodes).flatMap (Visit.own config grammar) =
      nodes.flatMap (Node.reports config grammar standing) := by
  induction nodes with
  | nil => simp [nodesVisits]
  | cons n rest ih => rw [nodesVisits, List.flatMap_append, ih, List.flatMap_cons, Node.reports]

theorem own_blockVisits (b : Block) (standing : Standing) :
    (b.visits (Visit.isEntered config) standing).flatMap (Visit.own config grammar) =
      b.nodes.flatMap (Node.reports config grammar standing) := by
  obtain ⟨mark, nodes⟩ := b
  rw [Block.visits, own_followed, own_nodesVisits]
  rfl

theorem own_bodyVisits (body : Option Block) :
    (bodyVisits (Visit.isEntered config) body).flatMap (Visit.own config grammar) =
      body.toList.flatMap (Block.reports config grammar) := by
  cases body with
  | none => simp [bodyVisits]
  | some b =>
    rw [bodyVisits, own_blockVisits]
    exact (List.append_nil _).symm

/-- A branch of a case distinction has no problem of its own. -/
theorem reports_branches {nodes : List Node} (h : ∀ n ∈ nodes, n.isBranch = true) :
    nodes.flatMap (Node.reports config grammar .branch) =
      (nodes.filterMap Node.branchBody?).flatMap (Block.reports config grammar) := by
  induction nodes with
  | nil => rfl
  | cons n rest ih =>
    rw [List.forall_mem_cons] at h
    cases n with
    | branch mark test body =>
      rw [Node.filterMap_branchBody?_cons, List.flatMap_append, List.flatMap_cons, ih h.2,
        Node.reports, Node.visits, own_followed, own_bodyVisits]
      rfl
    | _ => cases h.1

mutual

theorem own_conditionalVisits (standing : Standing) :
    (chain : Conditional) →
      (chain.visits (Visit.isEntered config) standing).flatMap (Visit.own config grammar) =
        chain.blocks.flatMap (Block.reports config grammar)
  | .mk mark test consequent alternate => by
    rw [Conditional.visits, own_followed, Conditional.blocks, List.flatMap_cons,
      List.flatMap_append, own_blockVisits, own_alternateVisits alternate]
    rfl

theorem own_alternateVisits :
    (alternate : Option Alternate) →
      (alternateVisits (Visit.isEntered config) alternate).flatMap (Visit.own config grammar) =
        (alternateBlocks alternate).flatMap (Block.reports config grammar)
  | none => by simp [alternateVisits, alternateBlocks]
  | some (.block b) => by
    rw [alternateVisits, alternateBlocks, own_blockVisits]
    exact (List.append_nil _).symm
  | some (.chain chain) => by
    rw [alternateVisits, alternateBlocks, own_conditionalVisits .inner chain]

end

end Reports

/-! ## Lowering reports the problems along the walk -/

section Lowering

variable {config : Config} {grammar : Grammar}

/-- A refused node has one problem, and the walk does not go on inside it. -/
theorem reports_of_refusal (standing : Standing) {n : Node} {problem : Problem}
    {position : Position} (hb : standing ≠ .branch)
    (hs : standing ≠ .topLevel ∨ n.isScript config = false)
    (h : n.refusal? config = some (problem, position)) :
    n.reports config grammar standing = [problem.diagnosticAt position] := by
  cases n with
  | tag mark t body =>
    rw [Node.reports, Node.visits, own_followed]
    simp only [Node.refusal?] at h
    by_cases hd : t.name ∈ config.disallowedTags
    · simp only [if_pos hd, Option.some.injEq, Prod.mk.injEq] at h
      simp [Visit.own, Visit.isEntered, hd, ← h.1, ← h.2]
    · by_cases hn : t.name = config.scriptTag
      · have htop : standing ≠ .topLevel := by
          refine hs.resolve_right ?_
          rw [Node.isScript_tag.mpr ⟨hd, hn⟩]
          decide
        simp only [if_neg hd, if_pos hn, Option.some.injEq, Prod.mk.injEq] at h
        cases hp : t.scriptProblem? config with
        | none => simp [Visit.own, Visit.isEntered, hn ▸ hd, hn, hp, htop, ← h.1, ← h.2]
        | some other => simp [Visit.own, Visit.isEntered, hn ▸ hd, hn, hp, htop, ← h.1, ← h.2]
      · by_cases ha : t.attributeBlocks = []
        · simp [hd, hn, ha] at h
        · simp only [if_neg hd, if_neg hn, if_neg ha, Option.some.injEq, Prod.mk.injEq] at h
          simp [Visit.own, Visit.isEntered, hd, hn, ha, ← h.1, ← h.2]
  | code mark c body =>
    rw [Node.reports, Node.visits, own_followed]
    cases body with
    | none => simp [Node.refusal?] at h
    | some b =>
      simp only [Node.refusal?, reduceCtorEq, if_false, Option.some.injEq, Prod.mk.injEq] at h
      simp [Visit.own, Visit.isEntered, ← h.1, ← h.2]
  | branch mark test body =>
    rw [Node.reports, Node.visits, own_followed]
    simp only [Node.refusal?, Option.some.injEq, Prod.mk.injEq] at h
    simp [Visit.own, Visit.isEntered, hb, ← h.1, ← h.2]
  | switch mark subject b =>
    have hp : caseProblem? b.nodes = some (problem, position) := h
    have hcase : ¬IsCase b.nodes := by
      rw [← caseProblem?_eq_none_iff, hp]
      exact Option.some_ne_none _
    rw [Node.reports, Node.visits, own_followed]
    simp [Visit.own, Visit.isEntered, hcase, hp]
  | other mark kind =>
    rw [Node.reports, Node.visits, own_followed]
    simp only [Node.refusal?, Option.some.injEq, Prod.mk.injEq] at h
    simp [Visit.own, Visit.isEntered, ← h.1, ← h.2]
  | block _ => cases h
  | text _ _ => cases h
  | conditional _ => cases h
  | each _ _ _ _ => cases h

/-- A node that is not refused has no problem, and the walk goes on in its blocks. -/
theorem reports_of_accepted (standing : Standing) {n : Node}
    (hd : standing ≠ .document ∨ n.topLevel = [])
    (h : n.refusal? config = none) :
    n.reports config grammar standing = n.blocks.flatMap (Block.reports config grammar) := by
  cases n with
  | block b =>
    obtain ⟨mark, nodes⟩ := b
    rw [Node.reports, Node.visits, own_followed, own_nodesVisits]
    cases standing with
    | document =>
      have hnil : nodes = [] := hd.resolve_left (fun hne => hne rfl)
      subst hnil
      rfl
    | _ => exact (List.append_nil _).symm
  | tag mark t body =>
    obtain ⟨hallowed, hscript, hblocks⟩ := Node.refusal?_tag_eq_none_iff.mp h
    rw [Node.reports, Node.visits, own_followed, own_bodyVisits]
    simp [Visit.own, Visit.isEntered, hallowed, hscript, hblocks, Node.blocks]
  | code mark c body =>
    rw [Node.reports, Node.visits, own_followed]
    cases body with
    | none => simp [Visit.own, Visit.isEntered, Node.blocks]
    | some b => simp [Node.refusal?] at h
  | text mark value =>
    rw [Node.reports, Node.visits, own_followed]
    rfl
  | switch mark subject b =>
    have hcase : IsCase b.nodes := caseProblem?_eq_none_iff.mp h
    have hp : caseProblem? b.nodes = none := h
    rw [Node.reports, Node.visits, own_followed, own_blockVisits,
      reports_branches config grammar hcase.1]
    simp [Visit.own, Visit.isEntered, hcase, hp, Node.blocks]
  | conditional chain =>
    rw [Node.reports, Node.visits, own_conditionalVisits]
    rfl
  | each mark loop b alternate =>
    rw [Node.reports, Node.visits, own_followed, List.flatMap_append, own_blockVisits,
      own_bodyVisits]
    rfl
  | branch _ _ _ => cases h
  | other _ _ => cases h

theorem reports_inner_of_refusal {n : Node} {problem : Problem} {position : Position}
    (h : n.refusal? config = some (problem, position)) :
    n.reports config grammar .inner = [problem.diagnosticAt position] :=
  reports_of_refusal .inner (by decide) (.inl (by decide)) h

theorem reports_inner_of_accepted {n : Node} (h : n.refusal? config = none) :
    n.reports config grammar .inner = n.blocks.flatMap (Block.reports config grammar) :=
  reports_of_accepted .inner (.inl (by decide)) h

/-- Apart from script directly in the document, a node has the same problems wherever it stands. -/
theorem reports_eq_inner (standing : Standing) {n : Node} (hb : standing ≠ .branch)
    (hs : standing ≠ .topLevel ∨ n.isScript config = false)
    (hd : standing ≠ .document ∨ n.topLevel = []) :
    n.reports config grammar standing = n.reports config grammar .inner := by
  cases h : n.refusal? config with
  | some found => rw [reports_of_refusal standing hb hs h, reports_inner_of_refusal h]
  | none => rw [reports_of_accepted standing hd h, reports_inner_of_accepted h]

theorem diagnostics_inner (n : Node) :
    Event.diagnostics (n.events (.standard config grammar.reader) false) =
      n.reports config grammar .inner := by
  induction n using Node.induct with
  | step n ih =>
    cases h : n.refusal? config with
    | some found =>
      rw [Node.events_of_refusal h, reports_inner_of_refusal h]
      rfl
    | none =>
      have hblocks : ∀ b ∈ n.blocks, Event.diagnostics
          (b.events (.standard config grammar.reader)) = b.reports config grammar := by
        intro b hb
        rw [Block.events, Event.diagnostics_flatMap]
        exact List.flatMap_congr (ih b hb)
      rw [Node.events_of_accepted h, reports_inner_of_accepted h, Event.diagnostics_flatMap]
      exact List.flatMap_congr hblocks

theorem diagnostics_body (body : Option Block) :
    Event.diagnostics (body.elim [] (Block.events (.standard config grammar.reader))) =
      body.toList.flatMap (Block.reports config grammar) := by
  cases body with
  | none => rfl
  | some b =>
    rw [Option.elim_some, Block.events, Event.diagnostics_flatMap, Option.toList_some,
      List.flatMap_singleton]
    exact List.flatMap_congr fun m _ => diagnostics_inner m

/-- Script directly in a document that can be read leaves the problems of its tag, and, in the
template dialect, those of its contents. -/
theorem diagnostics_script {mark : Mark} {t : Tag} {body : Option Block}
    (hs : (Node.tag mark t body).isScript config = true)
    (h : ∀ source ∈ (Node.tag mark t body).scriptSource? config,
      Readable source (grammar config.language source)) :
    Event.diagnostics ((Node.tag mark t body).events (.standard config grammar.reader) true) =
      (Node.tag mark t body).reports config grammar .topLevel := by
  have hname := Node.isScript_tag.mp hs
  rw [Node.reports, Node.visits, own_followed, own_bodyVisits]
  cases hp : t.scriptProblem? config with
  | some problem =>
    rw [Node.events_script_of_problem hs hp]
    simp [Visit.own, Visit.isEntered, hname.2 ▸ hname.1, hname.2, hp]
  | none =>
    by_cases hd : t.dialect config = config.primaryDialect
    · have hread : Readable (scriptSource body) (scriptTree config grammar body) :=
        h _ (by simp [Node.scriptSource?, hs, hp, hd])
      have hown : Visit.own config grammar ⟨.topLevel, .tag mark t body⟩ =
          scriptOwn config grammar mark body := by
        simp [Visit.own, hname.2 ▸ hname.1, hname.2, hp, hd]
      have hentered : Visit.isEntered config ⟨.topLevel, .tag mark t body⟩ = false := by
        simp [Visit.isEntered, hname.2, hd]
      have hmarkup : Event.diagnostics (if hasMarkup body then
          [.diagnosed (Problem.scriptWithMarkup.diagnosticAt mark.position)] else []) =
            if hasMarkup body then [Problem.scriptWithMarkup.diagnosticAt mark.position]
            else [] := by
        split <;> rfl
      rw [Node.events_script_primary hs hp hd, Event.diagnostics_append, Event.diagnostics_append,
        hmarkup, diagnostics_lowerScriptText_of_readable hread, hown, hentered]
      rfl
    · have hown : Visit.own config grammar ⟨.topLevel, .tag mark t body⟩ = [] := by
        simp [Visit.own, hname.2 ▸ hname.1, hname.2, hp, hd]
      have hentered : Visit.isEntered config ⟨.topLevel, .tag mark t body⟩ = true := by
        simp [Visit.isEntered, hname.2 ▸ hname.1, hname.2, hp, hd]
      rw [Node.events_script_template hs hp hd, Event.diagnostics_append, diagnostics_body, hown,
        hentered]
      exact List.append_nil _

theorem diagnostics_topLevel {n : Node}
    (h : ∀ source ∈ n.scriptSource? config, Readable source (grammar config.language source)) :
    Event.diagnostics (n.events (.standard config grammar.reader) true) =
      n.reports config grammar .topLevel := by
  cases hs : n.isScript config with
  | false =>
    rw [Node.events_of_not_script hs, diagnostics_inner,
      reports_eq_inner .topLevel (by decide) (.inr hs) (.inl (by decide))]
  | true =>
    cases n with
    | tag mark t body => exact diagnostics_script hs h
    | _ => cases hs

theorem diagnostics_documentEvents {root : Node} (h : ReadableDocument config grammar root) :
    Event.diagnostics (documentEvents (.standard config grammar.reader) root) =
      root.reports config grammar .document := by
  cases root with
  | block b =>
    have hnodes : ∀ n ∈ b.nodes, Event.diagnostics
        (n.events (.standard config grammar.reader) true) =
          n.reports config grammar .topLevel := by
      intro n hn
      apply diagnostics_topLevel
      intro source hsource
      exact h source (List.mem_filterMap.mpr ⟨n, hn, hsource⟩)
    rw [documentEvents, Event.diagnostics_flatMap, List.flatMap_congr hnodes]
    obtain ⟨mark, nodes⟩ := b
    rw [Node.reports, Node.visits, own_followed, own_nodesVisits]
    rfl
  | _ =>
    refine (diagnostics_inner _).trans (Eq.symm ?_)
    exact reports_eq_inner .document (by decide) (.inl (by decide)) (.inr rfl)

end Lowering

/-! ## Problems of single nodes, and documents -/

theorem sublist_scriptOwn (config : Config) (grammar : Grammar) (mark : Mark)
    (body : Option Block) :
    List.Sublist (scriptOwn config grammar mark body)
      [Problem.scriptWithMarkup.diagnosticAt mark.position,
        (Problem.invalidScript config.language).diagnosticAt
          (scriptErrorPosition config grammar mark body)] := by
  have hite : ∀ (c : Prop) [Decidable c] (d : Diagnostic),
      List.Sublist (if c then [d] else []) [d] := by
    intro c _ d
    split
    · exact List.Sublist.refl _
    · exact List.nil_sublist _
  exact (hite _ _).append (hite _ _)

section Shape

variable {config : Config} {grammar : Grammar} {standing : Standing} {mark : Mark} {t : Tag}
  {body : Option Block}

theorem isReadScript_iff :
    Visit.isReadScript config ⟨standing, .tag mark t body⟩ = true ↔
      standing = .topLevel ∧ (Node.tag mark t body).isScript config = true ∧
        t.scriptProblem? config = none ∧ t.dialect config = config.primaryDialect := by
  simp only [Visit.isReadScript, Bool.and_eq_true, decide_eq_true_eq, Node.scriptSource?]
  by_cases h : (Node.tag mark t body).isScript config = true ∧ t.scriptProblem? config = none ∧
      t.dialect config = config.primaryDialect
  · simp [h]
  · rw [if_neg h]
    simp [h]

theorem own_of_isReadScript (h : Visit.isReadScript config ⟨standing, .tag mark t body⟩ = true) :
    Visit.own config grammar ⟨standing, .tag mark t body⟩ = scriptOwn config grammar mark body := by
  obtain ⟨htop, hs, hp, hd⟩ := isReadScript_iff.mp h
  have hname := Node.isScript_tag.mp hs
  simp [Visit.own, hname.2 ▸ hname.1, hname.2, htop, hp, hd]

theorem fatal_of_scriptProblem? {problem : Problem} (h : t.scriptProblem? config = some problem) :
    problem.code = .unsupportedSyntax ∧ problem.maybeBug = false := by
  unfold Tag.scriptProblem? at h
  split at h
  · cases h
    exact ⟨rfl, rfl⟩
  · split at h
    · cases h
    · cases h
      exact ⟨rfl, rfl⟩

theorem fatal_of_caseProblem? {nodes : List Node} {problem : Problem} {position : Position}
    (h : caseProblem? nodes = some (problem, position)) :
    problem.code = .unsupportedSyntax ∧ problem.maybeBug = false := by
  unfold caseProblem? at h
  split at h
  · cases h
    exact ⟨rfl, rfl⟩
  · obtain ⟨second, -, hsecond⟩ := Option.map_eq_some_iff.mp h
    cases hsecond
    exact ⟨rfl, rfl⟩

/-- At most one problem, at the place of the node; it may be a gap if the kind is not known. -/
def Visit.IsSingle (config : Config) (grammar : Grammar) (v : Visit) : Prop :=
  v.own config grammar = [] ∧ v.isUnknown = false ∨
    ∃ problem : Problem, v.own config grammar = [problem.diagnosticAt v.place] ∧
      problem.code = .unsupportedSyntax ∧ problem.maybeBug = v.isUnknown

theorem isSingle_tag (h : Visit.isReadScript config ⟨standing, .tag mark t body⟩ = false) :
    Visit.IsSingle config grammar ⟨standing, .tag mark t body⟩ := by
  simp only [Visit.IsSingle, Visit.own]
  split
  · exact .inr ⟨_, rfl, rfl, rfl⟩
  · rename_i hcontains
    have hallowed : t.name ∉ config.disallowedTags :=
      fun hmem => hcontains (List.contains_iff_mem.mpr hmem)
    split
    · rename_i hname
      split
      · rename_i problem hp
        exact .inr ⟨problem, rfl, fatal_of_scriptProblem? hp⟩
      · rename_i hp
        split
        · exact .inr ⟨_, rfl, rfl, rfl⟩
        · rename_i htop
          split
          · rename_i hd
            have hread : Visit.isReadScript config ⟨standing, .tag mark t body⟩ = true :=
              isReadScript_iff.mpr ⟨Decidable.not_not.mp htop,
                Node.isScript_tag.mpr ⟨hallowed, hname⟩, hp, hd⟩
            rw [h] at hread
            cases hread
          · exact .inl ⟨rfl, rfl⟩
    · split
      · exact .inl ⟨rfl, rfl⟩
      · exact .inr ⟨_, rfl, rfl, rfl⟩

/-- Every other node has at most one problem. -/
theorem isSingle_of_not_read {v : Visit} (h : v.isReadScript config = false) :
    v.IsSingle config grammar := by
  obtain ⟨standing, n⟩ := v
  cases n with
  | tag mark t body => exact isSingle_tag h
  | code mark c body =>
    cases body with
    | none => exact .inl ⟨rfl, rfl⟩
    | some b => exact .inr ⟨.codeBlock, rfl, rfl, rfl⟩
  | branch mark test body =>
    by_cases hb : standing = .branch
    · exact .inl ⟨by simp [Visit.own, hb], by simp [Visit.isUnknown, hb]⟩
    · refine .inr ⟨.unknownKind NodeKind.branch.name, ?_, rfl, ?_⟩
      · simp [Visit.own, hb, Visit.place, Node.position, Node.mark]
      · simp [Visit.isUnknown, hb, Problem.maybeBug]
  | switch mark subject b =>
    cases hp : caseProblem? b.nodes with
    | none => exact .inl ⟨by simp [Visit.own, hp], rfl⟩
    | some found =>
      obtain ⟨hcode, hbug⟩ := fatal_of_caseProblem? hp
      exact .inr ⟨found.1, by simp [Visit.own, Visit.place, hp], hcode, hbug⟩
  | other mark kind => exact .inr ⟨.unknownKind kind, rfl, rfl, rfl⟩
  | block _ => exact .inl ⟨rfl, rfl⟩
  | text _ _ => exact .inl ⟨rfl, rfl⟩
  | conditional _ => exact .inl ⟨rfl, rfl⟩
  | each _ _ _ _ => exact .inl ⟨rfl, rfl⟩

end Shape

theorem ownShape (config : Config) (grammar : Grammar) (v : Visit) :
    v.OwnShape config grammar where
  single h := by
    rcases isSingle_of_not_read h with ⟨hnil, -⟩ | ⟨problem, hown, hcode, hbug⟩
    · rw [hnil]
      exact ⟨Nat.zero_le 1, List.forall_mem_nil _⟩
    · rw [hown]
      refine ⟨Nat.le_refl 1, ?_⟩
      intro d hd
      cases List.mem_singleton.mp hd
      exact ⟨hcode, rfl, congrArg (!·) hbug, hbug⟩
  unknown h := by
    have hread : v.isReadScript config = false := by
      obtain ⟨standing, n⟩ := v
      cases n with
      | branch _ _ _ => simp [Visit.isReadScript, Node.scriptSource?]
      | other _ _ => simp [Visit.isReadScript, Node.scriptSource?]
      | _ => cases h
    rcases isSingle_of_not_read hread with ⟨-, hknown⟩ | ⟨problem, hown, -, -⟩
    · rw [h] at hknown
      cases hknown
    · rw [hown]
      rfl
  script := by
    intro mark t body hnode hread
    obtain ⟨standing, n⟩ := v
    cases hnode
    rw [own_of_isReadScript hread]
    exact sublist_scriptOwn config grammar mark body

/-- A document has a result exactly if its scripts can be read. The diagnostics of the result are
the problems of the visited nodes, one after the other, and one of them is fatal exactly if a visited
node has a fatal problem. -/
theorem diagnostics_lowerDocument (config : Config) (grammar : Grammar) (root : Node) :
    (match (lowerDocument (.standard config grammar.reader) root).2 with
      | .ok report => ReadableDocument config grammar root ∧
          report.diagnostics = (root.visits (Visit.isEntered config) .document).flatMap
            (Visit.own config grammar) ∧
          report.hasFatal = (root.visits (Visit.isEntered config) .document).any fun v =>
            (v.own config grammar).any Diagnostic.isFatal
      | .error _ => ¬ReadableDocument config grammar root) ∧
      ∀ v : Visit, v.OwnShape config grammar := by
  refine ⟨?_, ownShape config grammar⟩
  apply outcome_lowerDocument
  intro hread
  have hdiagnostics := diagnostics_documentEvents hread
  refine ⟨hdiagnostics, ?_⟩
  rw [Report.hasFatal, documentReport, hdiagnostics, Node.reports, List.any_flatMap]

/-- A document with template script on a tag with attribute blocks, around a node of an unknown
kind. -/
def attributedScript : Node :=
  .block (.mk {} [.tag {}
    { name := "script"
      attributes := [{ name := "type", value := .source "'text/molosser'" }]
      attributeBlocks := ["x"] }
    (some (.mk {} [.other {} "Comment"]))])

/-- A walk that never goes on inside tags with attribute blocks misses problems: template script is
lowered without a look at them. -/
theorem diagnostics_ne_of_attributeBlocks :
    ∃ report,
      (lowerDocument (.standard {} (Grammar.reader fun _ _ => {})) attributedScript).2 =
          .ok report ∧
        report.diagnostics ≠ (attributedScript.visits (fun v => v.isEntered {} &&
          match v.node with
          | .tag _ t _ => t.attributeBlocks.isEmpty
          | _ => true) .document).flatMap (Visit.own {} fun _ _ => {}) := by
  refine ⟨_, rfl, ?_⟩
  decide

end Lowering
