import Lowering.Proofs.Visits

/-!
# Images of template nodes

Every node of a template that is shown in the output is shown by one output node, its image, and
the images come in the order of the walk over the template. Between them the output has nothing but
fragments and null literals.

* `Image`: what the image of a node has of it;
* `Visit.isShown`: whether a visited node has an image, and the walk goes on inside it;
* `images_outputs`: the images in the output of a node are those of the nodes visited from it on;
* `lookup_tally`: a count by kind is the number of nodes of the kind;
* `images_lowerDocument`: the images and counts of a document.
-/

namespace Lowering

/-! ## Images -/

/-- A node as it is shown: the kind of output node, its name or value, and where it comes from. -/
structure Image where
  kind : Kind
  name : Option Text := none
  value : Option Text := none
  location : Position
deriving DecidableEq, Repr

namespace Output

/-- The image that an output node is; fragments and null literals are none. -/
def image? (o : Output) : Option Image :=
  match o.kind with
  | .fragment | .null => none
  | _ => some ⟨o.kind, o.name, o.value, o.location⟩

/-- The images in a forest, in pre-order. -/
def images (forest : List Output) : List Image :=
  (walk forest).filterMap image?

theorem images_append (xs ys : List Output) : images (xs ++ ys) = images xs ++ images ys := by
  rw [images, walk_append, List.filterMap_append]
  rfl

theorem images_flatMap {α : Type} (f : α → List Output) (xs : List α) :
    images (xs.flatMap f) = xs.flatMap fun x => images (f x) := by
  induction xs with
  | nil => rfl
  | cons x rest ih => rw [List.flatMap_cons, images_append, ih, List.flatMap_cons]

theorem images_singleton (o : Output) : images [o] = o.image?.toList ++ images o.children := by
  have hnode : o.walkNode = o :: walk o.children := by
    cases o
    rw [walkNode]
  rw [images, walk, walk, hnode]
  cases h : o.image? <;> simp [images, h]

theorem images_fragment (children : List Output) : images [fragment children] = images children :=
  images_singleton _

end Output

/-- The image of a template node. Blocks and nodes of unknown kinds have none. -/
def Node.image? : Node → Option Image
  | .tag mark t _ => some { kind := .element, name := some t.name, location := mark.position }
  | .code mark c _ =>
    some { kind := if c.buffer then .expression else .statement
           value := some (Text.trim c.value)
           location := mark.position }
  | .text mark value => some { kind := .text, value := some value, location := mark.position }
  | .branch mark test _ =>
    some { kind := .switchCase
           value := if test = defaultTest then none else some test
           location := mark.position }
  | .switch mark subject _ =>
    some { kind := .switch, value := some subject, location := mark.position }
  | .conditional (.mk mark test _ _) =>
    some { kind := .conditional, value := some test, location := mark.position }
  | .each mark loop _ _ =>
    some { kind := .iteration, value := some loop.collection, location := mark.position }
  | .block _ | .other _ _ => none

namespace Visit

/-- Whether a visited node is shown: tags that become elements, code without contents that is not
blank, case distinctions that can be lowered and their branches, and all blocks, texts, conditionals
and iterations. -/
def isShown (config : Config) : Visit → Bool
  | ⟨_, .tag _ t _⟩ => t.IsElement config
  | ⟨_, .code _ c body⟩ => body.isNone && Text.trim c.value ≠ []
  | ⟨_, .switch _ _ b⟩ => IsCase b.nodes
  | ⟨standing, .branch _ _ _⟩ => standing = .branch
  | ⟨_, .other _ _⟩ => false
  | ⟨_, .block _⟩ | ⟨_, .text _ _⟩ | ⟨_, .conditional _⟩ | ⟨_, .each _ _ _ _⟩ => true

/-- The image of a visited node, if it is shown. -/
def image? (config : Config) (v : Visit) : Option Image :=
  if v.isShown config then v.node.image? else none

end Visit

/-! ## Images along the walk -/

section Walk

variable (config : Config)

/-- The images of the nodes visited from a node on. -/
def Node.images (standing : Standing) (n : Node) : List Image :=
  (n.visits (Visit.isShown config) standing).filterMap (Visit.image? config)

/-- The images of the nodes visited in a block. -/
def Block.images (b : Block) : List Image :=
  b.nodes.flatMap (Node.images config .inner)

theorem images_hidden {v : Visit} (h : v.isShown config = false) (inside : List Visit) :
    (v.followed (Visit.isShown config) inside).filterMap (Visit.image? config) = [] := by
  simp [Visit.followed, Visit.image?, h]

theorem images_shown {v : Visit} (h : v.isShown config = true) (inside : List Visit) :
    (v.followed (Visit.isShown config) inside).filterMap (Visit.image? config) =
      v.node.image?.toList ++ inside.filterMap (Visit.image? config) := by
  cases hi : v.node.image? <;> simp [Visit.followed, Visit.image?, h, hi]

theorem images_nodesVisits (standing : Standing) (nodes : List Node) :
    (nodesVisits (Visit.isShown config) standing nodes).filterMap (Visit.image? config) =
      nodes.flatMap (Node.images config standing) := by
  induction nodes with
  | nil => simp [nodesVisits]
  | cons n rest ih => rw [nodesVisits, List.filterMap_append, ih, List.flatMap_cons, Node.images]

theorem images_blockVisits (b : Block) (standing : Standing) :
    (b.visits (Visit.isShown config) standing).filterMap (Visit.image? config) =
      b.nodes.flatMap (Node.images config standing) := by
  obtain ⟨mark, nodes⟩ := b
  rw [Block.visits, images_shown config rfl, images_nodesVisits]
  rfl

theorem images_bodyVisits (body : Option Block) :
    (bodyVisits (Visit.isShown config) body).filterMap (Visit.image? config) =
      body.elim [] (Block.images config) := by
  cases body with
  | none => simp [bodyVisits]
  | some b =>
    rw [bodyVisits, images_blockVisits]
    rfl

end Walk

/-! ## Images in the output -/

section Lowering

variable {config : Config} {reader : ScriptReader}

/-- A visited node is shown by an output node with its image, around the images of what is visited
inside it. -/
theorem images_of_shown {v : Visit} {o : Output} {inside : List Visit}
    (h : v.isShown config = true) (himage : o.image? = v.node.image?)
    (hchildren : Output.images o.children = inside.filterMap (Visit.image? config)) :
    Output.images [o] =
      (v.followed (Visit.isShown config) inside).filterMap (Visit.image? config) := by
  rw [Output.images_singleton, himage, hchildren, images_shown config h]

/-- Blocks whose nodes are shown in order, as the children of an output node. -/
theorem images_body {body : Option Block}
    (h : ∀ b ∈ body, Output.images (b.outputs (.standard config reader)) = b.images config) :
    Output.images (body.elim [] (Block.outputs (.standard config reader))) =
      (bodyVisits (Visit.isShown config) body).filterMap (Visit.image? config) := by
  rw [images_bodyVisits]
  cases body with
  | none => rfl
  | some b => exact h b rfl

theorem images_case (mark : Mark) (test : Text) {body : Option Block}
    (h : ∀ b ∈ body, Output.images (b.outputs (.standard config reader)) = b.images config) :
    Output.images [switchCase mark test (body.map (Block.outputs (.standard config reader)))] =
      (Node.branch mark test body).images config .branch := by
  rw [Node.images, Node.visits]
  refine images_of_shown rfl rfl ?_
  rw [← images_body h]
  cases body with
  | none => rfl
  | some b => exact Output.images_fragment _

/-- The branches of a case distinction are shown by its cases. -/
theorem images_branches {nodes : List Node} (h : ∀ n ∈ nodes, n.isBranch = true)
    (hbodies : ∀ b ∈ nodes.filterMap Node.branchBody?,
      Output.images (b.outputs (.standard config reader)) = b.images config) :
    Output.images (nodes.filterMap (Node.caseOutput? (.standard config reader))) =
      nodes.flatMap (Node.images config .branch) := by
  induction nodes with
  | nil => rfl
  | cons n rest ih =>
    rw [List.forall_mem_cons] at h
    cases n with
    | branch mark test body =>
      rw [Node.filterMap_branchBody?_cons, List.forall_mem_append] at hbodies
      have hcase := images_case mark test fun b hb => hbodies.1 b (Option.mem_toList.mpr hb)
      rw [List.flatMap_cons, ← ih h.2 hbodies.2, ← hcase, ← Output.images_append]
      rfl
    | _ => cases h.1

mutual

theorem images_conditional (standing : Standing) :
    (chain : Conditional) →
      (∀ b ∈ chain.blocks, Output.images (b.outputs (.standard config reader)) = b.images config) →
      Output.images [(lowerConditional (.standard config reader) chain).value] =
        (chain.visits (Visit.isShown config) standing).filterMap (Visit.image? config)
  | .mk mark test consequent alternate, h => by
    rw [Conditional.blocks, List.forall_mem_cons] at h
    rw [value_lowerConditional, Conditional.visits]
    refine images_of_shown rfl rfl ?_
    rw [conditionalOutput, List.filterMap_append, images_blockVisits,
      ← images_alternate alternate h.2]
    refine (Output.images_append [_] [_]).trans ?_
    rw [Output.images_fragment, h.1]
    rfl

theorem images_alternate :
    (alternate : Option Alternate) →
      (∀ b ∈ alternateBlocks alternate,
        Output.images (b.outputs (.standard config reader)) = b.images config) →
      Output.images [(lowerAlternate (.standard config reader) alternate).value] =
        (alternateVisits (Visit.isShown config) alternate).filterMap (Visit.image? config)
  | none, _ => by
    rw [value_lowerAlternate_none, alternateVisits]
    rfl
  | some (.block b), h => by
    rw [value_lowerAlternate_block, Output.images_fragment, h b (by simp [alternateBlocks]),
      alternateVisits, images_blockVisits]
    rfl
  | some (.chain chain), h => by
    rw [value_lowerAlternate_chain, alternateVisits]
    exact images_conditional .inner chain (by simpa only [alternateBlocks] using h)

end

theorem images_each (mark : Mark) (loop : Loop) {body : Block} {alternate : Option Block}
    (hbody : Output.images (body.outputs (.standard config reader)) = body.images config)
    (halternate : ∀ b ∈ alternate,
      Output.images (b.outputs (.standard config reader)) = b.images config) :
    Output.images (iterationOutput mark loop (body.outputs (.standard config reader))
        (alternate.map (Block.outputs (.standard config reader)))).children =
      (body.visits (Visit.isShown config) .inner ++
        bodyVisits (Visit.isShown config) alternate).filterMap (Visit.image? config) := by
  rw [List.filterMap_append, images_blockVisits, ← images_body halternate]
  cases alternate with
  | none =>
    refine (Output.images_fragment _).trans ?_
    rw [hbody]
    exact (List.append_nil _).symm
  | some b =>
    refine (Output.images_append [_] [_]).trans ?_
    rw [Output.images_fragment, Output.images_fragment, hbody]
    rfl

/-- The images in the output of a node are those of the nodes visited from it on. -/
theorem images_outputs (n : Node) :
    ∀ standing ≠ Standing.branch,
      Output.images (n.outputs (.standard config reader)) = n.images config standing := by
  induction n using Node.induct with
  | step n ih =>
    intro standing hstanding
    -- What is inside a node is shown in order; only the nodes of a block can stand higher up.
    have hblocks : ∀ b ∈ n.blocks,
        Output.images (b.outputs (.standard config reader)) = b.images config := by
      intro b hb
      rw [Block.outputs, Output.images_flatMap]
      exact List.flatMap_congr fun m hm => ih b hb m hm .inner (by decide)
    cases n with
    | block b =>
      have hbelow : standing.below ≠ .branch := by cases standing <;> decide
      rw [Node.outputs_block, Block.outputs, Output.images_flatMap]
      obtain ⟨mark, nodes⟩ := b
      rw [Node.images, Node.visits, images_shown config rfl, images_nodesVisits]
      exact List.flatMap_congr fun m hm => ih _ (by simp [Node.blocks]) m hm _ hbelow
    | tag mark t body =>
      rw [Node.outputs_tag, Node.images, Node.visits]
      split
      · rename_i h
        refine images_of_shown (decide_eq_true h) rfl ?_
        exact images_body fun b hb => hblocks b (Option.mem_toList.mpr hb)
      · rename_i h
        refine (images_hidden config ?_ _).symm
        exact decide_eq_false h
    | code mark c body =>
      rw [Node.outputs_code, Node.images, Node.visits]
      split
      · rename_i h
        have hbody : body = none := h.1
        subst hbody
        refine images_of_shown (by simp [Visit.isShown, h.2]) ?_ (by rw [bodyVisits]; rfl)
        cases hb : c.buffer <;> simp [codeOutput, Output.image?, Node.image?, hb]
      · rename_i h
        refine (images_hidden config ?_ _).symm
        simpa [Visit.isShown, Option.isNone_iff_eq_none] using h
    | text mark value =>
      rw [Node.outputs_text, Node.images, Node.visits]
      exact images_of_shown rfl rfl rfl
    | branch mark test body =>
      rw [Node.outputs_branch, Node.images, Node.visits]
      refine (images_hidden config ?_ _).symm
      exact decide_eq_false hstanding
    | switch mark subject b =>
      obtain ⟨blockMark, nodes⟩ := b
      rw [Node.outputs_switch, Node.images, Node.visits]
      split
      · rename_i h
        refine images_of_shown (decide_eq_true h) rfl ?_
        rw [images_blockVisits]
        exact images_branches h.1 hblocks
      · rename_i h
        refine (images_hidden config ?_ _).symm
        exact decide_eq_false h
    | conditional chain =>
      rw [Node.outputs_conditional, Node.images, Node.visits]
      exact images_conditional standing chain hblocks
    | each mark loop b alternate =>
      rw [Node.outputs_each, Node.images, Node.visits]
      refine images_of_shown rfl rfl (images_each mark loop (hblocks b (by simp [Node.blocks])) ?_)
      intro b' hb'
      exact hblocks b' (List.mem_cons_of_mem _ (Option.mem_toList.mpr hb'))
    | other mark kind =>
      rw [Node.outputs_other, Node.images, Node.visits]
      exact (images_hidden config rfl _).symm

end Lowering

/-! ## Counts -/

theorem lookup_bump (kind k : Kind) (counts : List (Kind × Nat)) :
    (bump kind counts).lookup k =
      if kind = k then some ((counts.lookup k).getD 0 + 1) else counts.lookup k := by
  have hcons : ∀ (other : Kind) (count : Nat) (rest : List (Kind × Nat)),
      ((other, count) :: rest).lookup k = if other = k then some count else rest.lookup k := by
    intro other count rest
    rw [List.lookup_cons]
    by_cases h : other = k
    · simp [h]
    · rw [beq_eq_false_iff_ne.mpr (Ne.symm h), if_neg h]
  induction counts with
  | nil => simp [bump, hcons]
  | cons entry rest ih =>
    obtain ⟨other, count⟩ := entry
    rw [bump]
    -- The entry is the one to count up, the one to look up, both, or neither.
    by_cases ho : other = kind
    · subst ho
      by_cases hk : other = k <;> simp [hcons, hk]
    · rw [if_neg ho, hcons, hcons, ih]
      by_cases hk : other = k
      · have hne : kind ≠ k := fun h => ho (hk.trans h.symm)
        simp [hk, hne]
      · simp [hk]

/-- Counting nodes adds their number to the count of their kind. -/
theorem lookup_foldl_bump (k : Kind) (nodes : List Output) (counts : List (Kind × Nat)) :
    (nodes.foldl (fun counts node => bump node.kind counts) counts).lookup k =
      if nodes.countP (fun o => o.kind = k) = 0 then counts.lookup k
      else some ((counts.lookup k).getD 0 + nodes.countP fun o => o.kind = k) := by
  induction nodes generalizing counts with
  | nil => rfl
  | cons node rest ih =>
    rw [List.foldl_cons, ih, lookup_bump, List.countP_cons]
    by_cases hk : node.kind = k
    · by_cases h0 : rest.countP (fun o => o.kind = k) = 0
      · simp [hk, h0]
      · simp [hk, h0]
        omega
    · simp [hk]

theorem lookup_tally (k : Kind) (forest : List Output) :
    (tally forest).lookup k =
      if (Output.walk forest).countP (fun o => o.kind = k) = 0 then none
      else some ((Output.walk forest).countP fun o => o.kind = k) := by
  rw [tally, lookup_foldl_bump]
  simp

/-- Whether a visited node is shown by an output node of a kind. -/
def Visit.isShownAs (config : Config) (kind : Kind) (v : Visit) : Bool :=
  (v.image? config).map Image.kind = some kind

theorem countP_images {α : Type} (k : Kind) (f : α → Option Image) (xs : List α) :
    (xs.filterMap f).countP (fun i => i.kind = k) =
      xs.countP fun x => (f x).map Image.kind = some k := by
  rw [List.countP_filterMap]
  congr 1
  funext x
  cases f x <;> simp

/-- Every node of a kind other than fragments and null literals is an image. -/
theorem countP_walk {k : Kind} (hf : k ≠ .fragment) (hn : k ≠ .null) (forest : List Output) :
    (Output.walk forest).countP (fun o => o.kind = k) =
      (Output.images forest).countP fun i => i.kind = k := by
  rw [Output.images, countP_images]
  congr 1
  funext o
  cases h : o.kind <;> simp [Output.image?, h, hf.symm, hn.symm]

/-! ## Documents -/

/-- A document has a result exactly if its scripts can be read. The images in its render tree are
those of the visited nodes, none lost, doubled or moved, and so the counts by kind are the numbers
of visited nodes that are shown as these kinds. -/
theorem images_lowerDocument (config : Config) (grammar : Grammar) (root : Node) :
    match (lowerDocument (.standard config grammar.reader) root).2 with
    | .ok report => ReadableDocument config grammar root ∧
        Output.images report.render = (root.visits (Visit.isShown config) .document).filterMap
          (Visit.image? config) ∧
        ∀ kind, kind ≠ .fragment → kind ≠ .null →
          (tally report.render).lookup kind =
            let count := (root.visits (Visit.isShown config) .document).countP
              (Visit.isShownAs config kind)
            if count = 0 then none else some count
    | .error _ => ¬ReadableDocument config grammar root := by
  apply outcome_lowerDocument
  intro _
  have himages : Output.images (root.outputs (.standard config grammar.reader)) =
      root.images config .document := images_outputs root .document (by decide)
  refine ⟨himages, ?_⟩
  intro kind hf hn
  have hcount : (Output.walk (root.outputs (.standard config grammar.reader))).countP
      (fun o => o.kind = kind) = (root.visits (Visit.isShown config) .document).countP
        (Visit.isShownAs config kind) := by
    rw [countP_walk hf hn, himages, Node.images, countP_images]
    rfl
  rw [documentReport, lookup_tally, hcount]

/-- A text, a tag around a conditional of two links, code and a script tag, which is not shown. -/
def shownDocument : Node :=
  .block (.mk {} [
    .text { line := some 1 } "a",
    .tag { line := some 2 } { name := "p" } (some (.mk {} [
      .conditional (.mk { line := some 3 } "x" (.mk {} [.text { line := some 4 } "b"])
        (some (.chain (.mk { line := some 5 } "y" .empty none)))),
      .tag {} { name := "script" } (some (.mk {} [.text {} "c"]))])),
    .code { line := some 6 } { value := "z", buffer := true } none])

theorem images_shownDocument :
    ∃ report,
      (lowerDocument (.standard {} (Grammar.reader fun _ _ => {})) shownDocument).2 =
          .ok report ∧
        Output.images report.render =
          [{ kind := .text, value := some "a", location := { line := 1 } },
            { kind := .element, name := some "p", location := { line := 2 } },
            { kind := .conditional, value := some "x", location := { line := 3 } },
            { kind := .text, value := some "b", location := { line := 4 } },
            { kind := .conditional, value := some "y", location := { line := 5 } },
            { kind := .expression, value := some "z", location := { line := 6 } }] ∧
        (tally report.render).lookup .conditional = some 2 := by
  have h := images_lowerDocument {} (fun _ _ => {}) shownDocument
  refine ⟨_, rfl, ?_, ?_⟩
  · exact h.2.1.trans (by decide)
  · exact (h.2.2 .conditional (by decide) (by decide)).trans (by decide)

end Lowering
