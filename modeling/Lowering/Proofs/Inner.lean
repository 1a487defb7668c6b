import Lowering.Template.Node

/-!
# Blocks inside nodes

Every construct of a template holds blocks, and blocks hold nodes. `Node.blocks` lists the blocks
directly inside a node; for a conditional these are the blocks of all its links, for a case
distinction the bodies of its branches.

* `Node.induct`: a property that passes from the nodes in these blocks to the node itself holds of
  every node. A proof about lowering uses it once, however deep constructs are nested in each other.
-/

namespace Lowering

mutual

/-- The blocks of a conditional and of all its further links, in order. -/
def Conditional.blocks : Conditional → List Block
  | .mk _ _ consequent alternate => consequent :: alternateBlocks alternate

/-- The blocks among which a conditional chooses when its test fails. -/
def alternateBlocks : Option Alternate → List Block
  | none => []
  | some (.block b) => [b]
  | some (.chain chain) => chain.blocks

end

namespace Node

/-- The body of a branch. -/
def branchBody? : Node → Option Block
  | .branch _ _ body => body
  | _ => none

/-- The blocks directly inside a node. -/
def blocks : Node → List Block
  | .block b => [b]
  | .tag _ _ body | .code _ _ body | .branch _ _ body => body.toList
  | .switch _ _ b => b.nodes.filterMap branchBody?
  | .conditional chain => chain.blocks
  | .each _ _ b alternate => b :: alternate.toList
  | .text _ _ | .other _ _ => []

theorem filterMap_branchBody?_cons (mark : Mark) (test : Text) (body : Option Block)
    (rest : List Node) :
    (Node.branch mark test body :: rest).filterMap branchBody? =
      body.toList ++ rest.filterMap branchBody? := by
  cases body <;> rfl

end Node

/-! ## Induction over nodes -/

theorem Block.sizeOf_node_lt {b : Block} {n : Node} (h : n ∈ b.nodes) : sizeOf n < sizeOf b := by
  obtain ⟨mark, nodes⟩ := b
  have hn : sizeOf n < sizeOf nodes := List.sizeOf_lt_of_mem h
  simp only [Block.mk.sizeOf_spec]
  omega

theorem sizeOf_lt_of_mem_toList {b : Block} {body : Option Block} (h : b ∈ body.toList) :
    sizeOf b < sizeOf body := by
  rw [Option.mem_toList] at h
  cases h
  simp only [Option.some.sizeOf_spec]
  omega

mutual

theorem Conditional.sizeOf_block_lt {b : Block} :
    (chain : Conditional) → b ∈ chain.blocks → sizeOf b < sizeOf chain
  | .mk mark test consequent alternate, h => by
    simp only [Conditional.blocks, List.mem_cons] at h
    simp only [Conditional.mk.sizeOf_spec]
    rcases h with rfl | h
    · omega
    · have := sizeOf_alternateBlock_lt alternate h
      omega

theorem sizeOf_alternateBlock_lt {b : Block} :
    (alternate : Option Alternate) → b ∈ alternateBlocks alternate → sizeOf b < sizeOf alternate
  | none, h => by simp [alternateBlocks] at h
  | some (.block block), h => by
    simp only [alternateBlocks, List.mem_singleton] at h
    subst h
    simp only [Option.some.sizeOf_spec, Alternate.block.sizeOf_spec]
    omega
  | some (.chain chain), h => by
    have := chain.sizeOf_block_lt (by simpa only [alternateBlocks] using h)
    simp only [Option.some.sizeOf_spec, Alternate.chain.sizeOf_spec]
    omega

end

namespace Node

theorem sizeOf_branchBody_lt {n : Node} {b : Block} (h : n.branchBody? = some b) :
    sizeOf b < sizeOf n := by
  cases n with
  | branch mark test body =>
    cases h
    simp only [branch.sizeOf_spec, Option.some.sizeOf_spec]
    omega
  | _ => cases h

theorem sizeOf_block_lt {n : Node} {b : Block} (h : b ∈ n.blocks) : sizeOf b < sizeOf n := by
  cases n with
  | block b' =>
    simp only [blocks, List.mem_singleton] at h
    subst h
    simp only [block.sizeOf_spec]
    omega
  | tag mark tag body =>
    have := sizeOf_lt_of_mem_toList h
    simp only [Node.tag.sizeOf_spec]
    omega
  | code mark code body =>
    have := sizeOf_lt_of_mem_toList h
    simp only [Node.code.sizeOf_spec]
    omega
  | text mark value => cases h
  | branch mark test body =>
    have := sizeOf_lt_of_mem_toList h
    simp only [branch.sizeOf_spec]
    omega
  | switch mark subject body =>
    obtain ⟨n, hn, hb⟩ := List.mem_filterMap.mp h
    have h₁ := Block.sizeOf_node_lt hn
    have h₂ := sizeOf_branchBody_lt hb
    simp only [switch.sizeOf_spec]
    omega
  | conditional chain =>
    have := chain.sizeOf_block_lt h
    simp only [conditional.sizeOf_spec]
    omega
  | each mark loop body alternate =>
    simp only [each.sizeOf_spec]
    rcases List.mem_cons.mp h with rfl | h
    · omega
    · have := sizeOf_lt_of_mem_toList h
      omega
  | other mark kind => cases h

/-- A property holds of every node if it passes from the nodes in the blocks inside a node to that
node. -/
theorem induct {motive : Node → Prop}
    (step : ∀ n : Node, (∀ b ∈ n.blocks, ∀ m ∈ b.nodes, motive m) → motive n) (n : Node) :
    motive n :=
  step n fun _ hb m hm =>
    have : sizeOf m < sizeOf n := Nat.lt_trans (Block.sizeOf_node_lt hm) (sizeOf_block_lt hb)
    induct step m
termination_by sizeOf n

end Node

end Lowering
