import Lowering.Proofs.AttributeLists
import Lowering.Proofs.Reading

/-!
# The meaning of templates and of output

A template shows something once it is known which tests hold, how long the collections are, and
which values agree with each other. What it shows is a list of actions: elements that are opened and
closed, text, and code. Output trees show something in the same sense. Lowering is correct if both
show the same, whatever the environment.

* `Node.meaning`: what a node of a template shows;
* `Output.meaning`: what a node of the output shows;
* `meaning_outputs`: a node shows what its outputs show;
* `meaning_lowerDocument`: a document shows what its result shows.
-/

namespace Lowering

/-- What expressions come out as: whether a test holds, how long a collection is, and whether the
value of a case distinction agrees with that of a branch. -/
structure Environment where
  holds : Text → Bool
  size : Text → Nat
  agrees : Text → Text → Bool

/-- A piece of what is shown. -/
inductive Action where
  | opened (name : Text) (attributes : List Attribute)
  | closed (name : Text)
  | text (value : Text)
  | code (buffer : Bool) (source : Text)
deriving DecidableEq, Repr

/-! ## Choices -/

/-- A branch of a choice: its test, none for the default, and what it shows, none if it falls
through. -/
structure Clause where
  test : Option Text
  shown : Option (List Action)

namespace Clause

/-- A clause other than the default whose test agrees with the subject. -/
def isMet (env : Environment) (subject : Text) (c : Clause) : Bool :=
  c.test.any (env.agrees subject)

/-- The clauses from the one on that is chosen: the first that is met, or else the default. -/
def chosen (env : Environment) (subject : Text) (clauses : List Clause) : List Clause :=
  match clauses.dropWhile fun c => !c.isMet env subject with
  | [] => clauses.dropWhile fun c => c.test.isSome
  | met => met

/-- What a choice shows: clauses without contents fall through to the next one with contents. -/
def choose (env : Environment) (subject : Text) (clauses : List Clause) : List Action :=
  ((chosen env subject clauses).findSome? shown).getD []

end Clause

/-- What a repetition shows: its contents as often as the collection is long, or what stands for an
empty collection. -/
def repeated (env : Environment) (collection : Text) (shown : List Action)
    (alternate : Option (List Action)) : List Action :=
  match env.size collection, alternate with
  | 0, some alternate => alternate
  | size, _ => (List.replicate size shown).flatten

/-! ## Templates -/

mutual

/-- What a node shows. A node that is refused shows nothing, and neither does script. -/
def Node.meaning (env : Environment) (config : Config) : Node → List Action
  | .block b => b.meaning env config
  | .tag _ t body =>
    if t.IsElement config then
      .opened t.name (shownAttributes config t.attributes) ::
        ((bodyMeaning env config body).getD [] ++ [.closed t.name])
    else []
  | .code _ c body =>
    if body = none ∧ Text.trim c.value ≠ [] then [.code c.buffer (Text.trim c.value)] else []
  | .text _ value => [.text value]
  | .switch _ subject (.mk _ nodes) =>
    if IsCase nodes then Clause.choose env subject (branchClauses env config nodes) else []
  | .conditional chain => chain.meaning env config
  | .each _ loop body alternate =>
    repeated env loop.collection (body.meaning env config) (bodyMeaning env config alternate)
  | .branch _ _ _ | .other _ _ => []

/-- What the nodes of a block show, one after the other. -/
def Block.meaning (env : Environment) (config : Config) : Block → List Action
  | .mk _ nodes => nodesMeaning env config nodes

/-- What nodes show, one after the other. -/
def nodesMeaning (env : Environment) (config : Config) : List Node → List Action
  | [] => []
  | n :: rest => n.meaning env config ++ nodesMeaning env config rest

/-- What a body shows, if there is one. -/
def bodyMeaning (env : Environment) (config : Config) : Option Block → Option (List Action)
  | none => none
  | some b => some (b.meaning env config)

/-- The branches among nodes as clauses. -/
def branchClauses (env : Environment) (config : Config) : List Node → List Clause
  | [] => []
  | .branch _ test body :: rest =>
    ⟨if test = defaultTest then none else some test, bodyMeaning env config body⟩ ::
      branchClauses env config rest
  | _ :: rest => branchClauses env config rest

/-- What a conditional shows: the block of the first link whose test holds, or the last one. -/
def Conditional.meaning (env : Environment) (config : Config) : Conditional → List Action
  | .mk _ test consequent alternate =>
    if env.holds test then consequent.meaning env config else alternateMeaning env config alternate

/-- What a conditional shows when its test fails. -/
def alternateMeaning (env : Environment) (config : Config) : Option Alternate → List Action
  | none => []
  | some (.block b) => b.meaning env config
  | some (.chain chain) => chain.meaning env config

end

/-! ## Output -/

namespace Output

mutual

/-- What a node of the output shows. -/
def meaning (env : Environment) : Output → List Action
  | ⟨kind, name, value, attributes, _, children, _⟩ =>
    match kind with
    | .element =>
      .opened (name.getD []) attributes :: (meaningAll env children ++ [.closed (name.getD [])])
    | .fragment => meaningAll env children
    | .text => [.text (value.getD [])]
    | .expression => [.code true (value.getD [])]
    | .statement => [.code false (value.getD [])]
    | .conditional =>
      match children with
      | [consequent, alternate] =>
        if env.holds (value.getD []) then consequent.meaning env else alternate.meaning env
      | _ => []
    | .iteration =>
      match children with
      | [body] => repeated env (value.getD []) (body.meaning env) none
      | [body, alternate] =>
        repeated env (value.getD []) (body.meaning env) (some (alternate.meaning env))
      | _ => []
    | .switch => Clause.choose env (value.getD []) (clauses env children)
    | .switchCase | .null => []

/-- What nodes of the output show, one after the other. -/
def meaningAll (env : Environment) : List Output → List Action
  | [] => []
  | node :: rest => node.meaning env ++ meaningAll env rest

/-- The cases of a switch as clauses. -/
def clauses (env : Environment) : List Output → List Clause
  | [] => []
  | ⟨_, _, value, _, _, children, _⟩ :: rest =>
    ⟨value, firstMeaning env children⟩ :: clauses env rest

/-- What the first node shows, if there is one. -/
def firstMeaning (env : Environment) : List Output → Option (List Action)
  | [] => none
  | node :: _ => some (node.meaning env)

end

variable (env : Environment)

theorem meaningAll_append (xs ys : List Output) :
    meaningAll env (xs ++ ys) = meaningAll env xs ++ meaningAll env ys := by
  induction xs with
  | nil => simp [meaningAll]
  | cons node rest ih => simp [meaningAll, ih]

theorem meaningAll_singleton (node : Output) : meaningAll env [node] = node.meaning env := by
  simp [meaningAll]

@[simp] theorem meaning_fragment (children : List Output) :
    (fragment children).meaning env = meaningAll env children := by
  simp [fragment, meaning]

@[simp] theorem meaning_null : null.meaning env = [] := by
  simp [null, meaning]

@[simp] theorem meaning_text (value : Text) (location : Position) :
    (text value location).meaning env = [.text value] := by
  simp [text, meaning]

end Output

/-! ## The outputs of constructs -/

section Constructs

variable (env : Environment)

theorem meaning_elementOutput (config : Config) (mark : Mark) (tag : Tag)
    (children : List Output) :
    (elementOutput config mark tag children).meaning env =
      .opened tag.name (shownAttributes config tag.attributes) ::
        (Output.meaningAll env children ++ [.closed tag.name]) := by
  simp [elementOutput, Output.meaning, lowerAttributes_eq_shownAttributes]

theorem meaning_codeOutput (mark : Mark) (code : Code) :
    (codeOutput mark code).meaning env = [.code code.buffer (Text.trim code.value)] := by
  cases h : code.buffer <;> simp [codeOutput, Output.meaning, h]

theorem meaning_conditionalOutput (mark : Mark) (test : Text) (consequent : List Output)
    (alternate : Output) :
    (conditionalOutput mark test consequent alternate).meaning env =
      if env.holds test then Output.meaningAll env consequent else alternate.meaning env := by
  simp [conditionalOutput, Output.meaning]

theorem meaning_iterationOutput (mark : Mark) (loop : Loop) (body : List Output)
    (alternate : Option (List Output)) :
    (iterationOutput mark loop body alternate).meaning env =
      repeated env loop.collection (Output.meaningAll env body)
        (alternate.map (Output.meaningAll env)) := by
  cases alternate <;> simp [iterationOutput, Output.meaning]

theorem meaning_switchOutput (mark : Mark) (subject : Text) (cases : List Output) :
    (switchOutput mark subject cases).meaning env =
      Clause.choose env subject (Output.clauses env cases) := by
  simp [switchOutput, Output.meaning]

theorem clauses_switchCase (mark : Mark) (test : Text) (children : Option (List Output))
    (rest : List Output) :
    Output.clauses env (switchCase mark test children :: rest) =
      ⟨if test = defaultTest then none else some test, children.map (Output.meaningAll env)⟩ ::
        Output.clauses env rest := by
  cases children <;> simp [switchCase, Output.clauses, Output.firstMeaning]

end Constructs

/-! ## Lowering keeps the meaning -/

section Lowering

variable (env : Environment) (config : Config) (reader : ScriptReader)

/-- A block that shows what its outputs show. -/
def Block.IsKept (b : Block) : Prop :=
  Output.meaningAll env (b.outputs (.standard config reader)) = b.meaning env config

variable {env config reader}

theorem Block.isKept_of_nodes {b : Block}
    (h : ∀ n ∈ b.nodes, Output.meaningAll env (n.outputs (.standard config reader)) =
      n.meaning env config) : b.IsKept env config reader := by
  obtain ⟨mark, nodes⟩ := b
  simp only [Block.IsKept, Block.outputs, Block.nodes, Block.meaning] at h ⊢
  induction nodes with
  | nil => simp [Output.meaningAll, nodesMeaning]
  | cons n rest ih =>
    rw [List.forall_mem_cons] at h
    rw [List.flatMap_cons, Output.meaningAll_append, h.1, ih h.2, nodesMeaning]

theorem meaning_bodyOutputs {body : Option Block}
    (h : ∀ b ∈ body.toList, b.IsKept env config reader) :
    (body.map (Block.outputs (.standard config reader))).map (Output.meaningAll env) =
      bodyMeaning env config body := by
  cases body with
  | none => simp [bodyMeaning]
  | some b =>
    have hb : Output.meaningAll env (b.outputs (.standard config reader)) =
        b.meaning env config := h b (by simp)
    simp [bodyMeaning, hb]

theorem clauses_caseOutputs {nodes : List Node}
    (h : ∀ b ∈ nodes.filterMap Node.branchBody?, b.IsKept env config reader) :
    Output.clauses env (nodes.filterMap (Node.caseOutput? (.standard config reader))) =
      branchClauses env config nodes := by
  induction nodes with
  | nil => simp [Output.clauses, branchClauses]
  | cons n rest ih =>
    cases n with
    | branch mark test body =>
      rw [Node.filterMap_branchBody?_cons, List.forall_mem_append] at h
      simp only [List.filterMap_cons, Node.caseOutput?]
      rw [clauses_switchCase, ih h.2, meaning_bodyOutputs h.1, branchClauses]
    | _ =>
      simp only [List.filterMap_cons, Node.caseOutput?, branchClauses]
      exact ih h

mutual

/-- The step from the blocks of a conditional, along all its links. -/
theorem meaning_lowerConditional :
    (chain : Conditional) → (∀ b ∈ chain.blocks, b.IsKept env config reader) →
      (lowerConditional (.standard config reader) chain).value.meaning env =
        chain.meaning env config
  | .mk mark test consequent alternate, h => by
    simp only [Conditional.blocks, List.forall_mem_cons, Block.IsKept] at h
    rw [value_lowerConditional, meaning_conditionalOutput, Conditional.meaning, h.1,
      meaning_lowerAlternate alternate h.2]

theorem meaning_lowerAlternate :
    (alternate : Option Alternate) →
      (∀ b ∈ alternateBlocks alternate, b.IsKept env config reader) →
      (lowerAlternate (.standard config reader) alternate).value.meaning env =
        alternateMeaning env config alternate
  | none, _ => by
    rw [value_lowerAlternate_none, Output.meaning_null, alternateMeaning]
  | some (.block b), h => by
    simp only [alternateBlocks, List.mem_singleton, forall_eq, Block.IsKept] at h
    rw [value_lowerAlternate_block, Output.meaning_fragment, alternateMeaning, h]
  | some (.chain chain), h => by
    simp only [alternateBlocks] at h
    rw [value_lowerAlternate_chain, alternateMeaning, meaning_lowerConditional chain h]

end

variable (env config reader)

/-- A node shows what its outputs show. -/
theorem meaning_outputs (n : Node) :
    Output.meaningAll env (n.outputs (.standard config reader)) = n.meaning env config := by
  induction n using Node.induct with
  | step n ih =>
    have hblocks : ∀ b ∈ n.blocks, b.IsKept env config reader :=
      fun b hb => Block.isKept_of_nodes (ih b hb)
    cases n with
    | block b =>
      rw [Node.outputs_block, Node.meaning]
      exact hblocks b (by simp [Node.blocks])
    | tag mark t body =>
      rw [Node.outputs_tag, Node.meaning]
      split
      · rw [Output.meaningAll_singleton, meaning_elementOutput, ← meaning_bodyOutputs hblocks]
        cases body <;> simp [Output.meaningAll]
      · simp [Output.meaningAll]
    | code mark c body =>
      rw [Node.outputs_code, Node.meaning]
      split
      · rw [Output.meaningAll_singleton, meaning_codeOutput]
      · simp [Output.meaningAll]
    | text mark value =>
      rw [Node.outputs_text, Output.meaningAll_singleton, Output.meaning_text, Node.meaning]
    | branch mark test body =>
      rw [Node.outputs_branch, Node.meaning, Output.meaningAll]
    | switch mark subject b =>
      obtain ⟨blockMark, nodes⟩ := b
      have hclauses : Output.clauses env
          (nodes.filterMap (Node.caseOutput? (.standard config reader))) =
            branchClauses env config nodes := clauses_caseOutputs hblocks
      rw [Node.outputs_switch, Node.meaning]
      split
      · rw [Output.meaningAll_singleton, meaning_switchOutput, hclauses]
      · simp [Output.meaningAll]
    | conditional chain =>
      rw [Node.outputs_conditional, Output.meaningAll_singleton, Node.meaning]
      exact meaning_lowerConditional chain hblocks
    | each mark loop body alternate =>
      simp only [Node.blocks, List.forall_mem_cons] at hblocks
      rw [Node.outputs_each, Output.meaningAll_singleton, meaning_iterationOutput, Node.meaning,
        meaning_bodyOutputs hblocks.2]
      exact congrArg (repeated env loop.collection · _) hblocks.1
    | other mark kind =>
      rw [Node.outputs_other, Node.meaning, Output.meaningAll]

end Lowering

/-- A document has a result exactly if its scripts can be read, and in every environment its render
tree shows what the document shows. -/
theorem meaning_lowerDocument (env : Environment) (config : Config) (grammar : Grammar)
    (root : Node) :
    match (lowerDocument (.standard config grammar.reader) root).2 with
    | .ok report => ReadableDocument config grammar root ∧
        Output.meaningAll env report.render = root.meaning env config
    | .error _ => ¬ReadableDocument config grammar root := by
  apply outcome_lowerDocument
  intro _
  exact meaning_outputs env config grammar.reader root

end Lowering
