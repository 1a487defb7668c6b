import Mathlib.Data.List.TakeWhile
import Lowering.Proofs.Threading
import Lowering.Proofs.Visits

/-!
# Nodes that leave nothing behind

A run of the pass for nodes of any kind adds output at the place of its node, hoists statements to
the module, or leaves a diagnostic. A node with a problem of its own never adds output at its place,
and there are few nodes of which nothing at all is left.

* `Silent`: the nodes of which nothing is left: blank code, script without statements, and blocks of
  such nodes;
* `silent_iff_of_faults_nil`: lowering leaves nothing of a node exactly if it is silent;
* `Pass.own`, `Pass.below`: the problems of the node of a run, and those of the nodes inside it;
* `Pass.run_accounts_for_node`: what a run that ends has done with its node.
-/

namespace Lowering

/-! ## Silent nodes -/

/-- A node of which nothing is left at a place. -/
inductive Silent (config : Config) (grammar : Grammar) : Place → Node → Prop where
  /-- Blank code without contents. -/
  | code {place : Place} {mark : Mark} {c : Code} (hblank : Text.isBlankText c.value = true) :
    Silent config grammar place (.code mark c none)
  /-- A block of silent nodes. -/
  | block {place : Place} {mark : Mark} {nodes : List Node}
    (hnodes : ∀ n ∈ nodes, Silent config grammar { topLevel := place.documentRoot } n) :
    Silent config grammar place (.block (.mk mark nodes))
  /-- Script in the primary dialect that is blank or has no statements. -/
  | script {place : Place} {mark : Mark} {t : Tag} {body : Option Block}
    (htop : place.topLevel = true) (hscript : t.HoldsScript config)
    (hprimary : t.dialect config = config.primaryDialect) (hmarkup : hasMarkup body = false)
    (hempty : Text.isBlankText (scriptSource body) = true ∨
      (scriptTree config grammar body).hasError = false ∧
        (scriptTree config grammar body).statements = []) :
    Silent config grammar place (.tag mark t body)
  /-- Script in the template dialect without contents or with silent ones. -/
  | template {place : Place} {mark : Mark} {t : Tag} {body : Option Block}
    (htop : place.topLevel = true) (hscript : t.HoldsScript config)
    (htemplate : t.dialect config ≠ config.primaryDialect)
    (hbody : ∀ b ∈ body, Silent config grammar {} (.block b)) :
    Silent config grammar place (.tag mark t body)

theorem Text.trim_eq_nil_iff {t : Text} : Text.trim t = [] ↔ Text.isBlankText t = true := by
  rw [Text.trim, Text.trimList, List.reverse_eq_nil_iff, List.dropWhile_eq_nil_iff,
    Text.isBlankText, List.all_eq_true]
  simp only [List.mem_reverse]
  constructor
  · intro h p hp
    have hsplit : p ∈ t.takeWhile Text.isBlank ++ t.dropWhile Text.isBlank := by
      rwa [List.takeWhile_append_dropWhile]
    rcases List.mem_append.mp hsplit with hp | hp
    · exact List.mem_takeWhile_imp hp
    · exact h p hp
  · intro h p hp
    exact h p ((List.dropWhile_sublist _).subset hp)

section Silence

variable {config : Config} {grammar : Grammar}

theorem silent_block_iff {place : Place} {b : Block} :
    Silent config grammar place (.block b) ↔
      ∀ n ∈ b.nodes, Silent config grammar { topLevel := place.documentRoot } n := by
  obtain ⟨mark, nodes⟩ := b
  constructor
  · rintro ⟨⟩
    assumption
  · exact .block

theorem silent_code_iff {place : Place} {mark : Mark} {c : Code} {body : Option Block} :
    Silent config grammar place (.code mark c body) ↔
      body = none ∧ Text.isBlankText c.value = true := by
  constructor
  · rintro ⟨⟩
    exact ⟨rfl, by assumption⟩
  · rintro ⟨rfl, hblank⟩
    exact .code hblank

/-- A silent tag holds script that stands directly in the document. -/
theorem holdsScript_of_silent {place : Place} {mark : Mark} {t : Tag} {body : Option Block}
    (h : Silent config grammar place (.tag mark t body)) :
    place.topLevel = true ∧ t.HoldsScript config := by
  cases h with
  | script htop hscript _ _ _ => exact ⟨htop, hscript⟩
  | template htop hscript _ _ => exact ⟨htop, hscript⟩

/-- Inside a document only blank code and blocks of it leave nothing. -/
theorem silent_inner_iff (config : Config) (grammar : Grammar) (n : Node) :
    n.outputs (.standard config grammar.reader) = [] ∧
        n.events (.standard config grammar.reader) false = [] ↔
      Silent config grammar {} n := by
  induction n using Node.induct with
  | step n ih =>
    cases h : n.refusal? config with
    | some found =>
      rw [Node.events_of_refusal h]
      refine iff_of_false (fun hnil => List.cons_ne_nil _ _ hnil.2) ?_
      intro hsilent
      cases hsilent with
      | code _ => simp [Node.refusal?] at h
      | block _ => cases h
      | script htop _ _ _ _ => cases htop
      | template htop _ _ _ => cases htop
    | none =>
      rw [Node.events_of_accepted h]
      cases n with
      | block b =>
        rw [Node.outputs_block, silent_block_iff, Node.blocks, List.flatMap_singleton,
          Block.outputs, Block.events, List.flatMap_eq_nil_iff, List.flatMap_eq_nil_iff,
          ← forall₂_and]
        exact forall₂_congr fun m hm => ih b (by simp [Node.blocks]) m hm
      | tag mark t body =>
        rw [Node.outputs_tag, if_pos (Node.refusal?_tag_eq_none_iff.mp h)]
        refine iff_of_false (fun hnil => List.cons_ne_nil _ _ hnil.1) fun hsilent => ?_
        cases (holdsScript_of_silent hsilent).1
      | code mark c body =>
        have hbody : body = none := by simpa [Node.refusal?] using h
        subst hbody
        rw [silent_code_iff, ← Text.trim_eq_nil_iff, Node.outputs_code]
        simp [Node.blocks]
      | text mark value =>
        rw [Node.outputs_text]
        exact iff_of_false (fun hnil => List.cons_ne_nil _ _ hnil.1) (by rintro ⟨⟩)
      | switch mark subject b =>
        obtain ⟨blockMark, nodes⟩ := b
        have hcase : IsCase nodes := caseProblem?_eq_none_iff.mp h
        rw [Node.outputs_switch, if_pos hcase]
        exact iff_of_false (fun hnil => List.cons_ne_nil _ _ hnil.1) (by rintro ⟨⟩)
      | conditional chain =>
        rw [Node.outputs_conditional]
        exact iff_of_false (fun hnil => List.cons_ne_nil _ _ hnil.1) (by rintro ⟨⟩)
      | each mark loop body alternate =>
        rw [Node.outputs_each]
        exact iff_of_false (fun hnil => List.cons_ne_nil _ _ hnil.1) (by rintro ⟨⟩)
      | branch _ _ _ => cases h
      | other _ _ => cases h

/-- Only script depends on whether a node stands directly in the document. -/
theorem silent_topLevel_iff_inner {n : Node} (h : n.isScript config = false) :
    Silent config grammar { topLevel := true } n ↔ Silent config grammar {} n := by
  cases n with
  | block b => rw [silent_block_iff, silent_block_iff]
  | code mark c body => rw [silent_code_iff, silent_code_iff]
  | tag mark t body =>
    refine iff_of_false (fun hsilent => ?_) fun hsilent => ?_
    · have hscript := ((holdsScript_iff mark body).mp (holdsScript_of_silent hsilent).2).1
      rw [h] at hscript
      cases hscript
    · cases (holdsScript_of_silent hsilent).1
  | _ => exact iff_of_false (by rintro ⟨⟩) (by rintro ⟨⟩)

theorem diagnostics_eq_nil_iff {events : List Event} (h : ∀ e ∈ events, ∃ d, e = .diagnosed d) :
    Event.diagnostics events = [] ↔ events = [] := by
  constructor
  · intro hnil
    rw [List.eq_nil_iff_forall_not_mem]
    intro e he
    obtain ⟨d, rfl⟩ := h e he
    exact absurd (List.filterMap_eq_nil_iff.mp hnil _ he) (Option.some_ne_none d)
  · rintro rfl
    rfl

theorem events_block (b : Block) :
    (Node.block b).events (.standard config grammar.reader) false =
      b.events (.standard config grammar.reader) := by
  rw [Node.events_of_accepted rfl, Node.blocks, List.flatMap_singleton]

/-- Nothing is left of script in the primary dialect if it is blank or has no statements. -/
theorem silent_script_iff {mark : Mark} {t : Tag} {body : Option Block}
    (hscript : t.HoldsScript config) (hprimary : t.dialect config = config.primaryDialect)
    (hread : Readable (scriptSource body) (scriptTree config grammar body)) :
    (Event.diagnostics
          ((Node.tag mark t body).events (.standard config grammar.reader) true) = [] ∧
        Event.statements
          ((Node.tag mark t body).events (.standard config grammar.reader) true) = []) ↔
      Silent config grammar { topLevel := true } (.tag mark t body) := by
  obtain ⟨hs, hp⟩ := (holdsScript_iff mark body).mp hscript
  have hsilent : Silent config grammar { topLevel := true } (.tag mark t body) ↔
      hasMarkup body = false ∧ (Text.isBlankText (scriptSource body) = true ∨
        (scriptTree config grammar body).hasError = false ∧
          (scriptTree config grammar body).statements = []) := by
    constructor
    · intro h
      cases h with
      | script _ _ _ hmarkup hempty => exact ⟨hmarkup, hempty⟩
      | template _ _ htemplate _ => exact absurd hprimary htemplate
    · rintro ⟨hmarkup, hempty⟩
      exact .script rfl hscript hprimary hmarkup hempty
  rw [hsilent, Node.events_script_primary hs hp hprimary]
  simp only [Event.diagnostics_append, Event.statements_append,
    diagnostics_lowerScriptText_of_readable hread, statements_lowerScriptText,
    value_lowerScriptText_of_readable hread, Event.statements_hoisted]
  cases hasMarkup body <;> cases Text.isBlankText (scriptSource body) <;>
    cases (scriptTree config grammar body).hasError <;>
    simp [Event.diagnostics, Event.statements]

/-- Nothing is left of script in the template dialect if nothing is left of its contents. -/
theorem silent_template_iff {mark : Mark} {t : Tag} {body : Option Block}
    (hscript : t.HoldsScript config) (htemplate : t.dialect config ≠ config.primaryDialect) :
    (Event.diagnostics
          ((Node.tag mark t body).events (.standard config grammar.reader) true) = [] ∧
        Event.statements
          ((Node.tag mark t body).events (.standard config grammar.reader) true) = []) ↔
      Silent config grammar { topLevel := true } (.tag mark t body) := by
  obtain ⟨hs, hp⟩ := (holdsScript_iff mark body).mp hscript
  have hsilent : Silent config grammar { topLevel := true } (.tag mark t body) ↔
      ∀ b ∈ body, Silent config grammar {} (.block b) := by
    constructor
    · intro h
      cases h with
      | script _ _ hprimary _ _ => exact absurd hprimary htemplate
      | template _ _ _ hbody => exact hbody
    · exact .template rfl hscript htemplate
  have hevents := diagnosed_of_mem_bodyEvents config grammar.reader body
  rw [hsilent, Node.events_script_template hs hp htemplate, Event.diagnostics_append,
    Event.statements_append, Event.statements_eq_nil hevents, Event.statements_hoisted,
    List.nil_append, List.map_eq_nil_iff]
  have hhoisted (items : List Item) :
      Event.diagnostics [.hoisted (t.dialect config) items] = [] := rfl
  rw [hhoisted, List.append_nil, diagnostics_eq_nil_iff hevents]
  cases body with
  | none => exact iff_of_true ⟨rfl, rfl⟩ (by simp)
  | some b =>
    have hblock := silent_inner_iff config grammar (.block b)
    rw [Node.outputs_block, events_block, and_comm] at hblock
    simpa using hblock

/-- Directly in a document a node leaves nothing exactly if it is silent. -/
theorem silent_topLevel_iff {n : Node}
    (h : Event.faults (n.events (.standard config grammar.reader) true) = []) :
    n.outputs (.standard config grammar.reader) = [] ∧
        Event.diagnostics (n.events (.standard config grammar.reader) true) = [] ∧
        Event.statements (n.events (.standard config grammar.reader) true) = [] ↔
      Silent config grammar { topLevel := true } n := by
  cases hs : n.isScript config with
  | false =>
    rw [silent_topLevel_iff_inner hs, ← silent_inner_iff, statements_of_not_script hs,
      Node.events_of_not_script hs,
      diagnostics_eq_nil_iff (diagnosed_of_mem_events config grammar.reader n)]
    simp
  | true =>
    cases n with
    | tag mark t body =>
      have hname := Node.isScript_tag.mp hs
      have houtputs : (Node.tag mark t body).outputs (.standard config grammar.reader) = [] := by
        rw [Node.outputs_tag, if_neg fun helement => helement.2.1 hname.2]
      rw [houtputs, eq_self, true_and]
      cases hp : t.scriptProblem? config with
      | some problem =>
        rw [Node.events_script_of_problem hs hp]
        refine iff_of_false (fun hnil => List.cons_ne_nil _ _ hnil.1) fun hsilent => ?_
        have hnone := ((holdsScript_iff mark body).mp (holdsScript_of_silent hsilent).2).2
        rw [hp] at hnone
        cases hnone
      | none =>
        have hscript := (holdsScript_iff mark body).mpr ⟨hs, hp⟩
        by_cases hd : t.dialect config = config.primaryDialect
        · refine silent_script_iff hscript hd ?_
          exact (faults_topLevel_iff config grammar _).mp h _ (if_pos ⟨hs, hp, hd⟩)
        · exact silent_template_iff hscript hd
    | _ => cases hs

/-! ## Places -/

theorem lowerNode_block (setup : Setup) (place : Place) (b : Block) :
    lowerNode setup place (.block b) =
      Yield.several <$> lowerNodes setup { topLevel := place.documentRoot } b.nodes := by
  obtain ⟨mark, nodes⟩ := b
  rw [lowerNode, Block.nodes]

/-- Whether a node is the document matters for blocks only. -/
theorem lowerNode_of_not_block (setup : Setup) (place : Place) {n : Node}
    (h : ∀ b, n ≠ .block b) :
    lowerNode setup place n = lowerNode setup { topLevel := place.topLevel } n := by
  cases n with
  | block b => exact absurd rfl (h b)
  | tag mark t body => simp only [lowerNode, lowerTag, lowerScript]
  | switch mark subject b =>
    obtain ⟨blockMark, nodes⟩ := b
    simp only [lowerNode]
  | _ => simp only [lowerNode]

theorem items_lowerNode (place : Place) (n : Node) :
    (lowerNode (.standard config grammar.reader) place n).value.items =
      (n.outputs (.standard config grammar.reader)).map .node := by
  by_cases hblock : ∃ b, n = .block b
  · obtain ⟨b, rfl⟩ := hblock
    rw [lowerNode_block, Emission.value_map, Yield.items_several, value_lowerNodes,
      Node.outputs_block, Block.outputs]
  · rw [lowerNode_of_not_block _ place (not_exists.mp hblock), items_lowerNode_inner]

theorem Silent.of_topLevel_eq {place place' : Place} {n : Node} (h : ∀ b, n ≠ .block b)
    (htop : place.topLevel = place'.topLevel) (hsilent : Silent config grammar place n) :
    Silent config grammar place' n := by
  cases hsilent with
  | block _ => exact absurd rfl (h _)
  | code hblank => exact .code hblank
  | script hplace hscript hprimary hmarkup hempty =>
    exact .script (htop ▸ hplace) hscript hprimary hmarkup hempty
  | template hplace hscript htemplate hbody =>
    exact .template (htop ▸ hplace) hscript htemplate hbody

/-- A node that is no block leaves nothing exactly if it is silent where it stands. -/
theorem silent_iff_of_topLevel (topLevel : Bool) {n : Node}
    (h : Event.faults (n.events (.standard config grammar.reader) topLevel) = []) :
    n.outputs (.standard config grammar.reader) = [] ∧
        Event.diagnostics (n.events (.standard config grammar.reader) topLevel) = [] ∧
        Event.statements (n.events (.standard config grammar.reader) topLevel) = [] ↔
      Silent config grammar { topLevel := topLevel } n := by
  cases topLevel with
  | true => exact silent_topLevel_iff h
  | false =>
    have hevents := diagnosed_of_mem_events config grammar.reader n
    rw [diagnostics_eq_nil_iff hevents, Event.statements_eq_nil hevents, eq_self, and_true]
    exact silent_inner_iff config grammar n

/-- Lowering without a fault leaves nothing of a node exactly if the node is silent. -/
theorem silent_iff_of_faults_nil {place : Place} {n : Node}
    (h : Event.faults (lowerNode (.standard config grammar.reader) place n).events = []) :
    (lowerNode (.standard config grammar.reader) place n).value.items = [] ∧
        Event.diagnostics (lowerNode (.standard config grammar.reader) place n).events = [] ∧
        Event.statements (lowerNode (.standard config grammar.reader) place n).events = [] ↔
      Silent config grammar place n := by
  rw [items_lowerNode, List.map_eq_nil_iff]
  by_cases hblock : ∃ b, n = .block b
  · obtain ⟨b, rfl⟩ := hblock
    rw [lowerNode_block, Emission.events_map, events_lowerNodes, Event.faults_flatMap,
      List.flatMap_eq_nil_iff] at h
    rw [lowerNode_block, Emission.events_map, events_lowerNodes, Event.diagnostics_flatMap,
      Event.statements_flatMap, Node.outputs_block, Block.outputs, silent_block_iff]
    simp only [List.flatMap_eq_nil_iff, ← forall₂_and]
    exact forall₂_congr fun n hn => silent_iff_of_topLevel _ (h n hn)
  · rw [lowerNode_of_not_block _ place (not_exists.mp hblock)] at h ⊢
    have hplace : Silent config grammar { topLevel := place.topLevel } n ↔
        Silent config grammar place n :=
      ⟨.of_topLevel_eq (not_exists.mp hblock) rfl, .of_topLevel_eq (not_exists.mp hblock) rfl⟩
    rw [← hplace]
    exact silent_iff_of_topLevel place.topLevel h

/-! ## Problems of the node itself -/

/-- Where the node of a run stands. -/
def Place.standing (place : Place) : Node → Standing
  | .block _ => if place.documentRoot then .document else .inner
  | _ => if place.topLevel then .topLevel else .inner

theorem Place.standing_of_not_block (place : Place) {n : Node} (h : ∀ b, n ≠ .block b) :
    place.standing n = if place.topLevel then .topLevel else .inner := by
  cases n with
  | block b => exact absurd rfl (h b)
  | _ => rfl

/-- Without a fault, lowering reports the problems along the walk from its node. -/
theorem diagnostics_lowerNode {place : Place} {n : Node}
    (h : Event.faults (lowerNode (.standard config grammar.reader) place n).events = []) :
    Event.diagnostics (lowerNode (.standard config grammar.reader) place n).events =
      n.reports config grammar (place.standing n) := by
  by_cases hblock : ∃ b, n = .block b
  · obtain ⟨b, rfl⟩ := hblock
    rw [lowerNode_block, Emission.events_map, events_lowerNodes] at h ⊢
    rw [Place.standing]
    cases hroot : place.documentRoot with
    | true =>
      rw [hroot] at h
      exact diagnostics_documentEvents ((faults_document_iff config grammar (.block b)).mp h)
    | false => exact (congrArg Event.diagnostics (events_block b).symm).trans (diagnostics_inner _)
  · rw [lowerNode_of_not_block _ place (not_exists.mp hblock)] at h ⊢
    rw [place.standing_of_not_block (not_exists.mp hblock)]
    cases htop : place.topLevel with
    | true =>
      rw [htop] at h
      exact diagnostics_topLevel ((faults_topLevel_iff config grammar n).mp h)
    | false => exact diagnostics_inner n

/-- The walk starts with the node itself. -/
theorem visits_eq_cons (enters : Visit → Bool) (standing : Standing) (n : Node) :
    n.visits enters standing = ⟨standing, n⟩ :: (n.visits enters standing).tail := by
  cases n with
  | block b =>
    obtain ⟨mark, nodes⟩ := b
    rw [Node.visits]
    rfl
  | conditional chain =>
    obtain ⟨mark, test, consequent, alternate⟩ := chain
    rw [Node.visits, Conditional.visits]
    rfl
  | _ =>
    rw [Node.visits]
    rfl

/-- A node with a problem of its own adds no output. -/
theorem outputs_eq_nil_of_own {standing : Standing} {n : Node}
    (h : Visit.own config grammar ⟨standing, n⟩ ≠ []) :
    n.outputs (.standard config grammar.reader) = [] := by
  cases n with
  | tag mark t body =>
    rw [Node.outputs_tag, if_neg]
    rintro ⟨hallowed, hname, hblocks⟩
    simp [Visit.own, hallowed, hname, hblocks] at h
  | code mark c body =>
    rw [Node.outputs_code, if_neg]
    rintro ⟨hbody, -⟩
    simp [Visit.own, hbody] at h
  | switch mark subject b =>
    obtain ⟨blockMark, nodes⟩ := b
    rw [Node.outputs_switch, if_neg]
    intro hcase
    have hnone : caseProblem? nodes = none := caseProblem?_eq_none_iff.mpr hcase
    simp [Visit.own, Block.nodes, hnone] at h
  | branch mark test body => exact Node.outputs_branch config grammar.reader mark test body
  | other mark kind => exact Node.outputs_other config grammar.reader mark kind
  | block b => exact absurd rfl h
  | text mark value => exact absurd rfl h
  | conditional chain => exact absurd rfl h
  | each mark loop body alternate => exact absurd rfl h

/-! ## Rehearsals -/

/-- A step that comes about without a trace unless it fails. -/
def Emission.Tacit {α : Type} (x : Emission α) : Prop :=
  Event.faults x.events = [] → x.events = []

namespace Emission

variable {α β : Type}

theorem tacit_pure (a : α) : (pure a : Emission α).Tacit := fun _ => rfl

theorem tacit_of_faults_ne {x : Emission α} (h : Event.faults x.events ≠ []) : x.Tacit :=
  fun hnil => absurd hnil h

theorem tacit_fault (f : Fault) (a : α) : (fault f a).Tacit :=
  tacit_of_faults_ne (List.cons_ne_nil _ _)

theorem tacit_bind {x : Emission α} {f : α → Emission β} (hx : x.Tacit)
    (hf : ∀ a, (f a).Tacit) : (x >>= f).Tacit := by
  intro h
  rw [events_bind, Event.faults_append, List.append_eq_nil_iff] at h
  rw [events_bind, hx h.1, hf _ h.2, List.append_nil]

theorem tacit_ite {c : Prop} [Decidable c] {x y : Emission α} (hx : x.Tacit) (hy : y.Tacit) :
    (if c then x else y).Tacit := by
  split
  · exact hx
  · exact hy

end Emission

namespace Settings

open Emission

theorem tacit_use (settings : Settings) (step : Text) : (settings.use step).Tacit := by
  unfold use
  split
  · exact tacit_pure ()
  · exact tacit_fault _ _

theorem tacit_usePass (settings : Settings) (part : Text) : (settings.usePass part).Tacit := by
  unfold usePass
  split
  · exact tacit_pure ()
  · exact tacit_fault _ _

theorem tacit_useNested (settings : Settings) (part : Text) : (settings.useNested part).Tacit :=
  tacit_bind (tacit_use _ _) fun _ => tacit_bind (tacit_usePass _ _) fun _ => tacit_use _ _

theorem faults_use_ne_nil {settings : Settings} {step : Text}
    (h : (settings.value? step).isSome = true) :
    Event.faults (settings.use step).events ≠ [] := by
  obtain ⟨v, hv⟩ := Option.isSome_iff_exists.mp h
  rw [use, hv]
  exact List.cons_ne_nil _ _

end Settings

namespace Pass

open Emission

theorem tacit_rehearseScript (settings : Settings) (setup : Setup) (mark : Mark) (t : Tag)
    (body : Option Block) : (rehearseScript settings setup mark t body).Tacit := by
  unfold rehearseScript
  refine tacit_bind (settings.tacit_use _) fun _ => ?_
  cases scriptDialect setup.config t.attributes with
  | error _ => exact settings.tacit_use _
  | ok dialect =>
    refine tacit_ite (settings.tacit_use _) (tacit_ite ?_ (tacit_ite (settings.tacit_use _)
      (tacit_pure ())))
    have hrest : (settings.use "delegate_to" >>= fun _ => settings.use "SCRIPT_PASS").Tacit :=
      tacit_bind (settings.tacit_use _) fun _ => settings.tacit_use _
    refine tacit_ite (tacit_bind (settings.tacit_use _) fun _ => ?_) hrest
    split
    · -- the report in front is no trace of a step that goes well: one of the steps after it fails
      rename_i hset
      refine tacit_of_faults_ne fun hnil => ?_
      simp only [events_bind, Event.faults_append, List.append_eq_nil_iff] at hnil
      rcases (Bool.or_eq_true _ _).mp hset with hset | hset
      · exact Settings.faults_use_ne_nil hset hnil.2.1
      · exact Settings.faults_use_ne_nil hset hnil.2.2
    · exact hrest

theorem tacit_rehearseTag (settings : Settings) (setup : Setup) (mark : Mark) (t : Tag)
    (body : Option Block) : (rehearseTag settings setup mark t body).Tacit :=
  tacit_ite (settings.tacit_use _)
    (tacit_ite (tacit_rehearseScript settings setup mark t body) (settings.tacit_useNested _))

theorem tacit_rehearseNode (settings : Settings) (setup : Setup) (n : Node) :
    (rehearseNode settings setup n).Tacit := by
  refine tacit_ite ?_ (settings.tacit_use _)
  cases n with
  | block b =>
    exact tacit_bind (settings.tacit_use _) fun _ =>
      tacit_ite (tacit_pure ()) (settings.tacit_use _)
  | tag mark t body =>
    exact tacit_bind (settings.tacit_use _) fun _ => tacit_rehearseTag settings setup mark t body
  | code mark c body =>
    exact tacit_bind (settings.tacit_use _) fun _ => settings.tacit_useNested _
  | switch mark subject b =>
    exact tacit_bind (settings.tacit_use _) fun _ => settings.tacit_useNested _
  | conditional chain =>
    exact tacit_bind (settings.tacit_use _) fun _ => settings.tacit_useNested _
  | each mark loop body alternate =>
    exact tacit_bind (settings.tacit_use _) fun _ => settings.tacit_useNested _
  | text mark value => exact tacit_bind (settings.tacit_use _) fun _ => tacit_pure ()
  | branch mark test body => exact tacit_pure ()
  | other mark kind => exact tacit_pure ()

theorem tacit_rehearseReplaced (pass : Pass) (settings : Settings) :
    (rehearseReplaced pass settings).Tacit := by
  unfold rehearseReplaced
  split
  · exact tacit_fault _ _
  · exact tacit_ite (tacit_bind (settings.tacit_use _) fun _ => tacit_fault _ _) (tacit_fault _ _)

/-- The rehearsal of a run on nodes of any kind adds nothing, unless it ends the run. -/
theorem tacit_rehearse_node (settings : Settings) (setup : Setup) (n : Node) :
    (Pass.node.rehearse settings setup n).Tacit := by
  refine tacit_bind (settings.tacit_use _) fun _ => ?_
  have hnode := tacit_rehearseNode settings setup n
  exact tacit_ite (tacit_bind (tacit_rehearseReplaced .node settings) fun _ => hnode) hnode

/-! ## Runs on nodes of any kind -/

theorem events_run_node {settings : Settings} {setup : Setup} {n : Node}
    (h : Event.faults (Pass.node.run settings setup n).events = []) :
    (Pass.node.run settings setup n).events = (lowerAny settings setup n).events := by
  have hrun : (Pass.node.run settings setup n).events =
      (Pass.node.rehearse settings setup n).events ++ (lowerAny settings setup n).events := rfl
  rw [hrun, Event.faults_append, List.append_eq_nil_iff] at h
  rw [hrun, tacit_rehearse_node settings setup n h.1, List.nil_append]

theorem lowerAny_of_handled {settings : Settings} {n : Node} (setup : Setup)
    (h : isHandled settings n = true) :
    (lowerAny settings setup n).events = (lowerNode setup settings.place n).events ∧
      (lowerAny settings setup n).value.elim [] Yield.items =
        (lowerNode setup settings.place n).value.items := by
  rw [lowerAny, if_pos h, Emission.events_map, Emission.value_map, items_kept]
  exact ⟨rfl, rfl⟩

theorem lowerAny_of_not_handled {settings : Settings} {n : Node} (setup : Setup)
    (h : isHandled settings n = false) :
    lowerAny settings setup n = reject (.unknownKind n.kind) n.position :=
  if_neg (by simp [h])

/-- The problems of the node of a run itself. -/
def own (config : Config) (grammar : Grammar) (settings : Settings) (n : Node) :
    List Diagnostic :=
  if isHandled settings n then Visit.own config grammar ⟨settings.place.standing n, n⟩
  else [(Problem.unknownKind n.kind).diagnosticAt n.position]

/-- The problems of the nodes that a run meets inside its node. -/
def below (config : Config) (grammar : Grammar) (settings : Settings) (n : Node) :
    List Diagnostic :=
  if isHandled settings n then
    (n.visits (Visit.isEntered config) (settings.place.standing n)).tail.flatMap
      (Visit.own config grammar)
  else []

/-- What a run reports is about its node or about the nodes inside. -/
theorem diagnostics_lowerAny {settings : Settings} {n : Node}
    (h : Event.faults (lowerAny settings (.standard config grammar.reader) n).events = []) :
    Event.diagnostics (lowerAny settings (.standard config grammar.reader) n).events =
      own config grammar settings n ++ below config grammar settings n := by
  cases hhandled : isHandled settings n with
  | true =>
    rw [(lowerAny_of_handled _ hhandled).1] at h ⊢
    rw [diagnostics_lowerNode h, Node.reports, visits_eq_cons, List.flatMap_cons, own, below,
      if_pos hhandled, if_pos hhandled]
  | false =>
    rw [lowerAny_of_not_handled _ hhandled, own, below, hhandled]
    rfl

/-- A run whose node has a problem of its own adds no output. -/
theorem items_lowerAny_of_own {settings : Settings} {n : Node}
    (h : own config grammar settings n ≠ []) :
    (lowerAny settings (.standard config grammar.reader) n).value.elim [] Yield.items = [] := by
  cases hhandled : isHandled settings n with
  | true =>
    rw [own, if_pos hhandled] at h
    rw [(lowerAny_of_handled _ hhandled).2, items_lowerNode, outputs_eq_nil_of_own h, List.map_nil]
  | false =>
    rw [lowerAny_of_not_handled _ hhandled]
    rfl

end Pass

namespace Session

theorem perform_eq_ok_iff {α : Type} {session next : Session} {x : Emission α} {a : α} :
    session.perform x = (next, .ok a) ↔
      Event.faults x.events = [] ∧ next = session.record x.events ∧ a = x.value := by
  cases hfaults : Event.faults x.events with
  | nil =>
    rw [perform, Emission.settle_of_faults_nil hfaults]
    simp [eq_comm]
  | cons fault rest =>
    have hsettle := Emission.settle_of_fault hfaults
    simp [perform, hsettle]

theorem record_eq_self_iff {session : Session} {events : List Event} :
    session.record events = session ↔
      Event.diagnostics events = [] ∧ Event.statements events = [] := by
  obtain ⟨diagnostics, statements⟩ := session
  simp [record]

end Session

/-- What a run that ends has done with its node. What it reports is about the node itself or about
the nodes inside, and if something is about the node itself, then the run adds no output. It adds no
output, no diagnostic and no statement exactly if there is a step for the node and it is silent. -/
theorem Pass.run_accounts_for_node (config : Config) (grammar : Grammar) {session next : Session}
    {settings : Settings} {n : Node} {contributed : Option Yield}
    (h : session.perform (Pass.node.run settings (.standard config grammar.reader) n) =
      (next, .ok contributed)) :
    (next.diagnostics = session.diagnostics ++
        (Pass.own config grammar settings n ++ Pass.below config grammar settings n) ∧
      (Pass.own config grammar settings n ≠ [] → contributed.elim [] Yield.items = [])) ∧
    (contributed.elim [] Yield.items = [] ∧ next = session ↔
      Pass.isHandled settings n = true ∧ Silent config grammar settings.place n) := by
  obtain ⟨hfaults, rfl, rfl⟩ := Session.perform_eq_ok_iff.mp h
  have hvalue : (Pass.node.run settings (.standard config grammar.reader) n).value =
      (Pass.lowerAny settings (.standard config grammar.reader) n).value := rfl
  have hevents := Pass.events_run_node hfaults
  rw [hevents] at hfaults
  rw [hevents, hvalue, Session.record_eq_self_iff]
  refine ⟨⟨congrArg (session.diagnostics ++ ·) (Pass.diagnostics_lowerAny hfaults),
    Pass.items_lowerAny_of_own⟩, ?_⟩
  cases hhandled : Pass.isHandled settings n with
  | true =>
    obtain ⟨hsame, hitems⟩ := Pass.lowerAny_of_handled (.standard config grammar.reader) hhandled
    rw [hsame] at hfaults ⊢
    rw [hitems, silent_iff_of_faults_nil hfaults]
    simp
  | false =>
    rw [Pass.lowerAny_of_not_handled _ hhandled]
    simp [Event.diagnostics]

end Silence

/-- A document of blank code and of a script that is only a comment. -/
def quietPage : Node :=
  .block (.mk {} [.code {} { value := " " } none,
    .tag {} { name := "script" } (some (.mk {} [.text {} "// none"]))])

/-- The tree of a comment. -/
def commentTree : Syntax :=
  { stop := 7, children := [{ kind := "comment", stop := 7 }] }

/-- Nothing is left of `quietPage` as a document, and a script inside an element is reported and
left out. -/
theorem Pass.run_accounts_for_quietPage :
    (Silent {} (fun _ _ => commentTree) documentSettings.place quietPage ∧
      ∃ contributed, Session.perform {} (Pass.node.run documentSettings
          (.standard {} (Grammar.reader fun _ _ => commentTree)) quietPage) =
        ({}, .ok contributed)) ∧
      Pass.own {} (fun _ _ => commentTree) {} (.tag {} { name := "script" } none) ≠ [] ∧
      ∃ next contributed, Session.perform {} (Pass.node.run {}
          (.standard {} (Grammar.reader fun _ _ => commentTree))
            (.tag {} { name := "script" } none)) = (next, .ok contributed) ∧
        contributed.elim [] Yield.items = [] := by
  have hblank : Text.isBlankText " " = true := by decide +kernel
  have hscript : Tag.HoldsScript {} { name := "script" } := by decide +kernel
  have hprimary : Tag.dialect {} { name := "script" } = Config.primaryDialect {} := by
    decide +kernel
  have hsilent : Silent {} (fun _ _ => commentTree) documentSettings.place quietPage := by
    refine .block fun n hn => ?_
    rcases List.mem_pair.mp hn with rfl | rfl
    · exact .code hblank
    · exact .script rfl hscript hprimary rfl (.inr ⟨rfl, rfl⟩)
  have hown : Pass.own {} (fun _ _ => commentTree) {} (.tag {} { name := "script" } none) ≠ [] := by
    decide +kernel
  have hquiet : Session.perform {} (Pass.node.run documentSettings
      (.standard {} (Grammar.reader fun _ _ => commentTree)) quietPage) = (_, .ok _) :=
    Session.perform_eq_ok_iff.mpr ⟨by decide +kernel, rfl, rfl⟩
  have hnested : Session.perform {} (Pass.node.run {}
      (.standard {} (Grammar.reader fun _ _ => commentTree))
        (.tag {} { name := "script" } none)) = (_, .ok _) :=
    Session.perform_eq_ok_iff.mpr ⟨by decide +kernel, rfl, rfl⟩
  have hsame := ((Pass.run_accounts_for_node {} _ hquiet).2.mpr ⟨by decide +kernel, hsilent⟩).2
  rw [hsame] at hquiet
  exact ⟨⟨hsilent, _, hquiet⟩, hown, _, _, hnested,
    (Pass.run_accounts_for_node {} _ hnested).1.2 hown⟩

end Lowering
