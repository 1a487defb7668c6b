import Lowering.Lower.Pass
import Lowering.Proofs.Splicing

/-!
# Fixed outputs

A construct whose output is fixed in advance yields it wherever it stands, and nothing of what it
holds is looked at. So a node that only the construct itself makes is found in the result nowhere
but inside copies of fixed outputs, and a problem that only the construct itself reports is not
reported.

* `Setup.MayReport`: a diagnostic that can be reported although constructs are replaced;
* `Node.fixed?`: the fixed output of a node;
* `Made`: an output that is made of copies of fixed outputs and of nodes that are not replaced;
* `Emission.Heeds`: an emission that keeps to the fixed outputs, in its value and in its events;
* `heeds_lowerNode`: lowering keeps to them at every depth;
* `fixedOutputs_reach`: what this means for documents and for single passes.
-/

namespace Lowering

/-! ## What is replaced -/

namespace FixedOutputs

/-- The fixed outputs of all constructs. -/
def all (fixed : FixedOutputs) : List (Option Yield) :=
  [fixed.element, fixed.script, fixed.code, fixed.switch, fixed.conditional, fixed.each]

/-- The kinds of nodes that only constructs with a fixed output make. -/
def replaces (fixed : FixedOutputs) : Kind → Bool
  | .element => fixed.element.isSome
  | .expression => fixed.code.isSome
  | .switch | .switchCase => fixed.switch.isSome
  | .conditional => fixed.conditional.isSome
  | .iteration => fixed.each.isSome
  | _ => false

/-- The problems that only constructs with a fixed output report. -/
def silences (fixed : FixedOutputs) : Problem → Bool
  | .attributeBlocks => fixed.element.isSome
  | .codeBlock => fixed.code.isSome
  | .strayInCase _ | .secondDefault => fixed.switch.isSome
  | .invalidScript _ => fixed.script.isSome
  | _ => false

end FixedOutputs

/-- The problems that lowering can report in a setup. A tag is refused only for a name that is not
allowed, and the words of the configuration are the only ones that a problem quotes. -/
def Setup.reports (setup : Setup) : Problem → Bool
  | .disallowedTag name => setup.config.disallowedTags.contains name
  | .unknownDialect primary template =>
    primary == setup.config.primaryDialect && template == setup.config.templateDialect
  | .invalidScript language => setup.fixed.script.isNone && language == setup.config.language
  | problem => !setup.fixed.silences problem

/-- A diagnostic of a problem that lowering can report. -/
def Setup.MayReport (setup : Setup) (d : Diagnostic) : Prop :=
  ∃ problem position, d = Problem.diagnosticAt problem position ∧ setup.reports problem = true

/-- The nodes of a yield. -/
def Yield.nodes : Yield → List Output
  | .nothing => []
  | .single output => [output]
  | .several items => Item.nodes items

/-- What a node yields by a fixed output of its construct. -/
def Node.fixed? (setup : Setup) : Node → Option Yield
  | .tag _ t _ =>
    if setup.config.disallowedTags.contains t.name ∨ t.name = setup.config.scriptTag then none
    else setup.fixed.element.map Yield.boxed
  | .code _ _ _ => setup.fixed.code
  | .switch _ _ _ => setup.fixed.switch.map Yield.boxed
  | .conditional _ => setup.fixed.conditional.map Yield.boxed
  | .each _ _ _ _ => setup.fixed.each.map Yield.boxed
  | _ => none

/-- An output that is a copy of a fixed output, or a node that is not replaced around such outputs. -/
inductive Made (fixed : FixedOutputs) : Output → Prop where
  | copy {o : Output} {y : Yield} (hy : some y ∈ fixed.all) (ho : o ∈ y.nodes) : Made fixed o
  | built {o : Output} (hkind : fixed.replaces o.kind = false)
      (hchildren : ∀ c ∈ o.children, Made fixed c) : Made fixed o

/-- A chain of conditionals with nothing below it but such outputs. -/
inductive MadeChain (fixed : FixedOutputs) : Output → Prop where
  | ends (mark : Mark) (test : Text) {consequent : List Output} {alternate : Output}
      (hc : ∀ o ∈ consequent, Made fixed o) (ha : Made fixed alternate) :
      MadeChain fixed (conditionalOutput mark test consequent alternate)
  | links (mark : Mark) (test : Text) {consequent : List Output} {alternate : Output}
      (hc : ∀ o ∈ consequent, Made fixed o) (ha : MadeChain fixed alternate) :
      MadeChain fixed (conditionalOutput mark test consequent alternate)

/-- Outputs that are all made so. -/
def AllMade (fixed : FixedOutputs) (outputs : List Output) : Prop :=
  ∀ o ∈ outputs, Made fixed o

/-- At most one list of outputs that are all made so. -/
def SomeMade (fixed : FixedOutputs) (outputs : Option (List Output)) : Prop :=
  ∀ os ∈ outputs, AllMade fixed os

/-- A case with nothing below it but such outputs. -/
def MadeCase (fixed : FixedOutputs) (o : Output) : Prop :=
  o.kind = .switchCase ∧ ∀ c ∈ o.children, Made fixed c

/-- A fault that comes from reading a script. -/
def Fault.isOfScript : Fault → Bool
  | .script _ | .noOrigin _ => true
  | _ => false

/-- Fixed outputs of the right form: at most one node for an element, a case distinction, a
conditional and an iteration, and at most a list of nodes for code and scripts. In the list for
scripts places may be left empty. -/
structure FixedOutputs.IsProper (fixed : FixedOutputs) : Prop where
  element : ∀ y ∈ fixed.element, y.boxed.IsPlain
  switch : ∀ y ∈ fixed.switch, y.boxed.IsPlain
  conditional : ∀ y ∈ fixed.conditional, y.boxed.IsPlain
  each : ∀ y ∈ fixed.each, y.boxed.IsPlain
  code : ∀ y ∈ fixed.code, y.IsPlain
  script : ∀ y ∈ fixed.script, Item.misfits (Item.present y.items) = []

variable {setup : Setup} {fixed : FixedOutputs}

theorem made_fragment {outputs : List Output} (h : AllMade fixed outputs) :
    Made fixed (.fragment outputs) :=
  .built rfl h

theorem made_leaf {o : Output} (hkind : fixed.replaces o.kind = false) (h : o.children = []) :
    Made fixed o :=
  .built hkind (by simp [h])

theorem MadeChain.made {o : Output} (h : MadeChain fixed o) (hnone : fixed.conditional = none) :
    Made fixed o := by
  have hkind : fixed.replaces .conditional = false := by rw [FixedOutputs.replaces, hnone]; rfl
  have hbuilt : ∀ {mark : Mark} {test : Text} {consequent : List Output} {alternate : Output},
      (∀ o ∈ consequent, Made fixed o) → Made fixed alternate →
        Made fixed (conditionalOutput mark test consequent alternate) := by
    intro mark test consequent alternate hc ha
    refine .built hkind ?_
    simpa [conditionalOutput] using And.intro (made_fragment hc) ha
  induction h with
  | ends mark test hc ha => exact hbuilt hc ha
  | links mark test hc ha ih => exact hbuilt hc ih

/-! ## Diagnostics that replaced constructs alone report -/

theorem Problem.reason_ne {p q : Problem} {x y : CodePoint} (i : Nat) (hp : p.reason[i]? = some x)
    (hq : q.reason[i]? = some y) (hne : x ≠ y) : p.reason ≠ q.reason := by
  intro h
  rw [h, hq] at hp
  exact hne (Option.some.inj hp).symm

/-- Of two ends of one text the shorter is an end of the longer. -/
theorem Text.isSuffix_of_append_eq {t u t' u' : Text} (h : t ++ u = t' ++ u')
    (hlength : u.length ≤ u'.length) : u <:+ u' :=
  List.suffix_of_suffix_length_le ⟨t, h⟩ ⟨t', rfl⟩ hlength

theorem Setup.ne_of_silences {silent problem : Problem} (hs : setup.fixed.silences silent = true)
    (hr : setup.reports problem = true) : problem ≠ silent := by
  rintro rfl
  cases problem <;> simp_all [reports, FixedOutputs.silences]

/-- A refused tag is reported in words that another problem has only if the tag is named like the
blocks of attributes. -/
theorem Problem.eq_of_disallowedTag {silent : Problem} {name : Text}
    (hs : fixed.silences silent = true) (hcode : (disallowedTag name).code = silent.code)
    (hreason : (disallowedTag name).reason = silent.reason) :
    silent = .attributeBlocks ∧ name = "&attributes" := by
  cases silent with
  | attributeBlocks => exact ⟨rfl, List.append_cancel_right hreason⟩
  | codeBlock =>
    have h : (" is not supported" : Text) <:+ "code blocks are not supported" := ⟨name, hreason⟩
    exact absurd h (by decide +kernel)
  | strayInCase kind =>
    exact absurd (Text.isSuffix_of_append_eq hreason (by decide)) (by decide +kernel)
  | secondDefault =>
    have h : (" is not supported" : Text) <:+ "case can have only one default branch" :=
      ⟨name, hreason⟩
    exact absurd h (by decide +kernel)
  | invalidScript language => cases hcode
  | _ => cases hs

/-- All other problems are reported in words of their own: already the first or the sixth letter
tells them apart, but for the two that name a kind of node, which end differently. -/
theorem Problem.reason_ne_of_silences {silent problem : Problem}
    (hs : setup.fixed.silences silent = true) (hr : setup.reports problem = true)
    (htag : ∀ name, problem ≠ .disallowedTag name) (hcode : problem.code = silent.code) :
    problem.reason ≠ silent.reason := by
  have hne := Setup.ne_of_silences hs hr
  cases silent with
  | attributeBlocks =>
    cases problem with
    | disallowedTag name => exact absurd rfl (htag name)
    | attributeBlocks => exact absurd rfl hne
    | invalidScript language => cases hcode
    | _ => exact reason_ne 5 rfl rfl (by decide)
  | codeBlock =>
    cases problem with
    | disallowedTag name => exact absurd rfl (htag name)
    | codeBlock => exact absurd rfl hne
    | invalidScript language => cases hcode
    | _ => exact reason_ne 5 rfl rfl (by decide)
  | secondDefault =>
    cases problem with
    | disallowedTag name => exact absurd rfl (htag name)
    | secondDefault => exact absurd rfl hne
    | invalidScript language => cases hcode
    | _ => exact reason_ne 5 rfl rfl (by decide)
  | strayInCase kind =>
    cases problem with
    | disallowedTag name => exact absurd rfl (htag name)
    | unknownKind other =>
      intro hreason
      exact absurd (Text.isSuffix_of_append_eq hreason (by decide)) (by decide +kernel)
    | strayInCase other => simp_all [Setup.reports, FixedOutputs.silences]
    | nestedScript => exact reason_ne 5 rfl rfl (by decide)
    | invalidScript language => cases hcode
    | _ => exact reason_ne 0 rfl rfl (by decide)
  | invalidScript language =>
    cases problem with
    | invalidScript other => simp_all [Setup.reports, FixedOutputs.silences]
    | _ => cases hcode
  | _ => cases hs

/-- What only replaced constructs report is not reported, unless a tag that is not allowed has the
name of the blocks of attributes: the words for both are the same. -/
theorem Setup.attributeBlocks_of_mayReport {silent : Problem} {position : Position}
    (hs : setup.fixed.silences silent = true)
    (h : setup.MayReport (silent.diagnosticAt position)) :
    silent = .attributeBlocks ∧ ("&attributes" : Text) ∈ setup.config.disallowedTags := by
  obtain ⟨problem, position', heq, hr⟩ := h
  obtain ⟨hcode, hreasons, -⟩ := Diagnostic.mk.inj heq
  have hreason : problem.reason = silent.reason := (List.cons.inj hreasons).1.symm
  by_cases htag : ∃ name, problem = .disallowedTag name
  · obtain ⟨name, rfl⟩ := htag
    obtain ⟨hsilent, rfl⟩ := Problem.eq_of_disallowedTag hs hcode.symm hreason
    exact ⟨hsilent, List.contains_iff_mem.mp hr⟩
  · rw [not_exists] at htag
    exact absurd hreason (Problem.reason_ne_of_silences hs hr htag hcode.symm)

/-! ## Emissions that keep to fixed outputs -/

/-- Elements of a list that are made so; fixed outputs of the right form bring in no misfits. -/
def Item.AreMade (fixed : FixedOutputs) (items : List Item) : Prop :=
  (∀ o ∈ Item.nodes items, Made fixed o) ∧ (fixed.IsProper → Item.misfits items = [])

/-- A yield that is made so. -/
def Yield.IsMade (fixed : FixedOutputs) (y : Yield) : Prop :=
  Item.AreMade fixed y.items ∧ (fixed.IsProper → y.IsPlain)

/-- An event that keeps to fixed outputs. A script is read only if its construct is not replaced. -/
def Event.Heeds (setup : Setup) : Event → Prop
  | .diagnosed d => setup.MayReport d
  | .parsed _ => setup.fixed.script = none
  | .hoisted _ items => Item.AreMade setup.fixed items
  | .faulted fault => setup.fixed.IsProper → setup.fixed.script = none ∧ fault.isOfScript = true

/-- An emission that keeps to fixed outputs and whose value is as told. -/
def Emission.Heeds {α : Type} (setup : Setup) (P : α → Prop) (x : Emission α) : Prop :=
  P x.value ∧ ∀ e ∈ x.events, e.Heeds setup

namespace Emission

variable {α β : Type} {P : α → Prop} {Q : β → Prop}

theorem heeds_pure {a : α} (h : P a) : (pure a : Emission α).Heeds setup P :=
  ⟨h, nofun⟩

theorem Heeds.bind {x : Emission α} {f : α → Emission β} (hx : x.Heeds setup P)
    (hf : ∀ a, P a → (f a).Heeds setup Q) : (x >>= f).Heeds setup Q := by
  obtain ⟨hvalue, hevents⟩ := hx
  obtain ⟨hvalue', hevents'⟩ := hf x.value hvalue
  refine ⟨hvalue', ?_⟩
  intro e he
  rcases List.mem_append.mp he with he | he
  · exact hevents e he
  · exact hevents' e he

theorem Heeds.map {x : Emission α} {f : α → β} (hx : x.Heeds setup P) (hf : ∀ a, P a → Q (f a)) :
    (f <$> x).Heeds setup Q := by
  refine ⟨hf _ hx.1, ?_⟩
  rw [events_map]
  exact hx.2

theorem Heeds.mono {x : Emission α} {P' : α → Prop} (hx : x.Heeds setup P) (h : ∀ a, P a → P' a) :
    x.Heeds setup P' :=
  ⟨h _ hx.1, hx.2⟩

theorem heeds_emit {e : Event} (h : e.Heeds setup) : (emit e).Heeds setup fun _ => True := by
  refine ⟨trivial, ?_⟩
  intro e' he
  cases List.mem_singleton.mp he
  exact h

theorem heeds_report {problem : Problem} (h : setup.reports problem = true)
    (position : Position) : (report problem position).Heeds setup fun _ => True :=
  heeds_emit ⟨problem, position, rfl, h⟩

theorem heeds_reject {P : Option α → Prop} {problem : Problem}
    (h : setup.reports problem = true) (hnone : P none) (position : Position) :
    (reject problem position : Emission (Option α)).Heeds setup P :=
  (heeds_report h position).bind fun _ _ => heeds_pure hnone

theorem heeds_solid {items : List Item} (h : Item.AreMade setup.fixed items) :
    (solid items).Heeds setup (AllMade setup.fixed) := by
  unfold solid
  split
  · exact heeds_pure h.1
  · rename_i hmisfits
    refine ⟨h.1, ?_⟩
    intro e he
    cases List.mem_singleton.mp he
    intro hproper
    exact absurd (by rw [h.2 hproper]; rfl) hmisfits

end Emission

/-! ## Yields -/

theorem areMade_nil : Item.AreMade fixed [] :=
  ⟨nofun, fun _ => rfl⟩

theorem areMade_append {xs ys : List Item} (hx : Item.AreMade fixed xs)
    (hy : Item.AreMade fixed ys) : Item.AreMade fixed (xs ++ ys) := by
  constructor
  · intro o ho
    rw [Item.nodes, List.filterMap_append] at ho
    rcases List.mem_append.mp ho with ho | ho
    · exact hx.1 o ho
    · exact hy.1 o ho
  · intro hproper
    rw [Item.misfits, List.filter_append]
    exact List.append_eq_nil_iff.mpr ⟨hx.2 hproper, hy.2 hproper⟩

theorem areMade_present {items : List Item} (h : ∀ o ∈ Item.nodes items, Made fixed o)
    (hproper : fixed.IsProper → Item.misfits (Item.present items) = []) :
    Item.AreMade fixed (Item.present items) := by
  refine ⟨?_, hproper⟩
  intro o ho
  obtain ⟨item, hitem, hnode⟩ := List.mem_filterMap.mp ho
  exact h o (List.mem_filterMap.mpr ⟨item, (List.mem_filter.mp hitem).1, hnode⟩)

theorem misfits_present {items : List Item} (h : Item.misfits items = []) :
    Item.misfits (Item.present items) = [] := by
  rw [Item.misfits, List.filter_eq_nil_iff] at h ⊢
  exact fun item hitem => h item (List.mem_filter.mp hitem).1

theorem isMade_ofNodes {outputs : List Output} (h : AllMade fixed outputs) :
    (Yield.ofNodes outputs).IsMade fixed := by
  refine ⟨⟨?_, fun _ => Yield.isPlain_ofNodes outputs⟩, fun _ => Yield.isPlain_ofNodes outputs⟩
  rw [Yield.items_ofNodes, Item.nodes_map_node]
  exact h

theorem isMade_ofNodes? {outputs : Option (List Output)} (h : SomeMade fixed outputs) :
    (Yield.ofNodes? outputs).IsMade fixed := by
  cases outputs with
  | none => exact ⟨areMade_nil, fun _ => trivial⟩
  | some os => exact isMade_ofNodes (h os rfl)

theorem isMade_boxed_ofNode? {output : Option Output} (h : ∀ o ∈ output, Made fixed o) :
    (Yield.ofNode? output).boxed.IsMade fixed := by
  cases output with
  | none => exact ⟨areMade_nil, fun _ => trivial⟩
  | some o =>
    have hmade : AllMade fixed [o] := by
      intro o' ho
      rw [List.mem_singleton.mp ho]
      exact h o rfl
    exact isMade_ofNodes hmade

/-- The nodes that a yield adds are its own; a node by itself adds its parts. -/
theorem nodes_items_subset (y : Yield) : ∀ o ∈ Item.nodes y.items, o ∈ y.nodes := by
  cases y with
  | nothing => exact fun _ h => h
  | several items => exact fun _ h => h
  | single output =>
    intro o ho
    obtain ⟨item, hitem, hnode⟩ := List.mem_filterMap.mp ho
    obtain ⟨p, -, rfl⟩ := List.mem_map.mp hitem
    cases hnode

theorem nodes_boxed_subset (y : Yield) : ∀ o ∈ Item.nodes y.boxed.items, o ∈ y.nodes := by
  cases y with
  | nothing => exact fun _ h => h
  | single output => exact fun _ h => h
  | several items => exact nofun

theorem isMade_boxed {y : Yield} (hy : some y ∈ fixed.all)
    (hproper : fixed.IsProper → y.boxed.IsPlain) : y.boxed.IsMade fixed := by
  refine ⟨⟨?_, fun h => Yield.misfits_items (hproper h)⟩, hproper⟩
  exact fun o ho => .copy hy (nodes_boxed_subset y o ho)

/-- A construct that yields one node keeps to fixed outputs if it does so when it is not replaced. -/
theorem heeds_unlessFixed {choice : Option Yield} {lowered : Emission Yield}
    (hchoice : choice ∈ setup.fixed.all)
    (hproper : setup.fixed.IsProper → ∀ y ∈ choice, y.boxed.IsPlain)
    (hlowered : choice = none → (Yield.boxed <$> lowered).Heeds setup (Yield.IsMade setup.fixed)) :
    (Yield.boxed <$> unlessFixed choice lowered).Heeds setup (Yield.IsMade setup.fixed) := by
  cases choice with
  | none => exact hlowered rfl
  | some y =>
    refine ⟨isMade_boxed hchoice fun h => hproper h y rfl, ?_⟩
    rw [Emission.events_map]
    exact nofun

/-! ## Constructs -/

section Constructs

/-- A tag is refused, or becomes an element around what is made of its contents. -/
theorem lowerElement_cases {contents : Emission (List Item)}
    (h : contents.Heeds setup (Item.AreMade setup.fixed)) (mark : Mark) (tag : Tag) :
    lowerElement setup mark tag contents = reject .attributeBlocks mark.position ∨
      (lowerElement setup mark tag contents).Heeds setup fun output =>
        ∃ o, output = some o ∧ o.kind = .element ∧ ∀ c ∈ o.children, Made setup.fixed c := by
  unfold lowerElement
  split
  · right
    refine h.bind fun items hitems => (Emission.heeds_solid hitems).bind fun children hchildren => ?_
    exact Emission.heeds_pure ⟨_, rfl, rfl, hchildren⟩
  · exact .inl rfl

/-- A case distinction is refused, or becomes a switch around its cases. -/
theorem lowerSwitch_cases {cases : Emission (List Output)}
    (h : cases.Heeds setup fun outputs => ∀ o ∈ outputs, MadeCase setup.fixed o) (mark : Mark)
    (subject : Text) (nodes : List Node) :
    (∃ problem position, lowerSwitch mark subject nodes cases = reject problem position ∧
        ((∃ kind, problem = .strayInCase kind) ∨ problem = .secondDefault)) ∨
      (lowerSwitch mark subject nodes cases).Heeds setup fun output =>
        ∃ o, output = some o ∧ o.kind = .switch ∧ ∀ c ∈ o.children, MadeCase setup.fixed c := by
  unfold lowerSwitch
  split
  · exact .inl ⟨_, _, rfl, .inl ⟨_, rfl⟩⟩
  · split
    · exact .inl ⟨_, _, rfl, .inr rfl⟩
    · right
      refine h.bind fun outputs houtputs => ?_
      exact Emission.heeds_pure ⟨_, rfl, rfl, houtputs⟩

theorem heeds_lowerCode (hnone : setup.fixed.code = none) (asExpression : Bool) (mark : Mark)
    (code : Code) (body : Option Block) :
    (lowerCode asExpression mark code body).Heeds setup (SomeMade setup.fixed) := by
  have hexpression : setup.fixed.replaces .expression = false := by
    rw [FixedOutputs.replaces, hnone]
    rfl
  have hstatement : setup.fixed.replaces .statement = false := rfl
  cases body with
  | some b =>
    refine Emission.heeds_reject ?_ nofun _
    simp [Setup.reports, FixedOutputs.silences, hnone]
  | none =>
    refine Emission.heeds_pure ?_
    unfold codeOutputs
    dsimp only
    split
    · exact nofun
    · intro os hos o ho
      cases hos
      rw [List.mem_singleton.mp ho]
      refine made_leaf ?_ rfl
      cases asExpression with
      | true => exact hexpression
      | false => exact hstatement

theorem heeds_lowerEach {body : Emission (List Output)}
    {alternate : Emission (Option (List Output))}
    (hb : body.Heeds setup (AllMade setup.fixed)) (ha : alternate.Heeds setup (SomeMade setup.fixed))
    (mark : Mark) (loop : Loop) :
    (lowerEach mark loop body alternate).Heeds setup fun o =>
      o.kind = .iteration ∧ ∀ c ∈ o.children, Made setup.fixed c := by
  refine hb.bind fun outputs houtputs => ha.bind fun others hothers => Emission.heeds_pure ?_
  refine ⟨rfl, ?_⟩
  cases others with
  | none => simpa [iterationOutput] using made_fragment houtputs
  | some others =>
    simpa [iterationOutput] using And.intro (made_fragment houtputs) (made_fragment (hothers _ rfl))

theorem madeCase_switchCase (mark : Mark) (test : Text) {children : Option (List Output)}
    (h : SomeMade fixed children) : MadeCase fixed (switchCase mark test children) := by
  refine ⟨rfl, ?_⟩
  cases children with
  | none => exact nofun
  | some os => simpa [switchCase] using made_fragment (h os rfl)

/-! ## Scripts -/

theorem heeds_placeStatements (hnone : setup.fixed.script = none) (origins : Origins)
    (statements : List Statement) :
    (placeStatements origins statements).Heeds setup (AllMade setup.fixed) := by
  induction statements with
  | nil => exact Emission.heeds_pure (List.forall_mem_nil _)
  | cons s rest ih =>
    rw [placeStatements]
    split
    · refine ⟨List.forall_mem_nil _, ?_⟩
      intro e he
      cases List.mem_singleton.mp he
      exact fun _ => ⟨hnone, rfl⟩
    · refine ih.bind fun outputs houtputs => Emission.heeds_pure ?_
      exact List.forall_mem_cons.mpr ⟨made_leaf rfl rfl, houtputs⟩

theorem heeds_lowerScriptText (hnone : setup.fixed.script = none) (mark : Mark)
    (body : Option Block) :
    (lowerScriptText setup mark body).Heeds setup (SomeMade setup.fixed) := by
  have hfault : ∀ fault : Fault, fault.isOfScript = true →
      (Emission.fault fault none : Emission (Option (List Output))).Heeds setup
        (SomeMade setup.fixed) := by
    intro fault hfault
    refine ⟨nofun, ?_⟩
    intro e he
    cases List.mem_singleton.mp he
    exact fun _ => ⟨hnone, hfault⟩
  simp only [lowerScriptText]
  split
  · refine Emission.heeds_pure ?_
    intro os hos
    cases hos
    exact nofun
  · split
    · exact hfault _ rfl
    · split
      · exact hfault _ rfl
      · refine Emission.heeds_reject ?_ nofun _
        simp [Setup.reports, hnone]
    · refine Emission.Heeds.bind (Emission.heeds_emit hnone) fun _ _ => ?_
      refine (heeds_placeStatements hnone _ _).bind fun outputs houtputs => ?_
      refine Emission.heeds_pure ?_
      intro os hos
      cases hos
      exact houtputs

/-- The statements of a script: the fixed ones, or those that are read. -/
theorem heeds_primaryStatements (mark : Mark) (body : Option Block) :
    (primaryStatements setup mark body).Heeds setup fun items =>
      Item.AreMade setup.fixed (Item.present items) := by
  unfold primaryStatements
  cases hy : setup.fixed.script with
  | some y =>
    have hall : some y ∈ setup.fixed.all := by simp [FixedOutputs.all, hy]
    refine Emission.heeds_pure (areMade_present ?_ fun h => h.script y hy)
    exact fun o ho => .copy hall (nodes_items_subset y o ho)
  | none =>
    refine (heeds_lowerScriptText hy mark body).bind fun outputs houtputs => Emission.heeds_pure ?_
    refine areMade_present ?_ fun _ => misfits_present (Item.misfits_map_node _)
    rw [Item.nodes_map_node]
    cases outputs with
    | none => exact nofun
    | some os => exact houtputs os rfl

theorem reports_scriptDialect {attributes : List TagAttribute} {problem : Problem}
    (h : scriptDialect setup.config attributes = .error problem) : setup.reports problem = true := by
  unfold scriptDialect at h
  split at h
  · cases h
    rfl
  · split at h
    · cases h
    · simp only at h
      split at h
      · cases h
      · cases h
        simp [Setup.reports]

theorem heeds_lowerScript {contents : Emission (List Item)}
    (h : contents.Heeds setup (Item.AreMade setup.fixed)) (place : Place) (mark : Mark)
    (tag : Tag) (body : Option Block) :
    (lowerScript setup place mark tag body contents).Heeds setup (SomeMade setup.fixed) := by
  have hhoisted : ∀ (dialect : Text) (items : List Item),
      Item.AreMade setup.fixed (Item.present items) →
        (do hoist dialect items; pure (some []) : Emission (Option (List Output))).Heeds setup
          (SomeMade setup.fixed) := by
    intro dialect items hitems
    refine Emission.Heeds.bind (Emission.heeds_emit hitems) fun _ _ => Emission.heeds_pure ?_
    intro os hos
    cases hos
    exact nofun
  have hprimary : ∀ dialect : Text, (do
      let items ← primaryStatements setup mark body
      hoist dialect items
      pure (some []) : Emission (Option (List Output))).Heeds setup (SomeMade setup.fixed) :=
    fun dialect => (heeds_primaryStatements mark body).bind fun items => hhoisted dialect items
  unfold lowerScript
  cases hd : scriptDialect setup.config tag.attributes with
  | error problem => exact Emission.heeds_reject (reports_scriptDialect hd) nofun _
  | ok dialect =>
    simp only
    split
    · exact Emission.heeds_reject rfl nofun _
    · split
      · split
        · exact (Emission.heeds_report rfl _).bind fun _ _ => hprimary dialect
        · exact hprimary dialect
      · refine h.bind fun items hitems => hhoisted dialect items ?_
        exact areMade_present hitems.1 fun hp => misfits_present (hitems.2 hp)

/-! ## Nodes -/

theorem heeds_boxed {x : Emission (Option Output)}
    (h : x.Heeds setup fun output => ∀ o ∈ output, Made setup.fixed o) :
    (Yield.boxed <$> (Yield.ofNode? <$> x)).Heeds setup (Yield.IsMade setup.fixed) := by
  have hboxed : (Yield.ofNode? <$> x).Heeds setup fun y => y.boxed.IsMade setup.fixed :=
    h.map fun _ => isMade_boxed_ofNode?
  exact hboxed.map fun _ hy => hy

theorem heeds_boxed_single {x : Emission Output} (h : x.Heeds setup (Made setup.fixed)) :
    (Yield.boxed <$> (Yield.single <$> x)).Heeds setup (Yield.IsMade setup.fixed) := by
  have hboxed : (Yield.single <$> x).Heeds setup fun y => y.boxed.IsMade setup.fixed := by
    refine h.map fun o ho => ?_
    have hsome : ∀ o' ∈ some o, Made setup.fixed o' := by
      intro o' ho'
      cases ho'
      exact ho
    exact isMade_boxed_ofNode? hsome
  exact hboxed.map fun _ hy => hy

theorem heeds_lowerElement {contents : Emission (List Item)} (hnone : setup.fixed.element = none)
    (h : contents.Heeds setup (Item.AreMade setup.fixed)) (mark : Mark) (tag : Tag) :
    (lowerElement setup mark tag contents).Heeds setup fun output =>
      ∀ o ∈ output, Made setup.fixed o := by
  have hkind : setup.fixed.replaces .element = false := by
    rw [FixedOutputs.replaces, hnone]
    rfl
  rcases lowerElement_cases h mark tag with heq | hheeds
  · rw [heq]
    refine Emission.heeds_reject ?_ nofun _
    simp [Setup.reports, FixedOutputs.silences, hnone]
  · refine ⟨?_, hheeds.2⟩
    obtain ⟨o, ho, hok, hchildren⟩ := hheeds.1
    rw [ho]
    intro o' ho'
    cases ho'
    exact .built (hok ▸ hkind) hchildren

theorem heeds_lowerSwitch {cases : Emission (List Output)} (hnone : setup.fixed.switch = none)
    (h : cases.Heeds setup fun outputs => ∀ o ∈ outputs, MadeCase setup.fixed o) (mark : Mark)
    (subject : Text) (nodes : List Node) :
    (lowerSwitch mark subject nodes cases).Heeds setup fun output =>
      ∀ o ∈ output, Made setup.fixed o := by
  have hkind : setup.fixed.replaces .switch = false := by rw [FixedOutputs.replaces, hnone]; rfl
  have hcase : setup.fixed.replaces .switchCase = false := by rw [FixedOutputs.replaces, hnone]; rfl
  rcases lowerSwitch_cases h mark subject nodes with ⟨problem, position, heq, hproblem⟩ | hheeds
  · rw [heq]
    refine Emission.heeds_reject ?_ nofun _
    rcases hproblem with ⟨kind, rfl⟩ | rfl
    · simp [Setup.reports, FixedOutputs.silences, hnone]
    · simp [Setup.reports, FixedOutputs.silences, hnone]
  · refine ⟨?_, hheeds.2⟩
    obtain ⟨o, ho, hok, hchildren⟩ := hheeds.1
    rw [ho]
    intro o' ho'
    cases ho'
    refine .built (hok ▸ hkind) fun c hc => ?_
    obtain ⟨hck, hbelow⟩ := hchildren c hc
    exact .built (hck ▸ hcase) hbelow

theorem heeds_lowerTag {contents : Emission (List Item)}
    (h : contents.Heeds setup (Item.AreMade setup.fixed)) (place : Place) (mark : Mark)
    (tag : Tag) (body : Option Block) :
    (lowerTag setup place mark tag body contents).Heeds setup (Yield.IsMade setup.fixed) := by
  unfold lowerTag
  split
  · rename_i hdisallowed
    have hreport : setup.reports (.disallowedTag tag.name) = true := hdisallowed
    exact Emission.Heeds.map (Emission.heeds_reject hreport nofun _) fun _ => isMade_ofNodes?
  · split
    · exact (heeds_lowerScript h place mark tag body).map fun _ => isMade_ofNodes?
    · refine heeds_unlessFixed (by simp [FixedOutputs.all]) (fun hp => hp.element) fun hnone => ?_
      exact heeds_boxed (heeds_lowerElement hnone h mark tag)

mutual

/-- Lowering a node keeps to the fixed outputs. -/
theorem heeds_lowerNode (setup : Setup) (place : Place) :
    (n : Node) → (lowerNode setup place n).Heeds setup (Yield.IsMade setup.fixed)
  | .block (.mk _ nodes) => by
    rw [lowerNode]
    exact (heeds_lowerNodes setup _ nodes).map fun items hitems => ⟨hitems, hitems.2⟩
  | .tag mark tag body => by
    rw [lowerNode]
    exact heeds_lowerTag (heeds_lowerBody setup body) place mark tag body
  | .code mark code body => by
    rw [lowerNode]
    cases hy : setup.fixed.code with
    | none => exact (heeds_lowerCode hy code.buffer mark code body).map fun _ => isMade_ofNodes?
    | some y =>
      have hall : some y ∈ setup.fixed.all := by simp [FixedOutputs.all, hy]
      refine Emission.heeds_pure ⟨⟨?_, fun hp => Yield.misfits_items (hp.code y hy)⟩, ?_⟩
      · exact fun o ho => .copy hall (nodes_items_subset y o ho)
      · exact fun hp => hp.code y hy
  | .text mark value => by
    rw [lowerNode]
    refine Emission.heeds_pure (isMade_ofNodes ?_)
    intro o ho
    rw [List.mem_singleton.mp ho]
    exact made_leaf rfl rfl
  | .branch mark _ _ => by
    rw [lowerNode]
    exact Emission.Heeds.map (Emission.heeds_reject rfl nofun _) fun _ => isMade_ofNodes?
  | .switch mark subject (.mk _ nodes) => by
    rw [lowerNode]
    refine heeds_unlessFixed (by simp [FixedOutputs.all]) (fun hp => hp.switch) fun hnone => ?_
    exact heeds_boxed (heeds_lowerSwitch hnone (heeds_lowerCases setup nodes) mark subject nodes)
  | .conditional chain => by
    rw [lowerNode]
    refine heeds_unlessFixed (by simp [FixedOutputs.all]) (fun hp => hp.conditional) fun hnone => ?_
    exact heeds_boxed_single ((heeds_lowerConditional setup chain).mono fun _ h => h.made hnone)
  | .each mark loop body alternate => by
    rw [lowerNode]
    refine heeds_unlessFixed (by simp [FixedOutputs.all]) (fun hp => hp.each) fun hnone => ?_
    have hkind : setup.fixed.replaces .iteration = false := by
      rw [FixedOutputs.replaces, hnone]
      rfl
    have hlowered := heeds_lowerEach (heeds_lowerBlock setup body)
      (heeds_lowerAlternative setup alternate) mark loop
    exact heeds_boxed_single (hlowered.mono fun o ho => .built (ho.1 ▸ hkind) ho.2)
  | .other mark kind => by
    rw [lowerNode]
    exact Emission.Heeds.map (Emission.heeds_reject rfl nofun _) fun _ => isMade_ofNodes?

theorem heeds_lowerNodes (setup : Setup) (place : Place) :
    (nodes : List Node) →
      (lowerNodes setup place nodes).Heeds setup (Item.AreMade setup.fixed)
  | [] => by
    rw [lowerNodes]
    exact Emission.heeds_pure areMade_nil
  | n :: rest => by
    rw [lowerNodes]
    refine (heeds_lowerNode setup place n).bind fun y hy => ?_
    refine (heeds_lowerNodes setup place rest).bind fun others hothers => ?_
    exact Emission.heeds_pure (areMade_append hy.1 hothers)

theorem heeds_lowerBlock (setup : Setup) :
    (b : Block) → (lowerBlock setup b).Heeds setup (AllMade setup.fixed)
  | .mk _ nodes => by
    rw [lowerBlock]
    exact (heeds_lowerNodes setup {} nodes).bind fun _ => Emission.heeds_solid

theorem heeds_lowerBody (setup : Setup) :
    (body : Option Block) → (lowerBody setup body).Heeds setup (Item.AreMade setup.fixed)
  | none => by
    rw [lowerBody]
    exact Emission.heeds_pure areMade_nil
  | some (.mk _ nodes) => by
    rw [lowerBody]
    exact heeds_lowerNodes setup {} nodes

theorem heeds_lowerAlternative (setup : Setup) :
    (body : Option Block) → (lowerAlternative setup body).Heeds setup (SomeMade setup.fixed)
  | none => by
    rw [lowerAlternative]
    exact Emission.heeds_pure nofun
  | some b => by
    rw [lowerAlternative]
    refine (heeds_lowerBlock setup b).map fun outputs houtputs => ?_
    intro os hos
    cases hos
    exact houtputs

theorem heeds_lowerCases (setup : Setup) :
    (nodes : List Node) → (lowerCases setup nodes).Heeds setup fun outputs =>
      ∀ o ∈ outputs, MadeCase setup.fixed o
  | [] => by
    rw [lowerCases]
    exact Emission.heeds_pure nofun
  | .branch mark test body :: rest => by
    rw [lowerCases]
    refine (heeds_lowerAlternative setup body).bind fun children hchildren => ?_
    refine (heeds_lowerCases setup rest).bind fun others hothers => Emission.heeds_pure ?_
    exact List.forall_mem_cons.mpr ⟨madeCase_switchCase mark test hchildren, hothers⟩
  | .block _ :: rest | .tag _ _ _ :: rest | .code _ _ _ :: rest | .text _ _ :: rest
  | .switch _ _ _ :: rest | .conditional _ :: rest | .each _ _ _ _ :: rest | .other _ _ :: rest => by
    rw [lowerCases]
    · exact heeds_lowerCases setup rest
    · exact nofun

theorem heeds_lowerConditional (setup : Setup) :
    (c : Conditional) → (lowerConditional setup c).Heeds setup (MadeChain setup.fixed)
  | .mk mark test consequent alternate => by
    rw [lowerConditional]
    refine (heeds_lowerBlock setup consequent).bind fun outputs houtputs => ?_
    refine (heeds_lowerAlternate setup alternate).bind fun other hother => Emission.heeds_pure ?_
    rcases hother with hother | hother
    · exact .ends mark test houtputs hother
    · exact .links mark test houtputs hother

theorem heeds_lowerAlternate (setup : Setup) :
    (alternate : Option Alternate) → (lowerAlternate setup alternate).Heeds setup fun o =>
      Made setup.fixed o ∨ MadeChain setup.fixed o
  | none => by
    rw [lowerAlternate]
    exact Emission.heeds_pure (.inl (made_leaf rfl rfl))
  | some (.block b) => by
    rw [lowerAlternate]
    exact (heeds_lowerBlock setup b).map fun _ houtputs => .inl (made_fragment houtputs)
  | some (.chain c) => by
    rw [lowerAlternate]
    exact (heeds_lowerConditional setup c).mono fun _ => .inr

end

end Constructs

/-! ## Documents -/

section Documents

variable {setup : Setup} {root : Node}

/-- The result of a document that is lowered without a fault. -/
theorem lowerDocument_of_no_fault
    (h : Event.faults (lowerNode setup { documentRoot := true } root).events = []) :
    (lowerDocument setup root).2 =
      (lowerNode setup { documentRoot := true } root).value.render.mapError .fault >>= fun render =>
        Report.ofItems (Event.statements (lowerNode setup { documentRoot := true } root).events) render
          (Event.diagnostics (lowerNode setup { documentRoot := true } root).events) := by
  simp only [lowerDocument, Emission.settle_of_faults_nil h]
  rfl

theorem lowerDocument_of_first_fault {fault : Fault} {rest : List Fault}
    (h : Event.faults (lowerNode setup { documentRoot := true } root).events = fault :: rest) :
    (lowerDocument setup root).2 = .error (.fault fault) := by
  simp only [lowerDocument, Emission.settle_of_fault h]
  rfl

theorem ofItems_eq_ok {statements render : List Item} {diagnostics : List Diagnostic}
    {report : Report} (h : Report.ofItems statements render diagnostics = .ok report) :
    report = ⟨Item.nodes statements, Item.nodes render, diagnostics⟩ := by
  unfold Report.ofItems at h
  split at h
  · cases h
    rfl
  · cases h

/-- What is in a result comes from the document's yield and events. -/
theorem report_of_lowerDocument {report : Report} (h : (lowerDocument setup root).2 = .ok report) :
    report = ⟨Item.nodes (Event.statements (lowerNode setup { documentRoot := true } root).events),
      Item.nodes (lowerNode setup { documentRoot := true } root).value.items,
      Event.diagnostics (lowerNode setup { documentRoot := true } root).events⟩ := by
  cases hf : Event.faults (lowerNode setup { documentRoot := true } root).events with
  | cons fault rest =>
    rw [lowerDocument_of_first_fault hf] at h
    cases h
  | nil =>
    rw [lowerDocument_of_no_fault hf] at h
    cases hy : (lowerNode setup { documentRoot := true } root).value with
    | single output =>
      rw [hy] at h
      cases h
    | nothing =>
      rw [hy] at h
      exact ofItems_eq_ok h
    | several items =>
      rw [hy] at h
      exact ofItems_eq_ok h

theorem mem_statements_of_heeds {events : List Event} (h : ∀ e ∈ events, e.Heeds setup) :
    Item.AreMade setup.fixed (Event.statements events) := by
  induction events with
  | nil => exact areMade_nil
  | cons e rest ih =>
    obtain ⟨he, hrest⟩ := List.forall_mem_cons.mp h
    rw [Event.statements, List.flatMap_cons]
    refine areMade_append ?_ (ih hrest)
    cases e with
    | hoisted dialect items => exact he
    | _ => exact areMade_nil

/-- A result is made of what is fixed and of what is not replaced. -/
theorem made_of_lowerDocument {report : Report} (h : (lowerDocument setup root).2 = .ok report) :
    (∀ o ∈ report.statements ++ report.render, Made setup.fixed o) ∧
      ∀ d ∈ report.diagnostics, setup.MayReport d := by
  obtain ⟨hvalue, hevents⟩ := heeds_lowerNode setup { documentRoot := true } root
  rw [report_of_lowerDocument h]
  constructor
  · intro o ho
    rcases List.mem_append.mp ho with ho | ho
    · exact (mem_statements_of_heeds hevents).1 o ho
    · exact hvalue.1.1 o ho
  · intro d hd
    obtain ⟨e, he, hed⟩ := List.mem_filterMap.mp hd
    cases e with
    | diagnosed d' =>
      cases hed
      exact hevents _ he
    | _ => cases hed

/-- Fixed outputs of the right form never keep a document from having a result: what can do so is a
script that cannot be read, and only if the construct for scripts is not replaced. -/
theorem result_of_isProper (hproper : setup.fixed.IsProper) (root : Node) :
    (∃ report, (lowerDocument setup root).2 = .ok report) ∨
      setup.fixed.script = none ∧
        ∃ fault, fault.isOfScript = true ∧ (lowerDocument setup root).2 = .error (.fault fault) := by
  obtain ⟨hvalue, hevents⟩ := heeds_lowerNode setup { documentRoot := true } root
  cases hf : Event.faults (lowerNode setup { documentRoot := true } root).events with
  | cons fault rest =>
    right
    have hmem : fault ∈ Event.faults (lowerNode setup { documentRoot := true } root).events := by
      rw [hf]
      exact List.mem_cons_self
    obtain ⟨e, he, hfault⟩ := List.mem_filterMap.mp hmem
    cases e with
    | faulted fault' =>
      cases hfault
      obtain ⟨hnone, hscript⟩ := hevents _ he hproper
      exact ⟨hnone, fault, hscript, lowerDocument_of_first_fault hf⟩
    | _ => cases hfault
  | nil =>
    left
    have hrender := Yield.render_of_isPlain (hvalue.2 hproper)
    have hmisfits : Item.misfits
        (Event.statements (lowerNode setup { documentRoot := true } root).events ++
          (lowerNode setup { documentRoot := true } root).value.items) = [] :=
      (areMade_append (mem_statements_of_heeds hevents) hvalue.1).2 hproper
    rw [lowerDocument_of_no_fault hf, hrender]
    change ∃ report, Report.ofItems _ _ _ = .ok report
    rw [Report.ofItems, hmisfits]
    exact ⟨_, rfl⟩

end Documents

/-! ## Single passes -/

/-- The passes that lower nodes inside their own, each on the nodes of its construct. -/
def Pass.suits : Pass → Node → Bool
  | .element, .tag _ _ _ => true
  | .switch, .switch _ _ _ => true
  | .conditional, .conditional _ => true
  | .each, .each _ _ _ _ => true
  | _, _ => false

/-- The problems for which a pass refuses its own node. -/
def Pass.refuses : Pass → Problem → Bool
  | .element, .attributeBlocks => true
  | .switch, .strayInCase _ | .switch, .secondDefault => true
  | _, _ => false

/-- What a pass makes itself, with nothing below it but copies of fixed outputs and what is not
replaced. -/
def MadeBelow (fixed : FixedOutputs) : Pass → Output → Prop
  | .switch, o => ∀ c ∈ o.children, MadeCase fixed c
  | .conditional, o => MadeChain fixed o
  | _, o => AllMade fixed o.children

section Passes

variable {setup : Setup}

theorem map_reject {α β : Type} (f : α → β) (problem : Problem) (position : Position) :
    Option.map f <$> (reject problem position : Emission (Option α)) = reject problem position :=
  Emission.ext rfl rfl

/-- A pass on a node of its construct refuses the node, or keeps to the fixed outputs below its own
nodes. -/
theorem lower_of_suits {pass : Pass} {n : Node} (h : pass.suits n = true) (settings : Settings) :
    (∃ problem position, pass.refuses problem = true ∧
        pass.lower settings setup n = reject problem position) ∨
      (pass.lower settings setup n).Heeds setup fun y =>
        ∃ o, y = some (.single o) ∧ MadeBelow setup.fixed pass o := by
  cases pass with
  | node | script | code => cases h
  | element =>
    cases n with
    | tag mark tag body =>
      rcases lowerElement_cases (heeds_lowerBody setup body) mark tag with heq | hheeds
      · left
        refine ⟨.attributeBlocks, mark.position, rfl, ?_⟩
        rw [Pass.lower, Pass.lowerAsElement, heq, map_reject]
      · right
        refine hheeds.map ?_
        rintro _ ⟨o, rfl, -, hchildren⟩
        exact ⟨o, rfl, hchildren⟩
    | _ => cases h
  | switch =>
    cases n with
    | switch mark subject body =>
      rcases lowerSwitch_cases (heeds_lowerCases setup body.nodes) mark subject body.nodes with
        ⟨problem, position, heq, hproblem⟩ | hheeds
      · left
        refine ⟨problem, position, ?_, ?_⟩
        · rcases hproblem with ⟨kind, rfl⟩ | rfl <;> rfl
        · simp only [Pass.lower, Pass.lowerAsSwitch, Node.body?, Node.subject?, Node.mark, heq,
            map_reject]
      · right
        refine hheeds.map ?_
        rintro _ ⟨o, rfl, -, hchildren⟩
        exact ⟨o, rfl, hchildren⟩
    | _ => cases h
  | conditional =>
    cases n with
    | conditional chain =>
      exact .inr ((heeds_lowerConditional setup chain).map fun o ho => ⟨o, rfl, ho⟩)
    | _ => cases h
  | each =>
    cases n with
    | each mark loop body alternate =>
      have hlowered := heeds_lowerEach (heeds_lowerBlock setup body)
        (heeds_lowerAlternative setup alternate) mark loop
      exact .inr (hlowered.map fun o ho => ⟨o, rfl, ho.2⟩)
    | _ => cases h

/-- Nodes that are lowered alike are lowered alike in every gap of a node that a pass is run on. -/
theorem Gap.lower_congr (gap : Gap setup.config) {pass : Pass} {ys ys' : List Node}
    (hsuits : pass.suits (gap.fill ys) = true)
    (h : lowerNodes setup {} ys = lowerNodes setup {} ys') (settings : Settings) :
    pass.lower settings setup (gap.fill ys) = pass.lower settings setup (gap.fill ys') := by
  induction gap generalizing ys ys' with
  | block mark => cases pass <;> cases hsuits
  | tag mark tag blockMark lowered =>
    cases pass with
    | element => simp only [Pass.lower, fill, Pass.lowerAsElement, lowerBody, h]
    | _ => cases hsuits
  | branch mark subject switchMark before branchMark test blockMark after =>
    cases pass with
    | switch =>
      simp only [Pass.lower, fill, Pass.lowerAsSwitch, Node.body?, Node.subject?, Node.mark,
        Block.nodes, lowerCases_congr h]
      rw [lowerSwitch_congr (caseProblem?_congr branchMark test _ (some (.mk blockMark ys')) before
        after)]
    | _ => cases hsuits
  | conditional chain =>
    cases pass with
    | conditional =>
      simp only [Pass.lower, fill, Pass.lowerAsConditional, chain.lowerConditional_congr h]
    | _ => cases hsuits
  | each mark loop blockMark alternate =>
    cases pass with
    | each => simp only [Pass.lower, fill, Pass.lowerAsEach, lowerBlock_congr h]
    | _ => cases hsuits
  | eachElse mark loop body blockMark =>
    cases pass with
    | each => simp only [Pass.lower, fill, Pass.lowerAsEach, lowerAlternative, lowerBlock_congr h]
    | _ => cases hsuits
  | inside outer before inner after ihOuter ihInner =>
    apply ihOuter hsuits
    apply lowerNodes_congr
    have hinner : lowerNode setup {} (inner.fill ys) = lowerNode setup {} (inner.fill ys') := by
      apply inner.lowerNode_congr
      rw [placeOf_eq (.inl rfl)]
      exact h
    rw [lowerNodes_singleton, hinner, lowerNodes_singleton]

end Passes

/-! ## Every place -/

/-- A node whose output is fixed yields it, at every place, and nothing happens on the way. -/
theorem lowerNode_of_fixed? {setup : Setup} {n : Node} {y : Yield} (h : n.fixed? setup = some y)
    (place : Place) : lowerNode setup place n = pure y := by
  have hboxed : ∀ {choice : Option Yield} (lowered : Emission Yield),
      choice.map Yield.boxed = some y → Yield.boxed <$> unlessFixed choice lowered = pure y := by
    intro choice lowered hchoice
    cases choice with
    | none => cases hchoice
    | some fixed =>
      cases hchoice
      rfl
  cases n with
  | block b => cases h
  | text mark value => cases h
  | branch mark test body => cases h
  | other mark kind => cases h
  | code mark code body =>
    rw [lowerNode]
    have hcode : setup.fixed.code = some y := h
    rw [hcode]
    rfl
  | tag mark tag body =>
    simp only [Node.fixed?] at h
    split at h
    · cases h
    · rename_i hname
      rw [not_or] at hname
      rw [lowerNode, lowerTag, if_neg hname.1, if_neg hname.2]
      exact hboxed _ h
  | switch mark subject body =>
    obtain ⟨blockMark, nodes⟩ := body
    rw [lowerNode]
    exact hboxed _ h
  | conditional chain =>
    rw [lowerNode]
    exact hboxed _ h
  | each mark loop body alternate =>
    rw [lowerNode]
    exact hboxed _ h

theorem lowerNodes_of_fixed? {setup : Setup} {n : Node} {y : Yield} (h : n.fixed? setup = some y)
    (place : Place) : lowerNodes setup place [n] = pure y.items := by
  rw [lowerNodes_singleton, lowerNode_of_fixed? h]
  rfl

/-- A script that would be read hoists the fixed statements instead; of its contents no more is
looked at than whether they are all text. -/
theorem lowerNode_of_fixed_script {setup : Setup} {y : Yield} (hy : setup.fixed.script = some y)
    {mark : Mark} {tag : Tag} {body : Option Block}
    (hs : (Node.tag mark tag body).isScript setup.config = true)
    (hp : tag.scriptProblem? setup.config = none)
    (hd : tag.dialect setup.config = setup.config.primaryDialect) :
    lowerNode setup { topLevel := true } (.tag mark tag body) =
      ⟨.several [], (if hasMarkup body then
          [.diagnosed (Problem.scriptWithMarkup.diagnosticAt mark.position)] else []) ++
        [.hoisted setup.config.primaryDialect (Item.present y.items)]⟩ := by
  obtain ⟨hallowed, hname⟩ := Node.isScript_tag.mp hs
  have hscript : lowerScript setup { topLevel := true } mark tag body (lowerBody setup body) =
      ⟨some [], (if hasMarkup body then
          [.diagnosed (Problem.scriptWithMarkup.diagnosticAt mark.position)] else []) ++
        [.hoisted setup.config.primaryDialect (Item.present y.items)]⟩ := by
    simp only [lowerScript, Tag.scriptDialect_eq, hp, hd, primaryStatements, hy]
    cases hasMarkup body <;> rfl
  have hdisallowed : ¬setup.config.disallowedTags.contains tag.name = true := by simpa using hallowed
  rw [lowerNode, lowerTag, if_neg hdisallowed, if_pos hname, hscript]
  exact Emission.ext rfl (Emission.events_map _ _)

/-- A construct with a fixed output yields it at every place of every document, and of every node
that a pass is run on: nothing happens at such a node, and in every gap it can be exchanged for any
nodes that yield the same without an event. A script that would be read hoists the fixed statements.
So what only replaced constructs make stands in a result nowhere but in copies of the fixed outputs,
and what only they report is not reported; below the nodes that a pass makes itself it is the same.
One diagnostic of theirs has a double: a tag that is not allowed and is named `&attributes` is
refused in the words for blocks of attributes. Fixed outputs of the right form never keep a document
from having a result. -/
theorem fixedOutputs_reach (setup : Setup) :
    (∀ (n : Node) (y : Yield), n.fixed? setup = some y →
      (∀ place, lowerNode setup place n = pure y) ∧
      (∀ (gap : Gap setup.config) (place : Place) (xs ns zs : List Node),
        lowerNodes setup (gap.placeOf place) ns = pure y.items →
          lowerNode setup place (gap.fill (xs ++ [n] ++ zs)) =
            lowerNode setup place (gap.fill (xs ++ ns ++ zs))) ∧
      ∀ (pass : Pass) (settings : Settings) (gap : Gap setup.config) (xs ns zs : List Node),
        pass.suits (gap.fill (xs ++ [n] ++ zs)) = true →
          lowerNodes setup {} ns = pure y.items →
            pass.lower settings setup (gap.fill (xs ++ [n] ++ zs)) =
              pass.lower settings setup (gap.fill (xs ++ ns ++ zs))) ∧
    (∀ (mark : Mark) (tag : Tag) (body : Option Block) (y : Yield), setup.fixed.script = some y →
      (Node.tag mark tag body).isScript setup.config = true →
      tag.scriptProblem? setup.config = none →
      tag.dialect setup.config = setup.config.primaryDialect →
        lowerNode setup { topLevel := true } (.tag mark tag body) =
          ⟨.several [], (if hasMarkup body then
              [.diagnosed (Problem.scriptWithMarkup.diagnosticAt mark.position)] else []) ++
            [.hoisted setup.config.primaryDialect (Item.present y.items)]⟩) ∧
    (∀ (root : Node) (report : Report), (lowerDocument setup root).2 = .ok report →
      (∀ o ∈ report.statements ++ report.render, Made setup.fixed o) ∧
        ∀ d ∈ report.diagnostics, setup.MayReport d) ∧
    (∀ (pass : Pass) (n : Node) (settings : Settings), pass.suits n = true →
      (∃ problem position, pass.refuses problem = true ∧
          pass.lower settings setup n = reject problem position) ∨
        (pass.lower settings setup n).Heeds setup fun y =>
          ∃ o, y = some (.single o) ∧ MadeBelow setup.fixed pass o) ∧
    (∀ (problem : Problem) (position : Position), setup.fixed.silences problem = true →
      setup.MayReport (problem.diagnosticAt position) →
        problem = .attributeBlocks ∧ ("&attributes" : Text) ∈ setup.config.disallowedTags) ∧
    (setup.fixed.IsProper → ∀ root : Node,
      (∃ report, (lowerDocument setup root).2 = .ok report) ∨
        setup.fixed.script = none ∧ ∃ fault, fault.isOfScript = true ∧
          (lowerDocument setup root).2 = .error (.fault fault)) := by
  refine ⟨?_, ?_, ?_, ?_, ?_, result_of_isProper⟩
  · intro n y h
    refine ⟨lowerNode_of_fixed? h, ?_, ?_⟩
    · intro gap place xs ns zs hns
      apply gap.lowerNode_congr
      apply lowerNodes_congr
      rw [lowerNodes_of_fixed? h, hns]
    · intro pass settings gap xs ns zs hsuits hns
      apply gap.lower_congr hsuits
      apply lowerNodes_congr
      rw [lowerNodes_of_fixed? h, hns]
  · intro mark tag body y hy hs hp hd
    exact lowerNode_of_fixed_script hy hs hp hd
  · intro root report h
    exact made_of_lowerDocument h
  · intro pass n settings h
    exact lower_of_suits h settings
  · intro problem position hsilent hreport
    exact Setup.attributeBlocks_of_mayReport hsilent hreport

/-- A setup in which elements yield nothing and code yields a text. -/
def replacedSetup : Setup where
  reader := Grammar.reader fun _ _ => {}
  fixed := { element := some .nothing, code := some (.ofNodes [.text "c" {}]) }

/-- The block at the end of a conditional of two links. -/
def lastGap : Gap {} :=
  .conditional (.later {} "a" .empty (.alternate {} "b" .empty {}))

/-- Code with a block, which would be refused, at the end of a chain of conditionals: it yields the
fixed text, whether the conditional stands in a document or is lowered by a pass of its own. -/
theorem fixedOutputs_lastGap :
    (Node.code {} { value := "x" } (some .empty)).fixed? replacedSetup =
        some (.ofNodes [.text "c" {}]) ∧
      lowerNode replacedSetup {} (lastGap.fill ([] ++ [.code {} { value := "x" } (some .empty)] ++ [])) =
        lowerNode replacedSetup {} (lastGap.fill ([] ++ [.text {} "c"] ++ [])) ∧
      Pass.conditional.lower {} replacedSetup
          (lastGap.fill ([] ++ [.code {} { value := "x" } (some .empty)] ++ [])) =
        Pass.conditional.lower {} replacedSetup (lastGap.fill ([] ++ [.text {} "c"] ++ [])) := by
  have hfixed : (Node.code {} { value := "x" } (some .empty)).fixed? replacedSetup =
      some (.ofNodes [.text "c" {}]) := rfl
  have htext : ∀ place, lowerNodes replacedSetup place [.text {} "c"] =
      pure (Yield.ofNodes [.text "c" {}]).items := by
    intro place
    rw [lowerNodes_singleton, lowerNode]
    rfl
  obtain ⟨-, hnode, hpass⟩ := (fixedOutputs_reach replacedSetup).1 _ _ hfixed
  exact ⟨hfixed, hnode lastGap {} [] _ [] (htext _), hpass .conditional {} lastGap [] _ [] rfl (htext _)⟩

end Lowering
