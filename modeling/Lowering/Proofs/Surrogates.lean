import Lowering.Proofs.Records
import Lowering.Proofs.Shape

/-!
# Results without surrogates

Lowering makes no surrogates: every text in a result is copied from the template tree, decoded from
the octets of a script, or fixed.

* `Node.IsClean`: a tree none of whose texts holds a surrogate;
* `areClean_outputs`, `areClean_hoist`: what such a tree is lowered to, and what it hoists;
* `isClean_documentReport`: the result of such a document;
* `isClean_documentScripts`: the scripts in such a document.
-/

namespace Lowering

/-! ## Template trees without surrogates -/

/-- A mark whose file name holds no surrogate. -/
def Mark.IsClean (m : Mark) : Prop :=
  ∀ name ∈ m.filename, name.IsClean

/-- A value whose source holds no surrogate. -/
def AttributeValue.IsClean : AttributeValue → Prop
  | .source s => s.IsClean
  | .flag _ => True

/-- An attribute whose texts hold no surrogate. -/
def TagAttribute.IsClean (a : TagAttribute) : Prop :=
  a.name.IsClean ∧ a.value.IsClean

/-- A tag whose own texts hold no surrogate. -/
structure Tag.IsClean (tag : Tag) : Prop where
  name : tag.name.IsClean
  attributes : ∀ a ∈ tag.attributes, a.IsClean

/-- The head of an iteration without surrogates. -/
structure Loop.IsClean (loop : Loop) : Prop where
  collection : loop.collection.IsClean
  element : loop.element.IsClean
  key : ∀ key ∈ loop.key, key.IsClean

mutual

/-- A tree none of whose texts holds a surrogate. -/
def Node.IsClean : Node → Prop
  | .block b => b.IsClean
  | .tag mark tag body => mark.IsClean ∧ tag.IsClean ∧ BodyIsClean body
  | .code mark code body => mark.IsClean ∧ code.value.IsClean ∧ BodyIsClean body
  | .text mark value => mark.IsClean ∧ value.IsClean
  | .branch mark test body => mark.IsClean ∧ test.IsClean ∧ BodyIsClean body
  | .switch mark subject body => mark.IsClean ∧ subject.IsClean ∧ body.IsClean
  | .conditional chain => chain.IsClean
  | .each mark loop body alternate =>
    mark.IsClean ∧ loop.IsClean ∧ body.IsClean ∧ BodyIsClean alternate
  | .other mark kind => mark.IsClean ∧ kind.IsClean

def Block.IsClean : Block → Prop
  | .mk mark nodes => mark.IsClean ∧ NodesAreClean nodes

def Conditional.IsClean : Conditional → Prop
  | .mk mark test consequent alternate =>
    mark.IsClean ∧ test.IsClean ∧ consequent.IsClean ∧ AlternateIsClean alternate

def BodyIsClean : Option Block → Prop
  | none => True
  | some b => b.IsClean

def AlternateIsClean : Option Alternate → Prop
  | none => True
  | some (.block b) => b.IsClean
  | some (.chain chain) => chain.IsClean

def NodesAreClean : List Node → Prop
  | [] => True
  | n :: rest => n.IsClean ∧ NodesAreClean rest

end

theorem nodesAreClean_iff {nodes : List Node} : NodesAreClean nodes ↔ ∀ n ∈ nodes, n.IsClean := by
  induction nodes with
  | nil => simp [NodesAreClean]
  | cons n rest ih => rw [NodesAreClean, ih, List.forall_mem_cons]

theorem bodyIsClean_iff {body : Option Block} :
    BodyIsClean body ↔ ∀ b ∈ body.toList, b.IsClean := by
  cases body <;> simp [BodyIsClean]

theorem Block.IsClean.of_mem {b : Block} (h : b.IsClean) : ∀ n ∈ b.nodes, n.IsClean := by
  obtain ⟨mark, nodes⟩ := b
  rw [Block.IsClean] at h
  exact nodesAreClean_iff.mp h.2

mutual

theorem Conditional.isClean_blocks :
    (chain : Conditional) → chain.IsClean → ∀ b ∈ chain.blocks, b.IsClean
  | .mk mark test consequent alternate, h => by
    rw [Conditional.IsClean] at h
    rw [Conditional.blocks, List.forall_mem_cons]
    exact ⟨h.2.2.1, isClean_alternateBlocks alternate h.2.2.2⟩

theorem isClean_alternateBlocks :
    (alternate : Option Alternate) → AlternateIsClean alternate →
      ∀ b ∈ alternateBlocks alternate, b.IsClean
  | none, _ => by simp [alternateBlocks]
  | some (.block b), h => by
    rw [AlternateIsClean] at h
    simp [alternateBlocks, h]
  | some (.chain chain), h => by
    rw [AlternateIsClean] at h
    rw [alternateBlocks]
    exact chain.isClean_blocks h

end

/-- The blocks inside a node without surrogates are without them. -/
theorem Node.IsClean.blocks {n : Node} (h : n.IsClean) : ∀ b ∈ n.blocks, b.IsClean := by
  cases n with
  | block b =>
    rw [Node.IsClean] at h
    simp [Node.blocks, h]
  | tag mark tag body =>
    rw [Node.IsClean] at h
    exact bodyIsClean_iff.mp h.2.2
  | code mark code body =>
    rw [Node.IsClean] at h
    exact bodyIsClean_iff.mp h.2.2
  | branch mark test body =>
    rw [Node.IsClean] at h
    exact bodyIsClean_iff.mp h.2.2
  | switch mark subject body =>
    rw [Node.IsClean] at h
    intro b hb
    obtain ⟨n, hn, hbody⟩ := List.mem_filterMap.mp hb
    cases n with
    | branch branchMark test branchBody =>
      have hbranch := h.2.2.of_mem _ hn
      rw [Node.IsClean] at hbranch
      exact bodyIsClean_iff.mp hbranch.2.2 b (Option.mem_toList.mpr hbody)
    | _ => cases hbody
  | conditional chain =>
    rw [Node.IsClean] at h
    exact chain.isClean_blocks h
  | each mark loop body alternate =>
    rw [Node.IsClean] at h
    rw [Node.blocks, List.forall_mem_cons]
    exact ⟨h.2.2.1, bodyIsClean_iff.mp h.2.2.2⟩
  | text | other => simp [Node.blocks]

theorem Node.IsClean.topLevel {root : Node} (h : root.IsClean) :
    ∀ n ∈ root.topLevel, n.IsClean := by
  cases root with
  | block b =>
    rw [Node.IsClean] at h
    exact h.of_mem
  | _ => exact List.forall_mem_nil _

/-! ## Texts made by lowering -/

theorem Mark.IsClean.position {mark : Mark} (h : mark.IsClean) : mark.position.IsClean :=
  h

namespace Text

theorem isClean_trim {t : Text} (h : t.IsClean) : (trim t).IsClean := by
  refine h.of_subset fun p hp => ?_
  rw [trim, trimList, List.mem_reverse] at hp
  have hback := (List.dropWhile_suffix _).subset hp
  rw [List.mem_reverse] at hback
  exact (List.dropWhile_suffix _).subset hback

end Text

theorem Position.isClean_default : ({} : Position).IsClean :=
  forall_mem_none

namespace Literal

theorem isClean_unescape {p : CodePoint} (h : ∀ index, p ≠ .surrogate index) :
    ∀ index, unescape p ≠ .surrogate index := by
  intro index
  unfold unescape
  split
  · nofun
  · nofun
  · nofun
  · nofun
  · exact h index

/-- No escape stands for a surrogate. -/
theorem isClean_resolve {t : Text} (h : t.IsClean) : (resolve t).IsClean := by
  fun_induction resolve t with
  | case1 => exact Text.isClean_nil
  | case2 p rest ih =>
    rw [Text.isClean_cons, Text.isClean_cons] at h
    exact Text.isClean_cons.mpr ⟨isClean_unescape h.2.1, ih h.2.2⟩
  | case3 p rest _ ih =>
    rw [Text.isClean_cons] at h
    exact Text.isClean_cons.mpr ⟨h.1, ih h.2⟩

/-- There is no surrogate in the value of a literal that is not in its source. -/
theorem isClean_value? {source value : Text} (h : source.IsClean)
    (hv : value? source = some value) : value.IsClean := by
  obtain ⟨-, hvalue⟩ := Option.ite_none_right_eq_some.mp hv
  cases hvalue
  apply isClean_resolve
  apply h.of_subset
  exact List.Subset.trans (List.dropLast_sublist _).subset (List.drop_subset 1 source)

end Literal

theorem isClean_spelling {value : AttributeValue} (h : value.IsClean) : value.spelling.IsClean := by
  cases value with
  | source s => exact h
  | flag b => cases b <;> exact Text.isClean_ofString _

theorem isClean_plainText? {source text : Text} (h : source.IsClean)
    (ht : plainText? source = some text) : text.IsClean := by
  rw [plainText?, Option.filter_eq_some_iff] at ht
  exact Literal.isClean_value? h ht.1

theorem isClean_lowerAttribute {name : Text} {value : AttributeValue} (hname : name.IsClean)
    (hvalue : value.IsClean) : (lowerAttribute name value).IsClean := by
  have hsource := Text.isClean_trim (isClean_spelling hvalue)
  unfold lowerAttribute
  split
  · exact ⟨hname, forall_mem_none⟩
  · dsimp only
    split
    · rename_i text htext
      exact ⟨hname, forall_mem_some (isClean_plainText? hsource htext)⟩
    · exact ⟨hname, forall_mem_some hsource⟩

theorem isClean_allTexts {options : List (Option Text)} {texts : List Text}
    (h : ∀ option ∈ options, ∀ t ∈ option, t.IsClean) (ht : allTexts options = some texts) :
    ∀ t ∈ texts, t.IsClean := by
  induction options generalizing texts with
  | nil =>
    cases ht
    exact List.forall_mem_nil _
  | cons option rest ih =>
    rw [List.forall_mem_cons] at h
    cases option with
    | none => cases ht
    | some t =>
      obtain ⟨others, hothers, rfl⟩ := Option.map_eq_some_iff.mp ht
      exact List.forall_mem_cons.mpr ⟨h.1 t rfl, ih h.2 hothers⟩

theorem isClean_mergeClasses {name : Text} {values : List AttributeValue} (hname : name.IsClean)
    (hvalues : ∀ value ∈ values, value.IsClean) : (mergeClasses name values).IsClean := by
  have hsources : ∀ s ∈ values.map fun v => Text.trim v.spelling, s.IsClean := by
    rw [List.forall_mem_map]
    exact fun value hvalue => Text.isClean_trim (isClean_spelling (hvalues value hvalue))
  unfold mergeClasses
  dsimp only
  split
  · rename_i texts htexts
    refine ⟨hname, forall_mem_some ((Text.isClean_joinWith (Text.isClean_ofString _)).mpr ?_)⟩
    refine isClean_allTexts ?_ htexts
    rw [List.forall_mem_map]
    exact fun source hsource text htext => isClean_plainText? (hsources source hsource) htext
  · refine ⟨hname, forall_mem_some ?_⟩
    rw [Text.isClean_append, Text.isClean_append]
    exact ⟨⟨Text.isClean_ofString _, (Text.isClean_joinWith (Text.isClean_ofString _)).mpr hsources⟩,
      Text.isClean_ofString _⟩

/-- A configuration whose texts that may be shown hold no surrogate. -/
structure Config.IsClean (config : Config) : Prop where
  renames : ∀ rename ∈ config.renames, rename.2.IsClean
  primaryDialect : config.primaryDialect.IsClean
  templateDialect : config.templateDialect.IsClean
  language : config.language.IsClean

theorem Config.isClean_default : ({} : Config).IsClean where
  renames := by simp [Text.isClean_ofString]
  primaryDialect := Text.isClean_ofString _
  templateDialect := Text.isClean_ofString _
  language := Text.isClean_ofString _

section Lowered

variable {config : Config} (hconfig : config.IsClean)
include hconfig

theorem isClean_rename {name : Text} (h : name.IsClean) : (config.rename name).IsClean := by
  unfold Config.rename
  cases hl : config.renames.reverse.lookup name with
  | none => exact h
  | some other =>
    obtain ⟨before, after, heq, -⟩ := List.lookup_eq_some_iff.mp hl
    have hmem : (name, other) ∈ config.renames.reverse := by rw [heq]; simp
    exact hconfig.renames _ (List.mem_reverse.mp hmem)

theorem isClean_lowerRest {classes : Option (List AttributeValue)} {attributes : List TagAttribute}
    (hclasses : ∀ values ∈ classes, ∀ value ∈ values, value.IsClean)
    (h : ∀ a ∈ attributes, a.IsClean) : ∀ a ∈ lowerRest config classes attributes, a.IsClean := by
  induction attributes generalizing classes with
  | nil => exact List.forall_mem_nil _
  | cons a rest ih =>
    rw [List.forall_mem_cons] at h
    have hname := isClean_rename hconfig h.1.1
    unfold lowerRest
    dsimp only
    split
    · exact List.forall_mem_cons.mpr ⟨isClean_lowerAttribute hname h.1.2, ih hclasses h.2⟩
    · cases classes with
      | none => exact ih forall_mem_none h.2
      | some values =>
        refine List.forall_mem_cons.mpr ⟨?_, ih forall_mem_none h.2⟩
        have hvalues := hclasses values rfl
        unfold lowerClasses
        split
        · rename_i value
          exact isClean_lowerAttribute hname (hvalues value List.mem_cons_self)
        · exact isClean_mergeClasses hname hvalues

theorem isClean_lowerAttributes {attributes : List TagAttribute} (h : ∀ a ∈ attributes, a.IsClean) :
    ∀ a ∈ lowerAttributes config attributes, a.IsClean := by
  refine isClean_lowerRest hconfig (forall_mem_some ?_) h
  rw [classValues, List.forall_mem_map]
  exact fun a ha => (h a (List.mem_of_mem_filter ha)).2

end Lowered

/-! ## Outputs without surrogates -/

namespace Output

theorem areClean_nil : AreClean [] :=
  List.forall_mem_nil _

theorem areClean_cons {node : Output} {rest : List Output} :
    AreClean (node :: rest) ↔ node.OwnClean ∧ AreClean node.children ∧ AreClean rest :=
  forall_mem_walk_cons

theorem areClean_singleton {node : Output} :
    AreClean [node] ↔ node.OwnClean ∧ AreClean node.children := by
  rw [areClean_cons, and_iff_left areClean_nil]

theorem areClean_append {xs ys : List Output} (hx : AreClean xs) (hy : AreClean ys) :
    AreClean (xs ++ ys) :=
  forall_mem_walk_append.mpr ⟨hx, hy⟩

theorem areClean_flatMap {α : Type} {f : α → List Output} {xs : List α}
    (h : ∀ x ∈ xs, AreClean (f x)) : AreClean (xs.flatMap f) := by
  induction xs with
  | nil => exact areClean_nil
  | cons x rest ih =>
    rw [List.forall_mem_cons] at h
    rw [List.flatMap_cons]
    exact areClean_append h.1 (ih h.2)

/-- A node that is no element has no name and no attributes. -/
theorem ownClean_of_value {kind : Kind} {value : Option Text} {params : List Text}
    {children : List Output} {location : Position} (hv : ∀ v ∈ value, v.IsClean)
    (hp : ∀ p ∈ params, p.IsClean) (hl : location.IsClean) :
    OwnClean ⟨kind, none, value, [], params, children, location⟩ :=
  ⟨forall_mem_none, hv, List.forall_mem_nil _, hp, hl⟩

theorem areClean_fragment {children : List Output} (h : AreClean children) :
    AreClean [fragment children] := by
  rw [areClean_singleton]
  exact ⟨ownClean_of_value forall_mem_none (List.forall_mem_nil _) Position.isClean_default, h⟩

theorem areClean_leaf {kind : Kind} {value : Text} {location : Position} (hv : value.IsClean)
    (hl : location.IsClean) :
    AreClean [{ kind := kind, value := some value, location := location }] := by
  rw [areClean_singleton]
  exact ⟨ownClean_of_value (forall_mem_some hv) (List.forall_mem_nil _) hl, areClean_nil⟩

end Output

section Constructs

variable {mark : Mark} (hmark : mark.IsClean)
include hmark

theorem areClean_elementOutput {config : Config} (hconfig : config.IsClean) {tag : Tag}
    (htag : tag.IsClean) {children : List Output} (h : Output.AreClean children) :
    Output.AreClean [elementOutput config mark tag children] := by
  rw [Output.areClean_singleton]
  exact ⟨⟨forall_mem_some htag.name, forall_mem_none,
    isClean_lowerAttributes hconfig htag.attributes, List.forall_mem_nil _, hmark⟩, h⟩

theorem areClean_conditionalOutput {test : Text} (htest : test.IsClean) {consequent : List Output}
    {alternate : Output} (hc : Output.AreClean consequent) (ha : Output.AreClean [alternate]) :
    Output.AreClean [conditionalOutput mark test consequent alternate] := by
  rw [Output.areClean_singleton]
  refine ⟨Output.ownClean_of_value (forall_mem_some htest) (List.forall_mem_nil _) hmark.position,
    ?_⟩
  exact Output.areClean_append (Output.areClean_fragment hc) ha

theorem areClean_iterationOutput {loop : Loop} (hloop : loop.IsClean) {body : List Output}
    {alternate : Option (List Output)} (hb : Output.AreClean body)
    (ha : ∀ children ∈ alternate, Output.AreClean children) :
    Output.AreClean [iterationOutput mark loop body alternate] := by
  have hparams : ∀ param ∈ loop.params, param.IsClean := by
    unfold Loop.params
    split
    · simp [hloop.element]
    · rename_i key hkey
      have hkey := hloop.key key hkey
      split <;> simp [hloop.element, hkey]
  rw [Output.areClean_singleton]
  refine ⟨Output.ownClean_of_value (forall_mem_some hloop.collection) hparams hmark.position, ?_⟩
  cases alternate with
  | none => exact Output.areClean_fragment hb
  | some children =>
    exact Output.areClean_append (Output.areClean_fragment hb)
      (Output.areClean_fragment (ha children rfl))

theorem areClean_switchCase {test : Text} (htest : test.IsClean) {children : Option (List Output)}
    (h : ∀ list ∈ children, Output.AreClean list) :
    Output.AreClean [switchCase mark test children] := by
  have hvalue : ∀ value ∈ (switchCase mark test children).value, value.IsClean := by
    unfold switchCase
    dsimp only
    split
    · exact forall_mem_none
    · exact forall_mem_some htest
  rw [Output.areClean_singleton]
  refine ⟨Output.ownClean_of_value hvalue (List.forall_mem_nil _) hmark.position, ?_⟩
  cases children with
  | none => exact Output.areClean_nil
  | some list => exact Output.areClean_fragment (h list rfl)

theorem areClean_switchOutput {subject : Text} (hsubject : subject.IsClean) {cases : List Output}
    (h : Output.AreClean cases) : Output.AreClean [switchOutput mark subject cases] := by
  rw [Output.areClean_singleton]
  exact ⟨Output.ownClean_of_value (forall_mem_some hsubject) (List.forall_mem_nil _) hmark.position,
    h⟩

end Constructs

section Nodes

variable {config : Config} {reader : ScriptReader}

theorem areClean_bodyOutputs {body : Option Block}
    (h : ∀ b ∈ body.toList, Output.AreClean (b.outputs (.standard config reader))) :
    Output.AreClean (body.elim [] (Block.outputs (.standard config reader))) ∧
      ∀ children ∈ body.map (Block.outputs (.standard config reader)),
        Output.AreClean children := by
  cases body with
  | none => exact ⟨Output.areClean_nil, forall_mem_none⟩
  | some b =>
    have hb := h b (by simp)
    exact ⟨hb, forall_mem_some hb⟩

theorem areClean_caseOutputs {nodes : List Node} (hnodes : ∀ n ∈ nodes, n.IsClean)
    (h : ∀ b ∈ nodes.filterMap Node.branchBody?,
      Output.AreClean (b.outputs (.standard config reader))) :
    Output.AreClean (nodes.filterMap (Node.caseOutput? (.standard config reader))) := by
  induction nodes with
  | nil => exact Output.areClean_nil
  | cons n rest ih =>
    rw [List.forall_mem_cons] at hnodes
    cases n with
    | branch mark test body =>
      rw [Node.filterMap_branchBody?_cons, List.forall_mem_append] at h
      obtain ⟨hbranch, hrest⟩ := hnodes
      rw [Node.IsClean] at hbranch
      exact Output.areClean_append
        (areClean_switchCase hbranch.1 hbranch.2.1 (areClean_bodyOutputs h.1).2) (ih hrest h.2)
    | _ => exact ih hnodes.2 h

mutual

theorem areClean_lowerConditional :
    (chain : Conditional) → chain.IsClean →
      (∀ b ∈ chain.blocks, Output.AreClean (b.outputs (.standard config reader))) →
      Output.AreClean [(lowerConditional (.standard config reader) chain).value]
  | .mk mark test consequent alternate, hclean, h => by
    rw [Conditional.IsClean] at hclean
    rw [Conditional.blocks, List.forall_mem_cons] at h
    rw [value_lowerConditional]
    exact areClean_conditionalOutput hclean.1 hclean.2.1 h.1
      (areClean_lowerAlternate alternate hclean.2.2.2 h.2)

theorem areClean_lowerAlternate :
    (alternate : Option Alternate) → AlternateIsClean alternate →
      (∀ b ∈ alternateBlocks alternate,
        Output.AreClean (b.outputs (.standard config reader))) →
      Output.AreClean [(lowerAlternate (.standard config reader) alternate).value]
  | none, _, _ => by
    rw [value_lowerAlternate_none, Output.areClean_singleton]
    exact ⟨Output.ownClean_of_value forall_mem_none (List.forall_mem_nil _) Position.isClean_default,
      Output.areClean_nil⟩
  | some (.block b), _, h => by
    rw [value_lowerAlternate_block]
    exact Output.areClean_fragment (h b (by simp [alternateBlocks]))
  | some (.chain chain), hclean, h => by
    rw [AlternateIsClean] at hclean
    rw [alternateBlocks] at h
    rw [value_lowerAlternate_chain]
    exact areClean_lowerConditional chain hclean h

end

/-- The outputs of a tree without surrogates are without them. -/
theorem areClean_outputs (hconfig : config.IsClean) {n : Node} (hn : n.IsClean) :
    Output.AreClean (n.outputs (.standard config reader)) := by
  induction n using Node.induct with
  | step n ih =>
    have hblocks : ∀ b ∈ n.blocks, Output.AreClean (b.outputs (.standard config reader)) := by
      intro b hb
      exact Output.areClean_flatMap fun m hm => ih b hb m hm ((hn.blocks b hb).of_mem m hm)
    cases n with
    | block b =>
      rw [Node.outputs_block]
      exact hblocks b (by simp [Node.blocks])
    | tag mark t body =>
      rw [Node.IsClean] at hn
      rw [Node.outputs_tag]
      split
      · exact areClean_elementOutput hn.1 hconfig hn.2.1 (areClean_bodyOutputs hblocks).1
      · exact Output.areClean_nil
    | code mark c body =>
      rw [Node.IsClean] at hn
      rw [Node.outputs_code]
      split
      · exact Output.areClean_leaf (Text.isClean_trim hn.2.1) hn.1.position
      · exact Output.areClean_nil
    | text mark value =>
      rw [Node.IsClean] at hn
      rw [Node.outputs_text]
      exact Output.areClean_leaf hn.2 hn.1.position
    | branch mark test body =>
      rw [Node.outputs_branch]
      exact Output.areClean_nil
    | switch mark subject b =>
      obtain ⟨blockMark, nodes⟩ := b
      rw [Node.IsClean] at hn
      rw [Node.outputs_switch]
      split
      · exact areClean_switchOutput hn.1 hn.2.1 (areClean_caseOutputs hn.2.2.of_mem hblocks)
      · exact Output.areClean_nil
    | conditional chain =>
      rw [Node.IsClean] at hn
      rw [Node.outputs_conditional]
      exact areClean_lowerConditional chain hn hblocks
    | each mark loop body alternate =>
      rw [Node.IsClean] at hn
      rw [Node.blocks, List.forall_mem_cons] at hblocks
      rw [Node.outputs_each]
      exact areClean_iterationOutput hn.1 hn.2.1 hblocks.1 (areClean_bodyOutputs hblocks.2).2
    | other mark kind =>
      rw [Node.outputs_other]
      exact Output.areClean_nil

end Nodes

/-! ## Statements without surrogates -/

theorem Utf8.isClean_of_decode {octets : List UInt8} {t : Text} (h : Utf8.decode octets = .ok t) :
    t.IsClean := by
  have hchars : ∀ (pieces : List Utf8.Piece) (offset : Nat) (t : Text),
      Utf8.chars offset pieces = .ok t → t.IsClean := by
    intro pieces
    induction pieces with
    | nil =>
      intro offset t ht
      cases ht
      exact Text.isClean_nil
    | cons piece rest ih =>
      intro offset t ht
      cases piece with
      | broken octets defect => cases ht
      | char c =>
        rw [Utf8.chars] at ht
        cases hrest : Utf8.chars (offset + (String.utf8EncodeChar c).length) rest with
        | error e =>
          rw [hrest] at ht
          cases ht
        | ok more =>
          rw [hrest] at ht
          cases ht
          refine Text.isClean_cons.mpr ⟨?_, ih _ _ hrest⟩
          intro index heq
          cases heq
  exact hchars _ _ _ h

theorem Syntax.isClean_text? {source t : Text} {n : Syntax} (h : n.text? source = some t) :
    t.IsClean := by
  unfold text? at h
  cases henc : Utf8.encode source with
  | error e =>
    rw [henc] at h
    cases h
  | ok octets =>
    simp only [henc] at h
    cases hdec : Utf8.decode (Script.slice octets n.start n.stop) with
    | error e =>
      rw [hdec] at h
      cases h
    | ok text =>
      rw [hdec] at h
      cases h
      exact Utf8.isClean_of_decode hdec

namespace Origins

/-- Origins whose file names hold no surrogates. -/
def AreClean (origins : Origins) : Prop :=
  ∀ entry ∈ origins, entry.2.IsClean

theorem areClean_ofTextsFrom {texts : List (Position × Text)} (h : ∀ t ∈ texts, t.1.IsClean)
    (row : Nat) (atStart : Bool) : (ofTextsFrom row atStart texts).AreClean := by
  induction texts generalizing row atStart with
  | nil => exact List.forall_mem_nil _
  | cons t rest ih =>
    obtain ⟨position, s⟩ := t
    rw [List.forall_mem_cons] at h
    unfold ofTextsFrom
    dsimp only
    split
    · exact List.forall_mem_cons.mpr ⟨h.1, ih h.2 _ _⟩
    · exact ih h.2 _ _

theorem areClean_ofTexts {texts : List (Position × Text)} (h : ∀ t ∈ texts, t.1.IsClean)
    {tag : Position} (htag : tag.IsClean) : (ofTexts texts tag).AreClean := by
  have hknown := areClean_ofTextsFrom h 0 true
  unfold ofTexts
  dsimp only
  split
  · exact hknown
  · refine List.forall_mem_append.mpr ⟨hknown, ?_⟩
    intro entry hentry
    cases List.mem_singleton.mp hentry
    exact htag

theorem isClean_locate {origins : Origins} (h : origins.AreClean) {row column : Int}
    {position : Position} (hp : origins.locate row column = some position) : position.IsClean := by
  unfold locate at hp
  cases hf : origins.find? fun entry => (entry.1 : Int) == row with
  | some entry =>
    simp only [hf] at hp
    cases hp
    exact h entry (List.mem_of_find?_eq_some hf)
  | none =>
    simp only [hf] at hp
    obtain ⟨entry, hentry, rfl⟩ := Option.map_eq_some_iff.mp hp
    exact h entry (List.mem_of_mem_filter (mem_of_highest hentry))

end Origins

section Scripts

variable {mark : Mark} {body : Option Block}

/-- The texts in a body without surrogates are without them, and so are their positions. -/
theorem isClean_directTexts (hbody : BodyIsClean body) :
    ∀ t ∈ directTexts body, t.1.IsClean ∧ t.2.IsClean := by
  rw [← bodyTexts_eq_directTexts]
  cases body with
  | none => exact List.forall_mem_nil _
  | some b =>
    rw [BodyIsClean] at hbody
    intro t ht
    obtain ⟨n, hn, hnt⟩ := List.mem_filterMap.mp ht
    have hclean := hbody.of_mem n hn
    cases n with
    | text textMark value =>
      cases hnt
      rw [Node.IsClean] at hclean
      exact ⟨hclean.1.position, hclean.2⟩
    | _ => cases hnt

theorem isClean_scriptSource (hbody : BodyIsClean body) : (scriptSource body).IsClean := by
  intro index hmem
  obtain ⟨t, ht, hmem⟩ := List.mem_flatMap.mp hmem
  exact (isClean_directTexts hbody t ht).2 index hmem

/-- The scripts in a tree without surrogates are without them. -/
theorem isClean_documentScripts (config : Config) {root : Node} (hroot : root.IsClean) :
    ∀ source ∈ documentScripts config root, source.IsClean := by
  intro source hsource
  obtain ⟨n, hn, hsource⟩ := List.mem_filterMap.mp hsource
  have hclean := hroot.topLevel n hn
  cases n with
  | tag mark tag body =>
    rw [Node.IsClean] at hclean
    simp only [Node.scriptSource?] at hsource
    split at hsource
    · cases hsource
      exact isClean_scriptSource hclean.2.2
    · cases hsource
  | _ => cases hsource

variable (hmark : mark.IsClean) (hbody : BodyIsClean body)
include hmark hbody

/-- A position in a script is that of a text or of the tag, with a file of theirs. -/
theorem isClean_scriptPosition (row column : Int) :
    (scriptPosition mark body row column).IsClean := by
  have horigins : (scriptOrigins mark body).AreClean :=
    Origins.areClean_ofTexts (fun t ht => (isClean_directTexts hbody t ht).1) hmark.position
  unfold scriptPosition
  cases hl : (scriptOrigins mark body).locate row column with
  | none => exact Position.isClean_default
  | some position => exact Origins.isClean_locate horigins hl

theorem areClean_scriptStatements (config : Config) (grammar : Grammar) :
    Output.AreClean (scriptStatements config grammar mark body) := by
  unfold scriptStatements
  dsimp only
  split
  · exact Output.areClean_nil
  · rw [List.map_eq_flatMap]
    refine Output.areClean_flatMap fun n _ => ?_
    refine Output.areClean_leaf ?_ (isClean_scriptPosition hmark hbody _ _)
    cases ht : n.text? (scriptSource body) with
    | none => exact Text.isClean_nil
    | some text => exact Syntax.isClean_text? ht

end Scripts

theorem areClean_hoist {config : Config} (hconfig : config.IsClean) (grammar : Grammar) {n : Node}
    (hn : n.IsClean) : Output.AreClean (n.hoist config grammar) := by
  cases n with
  | tag mark t body =>
    rw [Node.IsClean] at hn
    rw [Node.hoist]
    split
    · split
      · exact areClean_scriptStatements hn.1 hn.2.2 config grammar
      · simp only [lowerBlock_eq]
        refine (areClean_bodyOutputs fun b hb => ?_).1
        have hb := bodyIsClean_iff.mp hn.2.2 b hb
        exact Output.areClean_flatMap fun m hm => areClean_outputs hconfig (hb.of_mem m hm)
    · exact Output.areClean_nil
  | _ => exact Output.areClean_nil

/-! ## Diagnostics without surrogates -/

theorem Node.IsClean.mark {n : Node} (h : n.IsClean) : n.mark.IsClean := by
  cases n with
  | block b =>
    obtain ⟨mark, nodes⟩ := b
    rw [Node.IsClean, Block.IsClean] at h
    exact h.1
  | conditional chain =>
    obtain ⟨mark, test, consequent, alternate⟩ := chain
    rw [Node.IsClean, Conditional.IsClean] at h
    exact h.1
  | _ =>
    rw [Node.IsClean] at h
    exact h.1

theorem Node.IsClean.kind {n : Node} (h : n.IsClean) : n.kind.IsClean := by
  cases n with
  | other mark kind =>
    rw [Node.IsClean] at h
    exact h.2
  | _ => exact Text.isClean_ofString _

theorem Problem.isClean_diagnosticAt {problem : Problem} {position : Position}
    (hproblem : problem.reason.IsClean) (hposition : position.IsClean) :
    (problem.diagnosticAt position).IsClean := by
  refine ⟨?_, hposition⟩
  intro reason hreason
  cases List.mem_singleton.mp hreason
  exact hproblem

section Diagnosed

variable {config : Config} (hconfig : config.IsClean)

theorem isClean_caseProblem? {nodes : List Node} (h : ∀ n ∈ nodes, n.IsClean) {problem : Problem}
    {position : Position} (hp : caseProblem? nodes = some (problem, position)) :
    problem.reason.IsClean ∧ position.IsClean := by
  unfold caseProblem? at hp
  cases hf : nodes.find? fun n => !n.isBranch with
  | some stray =>
    simp only [hf] at hp
    cases hp
    have hstray := h stray (List.mem_of_find?_eq_some hf)
    exact ⟨by simp [Problem.reason, Text.isClean_append, Text.isClean_ofString, hstray.kind],
      hstray.mark.position⟩
  | none =>
    simp only [hf] at hp
    obtain ⟨second, hsecond, heq⟩ := Option.map_eq_some_iff.mp hp
    cases heq
    have hmem := List.mem_of_mem_filter (List.mem_of_getElem? hsecond)
    exact ⟨Text.isClean_ofString _, (h second hmem).mark.position⟩

include hconfig

theorem isClean_scriptProblem? {tag : Tag} {problem : Problem}
    (h : tag.scriptProblem? config = some problem) : problem.reason.IsClean := by
  unfold Tag.scriptProblem? at h
  split at h
  · cases h
    exact Text.isClean_ofString _
  · split at h
    · cases h
    · cases h
      simp [Problem.reason, Text.isClean_append, Text.isClean_ofString, hconfig.primaryDialect,
        hconfig.templateDialect]

theorem isClean_refusal? {n : Node} (hn : n.IsClean) {problem : Problem} {position : Position}
    (h : n.refusal? config = some (problem, position)) :
    problem.reason.IsClean ∧ position.IsClean := by
  have hposition := hn.mark.position
  cases n with
  | tag mark tag body =>
    rw [Node.IsClean] at hn
    simp only [Node.refusal?] at h
    split at h
    · cases h
      exact ⟨by simp [Problem.reason, Text.isClean_append, Text.isClean_ofString, hn.2.1.name],
        hposition⟩
    · split at h
      · cases h
        refine ⟨?_, hposition⟩
        cases hp : tag.scriptProblem? config with
        | none => exact Text.isClean_ofString _
        | some problem => exact isClean_scriptProblem? hconfig hp
      · split at h
        · cases h
        · cases h
          exact ⟨Text.isClean_ofString _, hposition⟩
  | code mark code body =>
    simp only [Node.refusal?] at h
    split at h
    · cases h
    · cases h
      exact ⟨Text.isClean_ofString _, hposition⟩
  | branch mark test body =>
    cases h
    exact ⟨by simp [Problem.reason, Text.isClean_append, Text.isClean_ofString], hposition⟩
  | switch mark subject b =>
    rw [Node.IsClean] at hn
    exact isClean_caseProblem? hn.2.2.of_mem h
  | other mark kind =>
    rw [Node.IsClean] at hn
    cases h
    exact ⟨by simp [Problem.reason, Text.isClean_append, Text.isClean_ofString, hn.2], hposition⟩
  | block | text | conditional | each => cases h

theorem isClean_diagnostics_inner (reader : ScriptReader) (n : Node) (hn : n.IsClean) :
    ∀ d ∈ Event.diagnostics (n.events (.standard config reader) false), d.IsClean := by
  induction n using Node.induct with
  | step n ih =>
    cases h : n.refusal? config with
    | some refusal =>
      obtain ⟨problem, position⟩ := refusal
      obtain ⟨hproblem, hposition⟩ := isClean_refusal? hconfig hn h
      rw [Node.events_of_refusal h, Event.diagnostics_diagnosed]
      intro d hd
      cases List.mem_singleton.mp hd
      exact Problem.isClean_diagnosticAt hproblem hposition
    | none =>
      rw [Node.events_of_accepted h, Event.diagnostics_flatMap]
      intro d hd
      obtain ⟨b, hb, hd⟩ := List.mem_flatMap.mp hd
      rw [Block.events, Event.diagnostics_flatMap] at hd
      obtain ⟨m, hm, hd⟩ := List.mem_flatMap.mp hd
      exact ih b hb m hm ((hn.blocks b hb).of_mem m hm) d hd

theorem isClean_diagnostics_body (reader : ScriptReader) {body : Option Block}
    (hbody : BodyIsClean body) : ∀ d ∈ Event.diagnostics
      (body.elim [] (Block.events (.standard config reader))), d.IsClean := by
  cases body with
  | none => exact List.forall_mem_nil _
  | some b =>
    rw [BodyIsClean] at hbody
    intro d hd
    rw [Option.elim_some, Block.events, Event.diagnostics_flatMap] at hd
    obtain ⟨m, hm, hd⟩ := List.mem_flatMap.mp hd
    exact isClean_diagnostics_inner hconfig reader m (hbody.of_mem m hm) d hd

theorem isClean_diagnostics_script {grammar : Grammar} {mark : Mark} {tag : Tag}
    {body : Option Block} (hs : (Node.tag mark tag body).isScript config = true)
    (hread : ∀ source ∈ (Node.tag mark tag body).scriptSource? config,
      Readable source (grammar config.language source))
    (hmark : mark.IsClean) (hbody : BodyIsClean body) :
    ∀ d ∈ Event.diagnostics
        ((Node.tag mark tag body).events (.standard config grammar.reader) true), d.IsClean := by
  cases hp : tag.scriptProblem? config with
  | some problem =>
    rw [Node.events_script_of_problem hs hp, Event.diagnostics_diagnosed]
    intro d hd
    cases List.mem_singleton.mp hd
    exact Problem.isClean_diagnosticAt (isClean_scriptProblem? hconfig hp) hmark.position
  | none =>
    by_cases hd : tag.dialect config = config.primaryDialect
    · have hsource : Readable (scriptSource body) (scriptTree config grammar body) :=
        hread _ (by simp [Node.scriptSource?, hs, hp, hd])
      rw [Node.events_script_primary hs hp hd, Event.diagnostics_append, Event.diagnostics_append,
        diagnostics_lowerScriptText_of_readable hsource]
      refine List.forall_mem_append.mpr ⟨List.forall_mem_append.mpr ⟨?_, ?_⟩, List.forall_mem_nil _⟩
      · split
        · intro d hd
          cases List.mem_singleton.mp hd
          exact Problem.isClean_diagnosticAt (Text.isClean_ofString _) hmark.position
        · exact List.forall_mem_nil _
      · split
        · intro d hd
          cases List.mem_singleton.mp hd
          refine Problem.isClean_diagnosticAt ?_ (isClean_scriptPosition hmark hbody _ _)
          exact Text.isClean_append.mpr ⟨Text.isClean_ofString _, hconfig.language⟩
        · exact List.forall_mem_nil _
    · rw [Node.events_script_template hs hp hd, Event.diagnostics_append]
      exact List.forall_mem_append.mpr
        ⟨isClean_diagnostics_body hconfig grammar.reader hbody, List.forall_mem_nil _⟩

theorem isClean_diagnostics_topLevel {grammar : Grammar} {n : Node} (hn : n.IsClean)
    (hread : ∀ source ∈ n.scriptSource? config, Readable source (grammar config.language source)) :
    ∀ d ∈ Event.diagnostics (n.events (.standard config grammar.reader) true), d.IsClean := by
  cases hs : n.isScript config with
  | false =>
    rw [Node.events_of_not_script hs]
    exact isClean_diagnostics_inner hconfig grammar.reader n hn
  | true =>
    cases n with
    | tag mark tag body =>
      rw [Node.IsClean] at hn
      exact isClean_diagnostics_script hconfig hs hread hn.1 hn.2.2
    | _ => cases hs

/-- The result of a tree without surrogates is without them. -/
theorem isClean_documentReport {grammar : Grammar} {root : Node} (hroot : root.IsClean)
    (hread : ReadableDocument config grammar root) :
    (documentReport (.standard config grammar.reader) root).IsClean where
  statements := by
    rw [documentReport, documentHoisted_eq hread]
    exact Output.areClean_flatMap fun n hn => areClean_hoist hconfig grammar (hroot.topLevel n hn)
  render := areClean_outputs hconfig hroot
  diagnostics := by
    cases root with
    | block b =>
      rw [Node.IsClean] at hroot
      intro d hd
      rw [documentReport, documentEvents, Event.diagnostics_flatMap] at hd
      obtain ⟨n, hn, hd⟩ := List.mem_flatMap.mp hd
      refine isClean_diagnostics_topLevel hconfig (hroot.of_mem n hn) ?_ d hd
      intro source hsource
      exact hread source (List.mem_filterMap.mpr ⟨n, hn, hsource⟩)
    | _ => exact isClean_diagnostics_inner hconfig grammar.reader _ hroot

end Diagnosed

end Lowering
