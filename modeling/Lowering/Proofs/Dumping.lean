import Lowering.Proofs.Brackets
import Lowering.Proofs.Shape

/-!
# What a dump shows

A dump shows the nodes of a result as source and its diagnostics on lines. Of a node it shows the
texts that nodes of its kind use, of a diagnostic the reasons, and the file unless the position is
unknown. A surrogate in one of these texts is a surrogate in the dump, and there are no others.

* `Output.shownTexts`, `Diagnostic.shownTexts`, `Report.shownTexts`: the texts that are shown;
* `Output.isClean_renderAll_iff`: the sources of nodes have no surrogate exactly if the texts that
  they show have none;
* `Report.isClean_dump_iff`: the same for the dump of a result.
-/

namespace Lowering

/-- The texts of a node that its source shows. -/
def Output.shownTexts (node : Output) : List Text :=
  match node.kind with
  | .element => node.name.toList ++ node.attributes.flatMap fun a => a.name :: a.value.toList
  | .iteration => node.value.toList ++ node.params
  | .text | .expression | .statement | .conditional | .switch | .switchCase => node.value.toList
  | .fragment | .null => []

/-- The texts of a diagnostic that its line shows. -/
def Diagnostic.shownTexts (d : Diagnostic) : List Text :=
  (if d.position.isUnknown then [] else d.position.filename.toList) ++ d.reasons

/-- The texts of a result that its dump shows. -/
def Report.shownTexts (r : Report) : List Text :=
  (Output.walk (r.statements ++ r.render)).flatMap Output.shownTexts ++
    r.diagnostics.flatMap Diagnostic.shownTexts

/-! ## Nodes -/

namespace Output

open Text

theorem isClean_shown {part : Option Text} :
    (shown part).IsClean ↔ ∀ t ∈ part.toList, t.IsClean := by
  cases part with
  | none => exact iff_of_true (isClean_ofString _) (List.forall_mem_nil _)
  | some t => exact List.forall_mem_singleton.symm

theorem isClean_braced {source : Text} : (braced source).IsClean ↔ source.IsClean := by
  simp [braced, isClean_append, isClean_ofString]

theorem isClean_attribute {a : Attribute} :
    a.render.IsClean ↔ ∀ t ∈ a.name :: a.value.toList, t.IsClean := by
  obtain ⟨name, value, isExpression⟩ := a
  cases value with
  | none => simp [Attribute.render]
  | some value => cases isExpression <;> simp [Attribute.render, isClean_append, isClean_ofString]

theorem isClean_attributeList {attributes : List Attribute} :
    (attributeList attributes).IsClean ↔
      ∀ t ∈ attributes.flatMap fun a => a.name :: a.value.toList, t.IsClean := by
  induction attributes with
  | nil => exact iff_of_true isClean_nil (List.forall_mem_nil _)
  | cons a rest ih =>
    unfold attributeList at ih ⊢
    rw [List.map_cons, List.flatten_cons, isClean_append, ih, isClean_cons, isClean_attribute,
      List.flatMap_cons, List.forall_mem_append]
    simp

theorem isClean_elementText {name : Option Text} {attributes : List Attribute}
    {children : List Text} :
    (elementText name attributes children).IsClean ↔
      (∀ t ∈ name.toList, t.IsClean) ∧
        (∀ t ∈ attributes.flatMap fun a => a.name :: a.value.toList, t.IsClean) ∧
        ∀ t ∈ children, t.IsClean := by
  cases children with
  | nil =>
    simp only [elementText, isClean_append, isClean_ofString, isClean_shown, isClean_attributeList,
      true_and, and_true, List.not_mem_nil, false_imp_iff, implies_true]
  | cons child rest =>
    simp only [elementText, isClean_append, isClean_ofString, isClean_shown, isClean_attributeList,
      isClean_flatten, true_and, and_true]
    tauto

theorem isClean_labelText {value : Option Text} :
    (labelText value).IsClean ↔ ∀ t ∈ value.toList, t.IsClean := by
  cases value <;> simp [labelText, isClean_append, isClean_ofString]

/-- Braces around a child bring in no surrogate. -/
theorem isClean_childText {node : Output} {text : Text} :
    (node.childText text).IsClean ↔ text.IsClean := by
  unfold childText
  split
  · rfl
  · exact isClean_braced

theorem isClean_zipWith_childText {nodes : List Output} {texts : List Text}
    (h : texts.length = nodes.length) :
    (∀ t ∈ nodes.zipWith childText texts, t.IsClean) ↔ ∀ t ∈ texts, t.IsClean := by
  induction nodes generalizing texts with
  | nil => rw [List.length_eq_zero_iff.mp h, List.zipWith_nil_right]
  | cons node rest ih =>
    cases texts with
    | nil => cases h
    | cons text others =>
      rw [List.zipWith_cons_cons, List.forall_mem_cons, List.forall_mem_cons, isClean_childText,
        ih (Nat.succ.inj h)]

/-- All children of a shaped node are rendered. -/
theorem entered_of_isShaped {node : Output} (h : node.IsShaped) :
    node.entered = node.children := by
  obtain ⟨kind, name, value, attributes, params, children, location⟩ := node
  cases kind with
  | conditional =>
    obtain ⟨consequent, alternate, hchildren, -⟩ := h
    dsimp only at hchildren
    subst hchildren
    rfl
  | iteration =>
    have hlength : children.length ∈ [1, 2] := h.1
    simp only [List.mem_cons, List.not_mem_nil, or_false] at hlength
    exact List.take_of_length_le (by simp only [Kind.entered]; omega)
  | switchCase => exact List.take_of_length_le h.1
  | element | fragment | switch => exact List.take_length
  | text | expression | statement | null =>
    have hchildren : children = [] := h
    subst hchildren
    rfl

/-- The step from the children of a shaped node to the node. -/
theorem isClean_assemble {node : Output} (h : node.IsShaped) {texts : List Text}
    (hlength : texts.length = node.children.length) :
    (node.assemble texts).IsClean ↔
      (∀ t ∈ node.shownTexts, t.IsClean) ∧ ∀ t ∈ texts, t.IsClean := by
  obtain ⟨kind, name, value, attributes, params, children, location⟩ := node
  dsimp only at hlength
  cases kind with
  | element =>
    simp only [assemble, shownTexts, isClean_elementText, isClean_zipWith_childText hlength,
      List.forall_mem_append, and_assoc]
  | fragment =>
    simp only [assemble, shownTexts, isClean_append, isClean_ofString, isClean_flatten,
      isClean_zipWith_childText hlength, List.not_mem_nil, false_imp_iff, implies_true, true_and,
      and_true]
  | conditional =>
    obtain ⟨consequent, alternate, hchildren, -⟩ := h
    dsimp only at hchildren
    subst hchildren
    obtain ⟨first, second, rfl⟩ := List.length_eq_two.mp hlength
    simp [assemble, shownTexts, conditionalText, isClean_append, isClean_ofString, isClean_shown]
  | iteration =>
    have hchildren : children.length ∈ [1, 2] := h.1
    rw [← hlength] at hchildren
    simp only [List.mem_cons, List.not_mem_nil, or_false, List.length_eq_one_iff,
      List.length_eq_two] at hchildren
    have hcomma : IsClean (ofString ", ") := isClean_ofString _
    rcases hchildren with ⟨body, rfl⟩ | ⟨body, alternate, rfl⟩
    · simp only [assemble, shownTexts, mapText, isClean_append, isClean_ofString, isClean_shown,
        isClean_joinWith hcomma, List.forall_mem_append, List.forall_mem_singleton, true_and,
        and_true]
    · simp only [assemble, shownTexts, mapText, orElseText, isClean_append, isClean_ofString,
        isClean_shown, isClean_joinWith hcomma, List.forall_mem_append, List.forall_mem_cons,
        true_and, and_true]
      tauto
  | switch =>
    have hspace : IsClean (ofString " ") := isClean_ofString _
    simp only [assemble, shownTexts, switchText, isClean_append, isClean_ofString, isClean_shown,
      isClean_joinWith hspace, true_and, and_true]
  | switchCase =>
    have hchildren : texts.length ≤ 1 := hlength ▸ h.1
    rcases texts with _ | ⟨result, _ | ⟨second, more⟩⟩
    · simp only [assemble, shownTexts, isClean_labelText, List.not_mem_nil, false_imp_iff,
        implies_true, and_true]
    · simp only [assemble, shownTexts, caseText, isClean_append, isClean_ofString,
        isClean_labelText, List.forall_mem_singleton, and_true]
    · simp at hchildren
  | text | expression | statement | null =>
    have hchildren : children = [] := h
    subst hchildren
    obtain rfl := List.length_eq_zero_iff.mp hlength
    cases value <;> simp [assemble, shownTexts, shown, isClean_braced, isClean_nil, isClean_ofString]

/-- Every node is rendered to one text. -/
theorem length_of_renderAll {nodes : List Output} {texts : List Text}
    (h : renderAll nodes = .ok texts) : texts.length = nodes.length := by
  induction nodes generalizing texts with
  | nil =>
    cases h
    rfl
  | cons node rest ih =>
    rw [renderAll] at h
    obtain ⟨text, -, h⟩ := exists_of_bind_eq_ok h
    obtain ⟨others, hrest, h⟩ := exists_of_bind_eq_ok h
    obtain rfl := Except.ok.inj h
    exact congrArg (· + 1) (ih hrest)

mutual

theorem isClean_render_iff : (node : Output) → AllShaped [node] → ∀ {text}, node.render = .ok text →
    (text.IsClean ↔ ∀ n ∈ walk [node], ∀ t ∈ n.shownTexts, t.IsClean)
  | ⟨_, _, _, _, _, children, _⟩, hshaped, text, htext => by
    rw [allShaped_singleton] at hshaped
    obtain ⟨texts, htexts, rfl⟩ := exists_texts_of_render htext
    rw [entered_of_isShaped hshaped.1] at htexts
    rw [isClean_assemble hshaped.1 (length_of_renderAll htexts),
      isClean_renderAll_iff children hshaped.2 htexts, forall_mem_walk_cons]
    exact and_congr_right fun _ => (and_iff_left (List.forall_mem_nil _)).symm

/-- The sources of shaped nodes have no surrogate exactly if the texts that they show have none. -/
theorem isClean_renderAll_iff : (nodes : List Output) → AllShaped nodes → ∀ {texts},
    renderAll nodes = .ok texts →
      ((∀ t ∈ texts, t.IsClean) ↔ ∀ n ∈ walk nodes, ∀ t ∈ n.shownTexts, t.IsClean)
  | [], _, texts, htexts => by
    cases htexts
    exact iff_of_true (List.forall_mem_nil _) (List.forall_mem_nil _)
  | node :: rest, hshaped, texts, htexts => by
    rw [allShaped_cons] at hshaped
    rw [renderAll] at htexts
    obtain ⟨text, hnode, htexts⟩ := exists_of_bind_eq_ok htexts
    obtain ⟨others, hrest, htexts⟩ := exists_of_bind_eq_ok htexts
    obtain rfl := Except.ok.inj htexts
    rw [List.forall_mem_cons, isClean_renderAll_iff rest hshaped.2.2 hrest,
      isClean_render_iff node (allShaped_singleton.mpr ⟨hshaped.1, hshaped.2.1⟩) hnode,
      ← forall_mem_walk_append, List.singleton_append]

end

end Output

/-! ## Results -/

open Text

theorem Position.isClean_text {p : Position} :
    p.text.IsClean ↔ ∀ name ∈ if p.isUnknown then [] else p.filename.toList, name.IsClean := by
  unfold text
  by_cases hunknown : p.isUnknown = true
  · simp [hunknown, isClean_ofString]
  · simp only [hunknown, if_false, Bool.false_eq_true, isClean_append, isClean_ofString, and_true]
    unfold filePart
    cases p.filename with
    | none => simp [isClean_nil]
    | some name =>
      cases hempty : List.isEmpty name with
      | true => simp [List.isEmpty_iff.mp hempty, isClean_nil]
      | false => simp [hempty, isClean_append, isClean_ofString]

theorem Diagnostic.isClean_text {d : Diagnostic} :
    d.text.IsClean ↔ ∀ t ∈ d.shownTexts, t.IsClean := by
  have hseparator : IsClean (ofString "; ") := isClean_ofString _
  unfold text shownTexts
  rw [List.forall_mem_append, ← Position.isClean_text]
  cases d.isFatal <;> cases d.maybeBug <;>
    simp [isClean_append, isClean_ofString, isClean_joinWith hseparator]

namespace Report

theorem isClean_indented {lines : List Text} :
    (∀ t ∈ indented lines, t.IsClean) ↔ ∀ t ∈ lines, t.IsClean := by
  simp [indented, isClean_append, isClean_ofString]

/-- The lines about diagnostics are clean if what is shown of the diagnostics is. -/
theorem isClean_diagnosticLines {r : Report} {lines : List Text}
    (h : r.diagnosticLines = .ok lines) :
    (∀ t ∈ lines, t.IsClean) ↔ ∀ d ∈ r.diagnostics, ∀ t ∈ d.shownTexts, t.IsClean := by
  unfold diagnosticLines at h
  cases hdiagnostics : r.diagnostics with
  | nil =>
    rw [hdiagnostics] at h
    cases h
    exact iff_of_true (List.forall_mem_nil _) (List.forall_mem_nil _)
  | cons d rest =>
    rw [hdiagnostics] at h
    obtain ⟨texts, htexts, h⟩ := Output.exists_of_bind_eq_ok h
    obtain rfl := Except.ok.inj h
    rw [diagnosticTexts_eq_map htexts, List.forall_mem_cons, isClean_indented]
    simp only [heading, isClean_append, isClean_ofString, true_and, List.forall_mem_map,
      Diagnostic.isClean_text]

theorem forall_mem_shownTexts {r : Report} {P : Text → Prop} :
    (∀ t ∈ r.shownTexts, P t) ↔
      (∀ n ∈ Output.walk r.statements, ∀ t ∈ n.shownTexts, P t) ∧
        (∀ n ∈ Output.walk r.render, ∀ t ∈ n.shownTexts, P t) ∧
        ∀ d ∈ r.diagnostics, ∀ t ∈ d.shownTexts, P t := by
  have hflat : ∀ {α : Type} (f : α → List Text) (xs : List α),
      (∀ t ∈ xs.flatMap f, P t) ↔ ∀ x ∈ xs, ∀ t ∈ f x, P t := by
    intro α f xs
    simp only [List.mem_flatMap]
    exact ⟨fun h x hx t ht => h t ⟨x, hx, ht⟩, fun h t ⟨x, hx, ht⟩ => h x hx t ht⟩
  rw [shownTexts, List.forall_mem_append, hflat, hflat, Output.forall_mem_walk_append, and_assoc]

/-- The dump of a well-formed result has no surrogate exactly if the texts that it shows have
none. -/
theorem isClean_dump_iff {r : Report} (hs : Output.WellFormed r.statements)
    (hr : Output.WellFormed r.render) {text : Text} (h : r.dump = .ok text) :
    text.IsClean ↔ ∀ t ∈ r.shownTexts, t.IsClean := by
  have hfeed : IsClean (ofString "\n") := isClean_ofString _
  have hheading : ∀ title, (heading title).IsClean := by
    intro title
    simp [heading, isClean_append, isClean_ofString]
  cases hlines : r.lines with
  | error e =>
    rw [dump, hlines] at h
    cases h
  | ok lines =>
    rw [dump, hlines] at h
    obtain rfl := Except.ok.inj h
    obtain ⟨statements, render, diagnostics, hstatements, hrender, hdiagnostics, rfl⟩ :=
      exists_of_lines hlines
    rw [isClean_joinWith hfeed, forall_mem_shownTexts]
    simp only [List.cons_append, List.forall_mem_append, List.forall_mem_cons, hheading,
      isClean_indented, true_and, Output.isClean_renderAll_iff _ hs.2 hstatements,
      Output.isClean_renderAll_iff _ hr.2 hrender, isClean_diagnosticLines hdiagnostics,
      and_assoc]

end Report

end Lowering
