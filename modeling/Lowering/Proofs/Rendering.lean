import Lowering.Output.Render

/-!
# How rendering goes through a tree

Rendering a node means: look whether the node has a defect of its own, render the children that it
enters, and assemble the text of the node from theirs. So it fails exactly if there is a defect
among the nodes that it reaches, and then with the first of them.

* `Output.entered`: the children that rendering enters;
* `Output.reached`: the nodes that it reaches, in pre-order;
* `Output.defect?`, `Output.assemble`: what is wrong with a node by itself, and its text;
* `Output.render_eq`: rendering in terms of these;
* `Output.render_fails_at_first_defect`: rendering fails exactly at the first defect.
-/

namespace Lowering

/-- How many of its children a node of the kind has rendered, if it has `count` of them. -/
def Kind.entered (kind : Kind) (count : Nat) : Nat :=
  match kind with
  | .element | .fragment | .switch => count
  | .conditional => if count = 2 then 2 else 0
  | .iteration => 2
  | .switchCase => 1
  | .text | .expression | .statement | .null => 0

namespace Output

/-- The children that rendering enters. -/
def entered (o : Output) : List Output :=
  o.children.take (o.kind.entered o.children.length)

mutual

/-- The nodes that rendering reaches, in pre-order. -/
def reached : Output → List Output
  | ⟨kind, name, value, attributes, params, children, location⟩ =>
    ⟨kind, name, value, attributes, params, children, location⟩ ::
      reachedFrom (kind.entered children.length) children

/-- The nodes that are reached from the first `count` nodes. -/
def reachedFrom : Nat → List Output → List Output
  | _, [] => []
  | 0, _ => []
  | count + 1, node :: rest => reached node ++ reachedFrom count rest

end

theorem reachedFrom_eq (count : Nat) (nodes : List Output) :
    reachedFrom count nodes = (nodes.take count).flatMap reached := by
  induction nodes generalizing count with
  | nil => rw [reachedFrom, List.take_nil, List.flatMap_nil]
  | cons node rest ih =>
    cases count with
    | zero => rfl
    | succ count => rw [reachedFrom, ih, List.take_succ_cons, List.flatMap_cons]

theorem reached_eq (o : Output) : o.reached = o :: o.entered.flatMap reached := by
  obtain ⟨⟩ := o
  rw [reached, reachedFrom_eq]
  rfl

/-- What is wrong with a node, whatever its children are. -/
def defect? (o : Output) : Option RenderError :=
  match o.kind, o.children.length with
  | .conditional, 2 => none
  | .conditional, count => some (if count < 2 then .tooFew count else .tooMany)
  | .iteration, 0 => some .noBody
  | _, _ => none

/-- A node among the children of an element or fragment, given its text. -/
def childText (o : Output) (text : Text) : Text :=
  if o.kind.isMarkup then text else braced text

/-- The text of a node without a defect, given the texts of the children that are entered. -/
def assemble (o : Output) (texts : List Text) : Text :=
  match o.kind, texts with
  | .text, _ => o.value.getD []
  | .statement, _ => o.value.getD []
  | .expression, _ => braced (shown o.value)
  | .null, _ => "null"
  | .fragment, texts => "<>" ++ (o.children.zipWith childText texts).flatten ++ "</>"
  | .element, texts => elementText o.name o.attributes (o.children.zipWith childText texts)
  | .conditional, [consequent, alternate] => conditionalText o.value consequent alternate
  | .conditional, _ => []
  | .iteration, [] => []
  | .iteration, [body] => mapText o.value o.params body
  | .iteration, body :: alternate :: _ =>
    orElseText o.value (mapText o.value o.params body) alternate
  | .switch, texts => switchText o.value texts
  | .switchCase, [] => labelText o.value
  | .switchCase, result :: _ => caseText o.value result

theorem renderChildren_eq (nodes : List Output) :
    renderChildren nodes = (renderAll nodes).map (nodes.zipWith childText) := by
  induction nodes with
  | nil => rfl
  | cons node rest ih =>
    rw [renderChildren, renderAll, ih]
    cases node.render with
    | error e => rfl
    | ok text => cases renderAll rest <;> rfl

theorem renderAll_one (node : Output) : renderAll [node] = node.render.map ([·]) := by
  rw [renderAll, renderAll]
  cases node.render <;> rfl

theorem renderAll_two (first second : Output) :
    renderAll [first, second] = first.render.bind fun text =>
      second.render.map fun next => [text, next] := by
  rw [renderAll, renderAll_one]
  cases first.render with
  | error e => rfl
  | ok text => cases second.render <;> rfl

/-- Rendering in one equation for all kinds. -/
theorem render_eq (o : Output) :
    o.render =
      match o.defect? with
      | some e => .error e
      | none => (renderAll o.entered).map o.assemble := by
  obtain ⟨kind, name, value, attributes, params, children, location⟩ := o
  cases kind with
  | element | fragment =>
    rw [render, renderChildren_eq]
    simp only [defect?, entered, Kind.entered, List.take_length]
    cases renderAll children <;> rfl
  | switch =>
    rw [render]
    simp only [defect?, entered, Kind.entered, List.take_length]
    cases renderAll children <;> rfl
  | conditional =>
    rcases children with _ | ⟨consequent, _ | ⟨alternate, _ | ⟨third, rest⟩⟩⟩
    · rw [render]
      rfl
    · rw [render]
      rfl
    · simp only [defect?, entered, Kind.entered, List.length_cons, List.length_nil, if_true,
        List.take_succ_cons, List.take_nil]
      rw [render, renderAll_two]
      cases consequent.render with
      | error e => rfl
      | ok text => cases alternate.render <;> rfl
    · simp [render, defect?]
  | iteration =>
    rcases children with _ | ⟨body, _ | ⟨alternate, rest⟩⟩
    · rw [render]
      rfl
    · simp only [defect?, entered, Kind.entered, List.length_cons, List.length_nil,
        List.take_succ_cons, List.take_nil]
      rw [render, renderAll_one]
      cases body.render <;> rfl
    · simp only [defect?, entered, Kind.entered, List.length_cons,
        List.take_succ_cons, List.take_zero]
      rw [render, renderAll_two]
      cases body.render with
      | error e => rfl
      | ok text => cases alternate.render <;> rfl
  | switchCase =>
    rcases children with _ | ⟨result, rest⟩
    · rw [render]
      rfl
    · simp only [defect?, entered, Kind.entered, List.take_succ_cons, List.take_zero]
      rw [render, renderAll_one]
      cases result.render <;> rfl
  | text | expression | statement | null =>
    rw [render]
    rfl

theorem exists_of_bind_eq_ok {α β : Type} {x : Except RenderError α}
    {f : α → Except RenderError β} {b : β} (h : x >>= f = .ok b) :
    ∃ a, x = .ok a ∧ f a = .ok b := by
  cases x with
  | error e => cases h
  | ok a => exact ⟨a, rfl, h⟩

theorem exists_texts_of_render {o : Output} {text : Text} (h : o.render = .ok text) :
    ∃ texts, renderAll o.entered = .ok texts ∧ text = o.assemble texts := by
  rw [render_eq] at h
  cases hdefect : o.defect? with
  | some e =>
    simp only [hdefect] at h
    cases h
  | none =>
    simp only [hdefect] at h
    cases htexts : renderAll o.entered with
    | error e =>
      rw [htexts] at h
      cases h
    | ok texts =>
      rw [htexts] at h
      exact ⟨texts, rfl, (Except.ok.inj h).symm⟩

theorem exists_node_of_renderAll {nodes : List Output} {texts : List Text}
    (h : renderAll nodes = .ok texts) :
    ∀ text ∈ texts, ∃ node ∈ nodes, node.render = .ok text := by
  induction nodes generalizing texts with
  | nil =>
    cases h
    exact List.forall_mem_nil _
  | cons node rest ih =>
    rw [renderAll] at h
    obtain ⟨text, hnode, h⟩ := exists_of_bind_eq_ok h
    obtain ⟨others, hrest, h⟩ := exists_of_bind_eq_ok h
    obtain rfl := Except.ok.inj h
    refine List.forall_mem_cons.mpr ⟨⟨node, List.mem_cons_self, hnode⟩, ?_⟩
    intro other hother
    obtain ⟨child, hchild, hrender⟩ := ih hrest other hother
    exact ⟨child, List.mem_cons_of_mem _ hchild, hrender⟩

/-! ## The first defect -/

/-- The error that a computation ends with. -/
def failure? {α : Type} : Except RenderError α → Option RenderError
  | .error e => some e
  | .ok _ => none

theorem failure?_eq_some_iff {α : Type} {x : Except RenderError α} {e : RenderError} :
    failure? x = some e ↔ x = .error e := by
  cases x <;> simp [failure?]

theorem failure?_eq_none_iff {α : Type} {x : Except RenderError α} :
    failure? x = none ↔ ∃ a, x = .ok a := by
  cases x <;> simp [failure?]

theorem exists_error_iff {α : Type} {x : Except RenderError α} :
    (∃ e, x = .error e) ↔ ¬ ∃ a, x = .ok a := by
  cases x <;> simp

/-- The defect of a node comes before those of its children. -/
theorem failure?_render_eq_or (o : Output) :
    failure? o.render = o.defect?.or (failure? (renderAll o.entered)) := by
  rw [render_eq]
  cases o.defect? with
  | some e => rfl
  | none => cases renderAll o.entered <;> rfl

theorem failure?_renderAll_cons (node : Output) (rest : List Output) :
    failure? (renderAll (node :: rest)) =
      (failure? node.render).or (failure? (renderAll rest)) := by
  rw [renderAll]
  cases node.render with
  | error e => rfl
  | ok text => cases renderAll rest <;> rfl

theorem failure?_renderAll {nodes : List Output}
    (h : ∀ node ∈ nodes, failure? node.render = node.reached.findSome? defect?) :
    failure? (renderAll nodes) = (nodes.flatMap reached).findSome? defect? := by
  induction nodes with
  | nil => rfl
  | cons node rest ih =>
    rw [List.forall_mem_cons] at h
    rw [failure?_renderAll_cons, h.1, ih h.2, List.flatMap_cons, List.findSome?_append]

/-- The step from the children of a node to the node. -/
theorem failure?_render_of_children {o : Output}
    (h : ∀ child ∈ o.children, failure? child.render = child.reached.findSome? defect?) :
    failure? o.render = o.reached.findSome? defect? := by
  have hentered : ∀ child ∈ o.entered, failure? child.render = child.reached.findSome? defect? :=
    fun child hchild => h child (List.mem_of_mem_take hchild)
  rw [failure?_render_eq_or, failure?_renderAll hentered, reached_eq o, List.findSome?_cons]
  cases o.defect? <;> rfl

mutual

/-- Rendering ends with the first defect among the nodes that it reaches. -/
theorem failure?_render : (o : Output) → failure? o.render = o.reached.findSome? defect?
  | ⟨_, _, _, _, _, children, _⟩ => failure?_render_of_children (failure?_render_of_mem children)

theorem failure?_render_of_mem : (nodes : List Output) →
    ∀ node ∈ nodes, failure? node.render = node.reached.findSome? defect?
  | [] => List.forall_mem_nil _
  | node :: rest =>
    List.forall_mem_cons.mpr ⟨failure?_render node, failure?_render_of_mem rest⟩

end

/-- A conditional without exactly two children, or an iteration without children. -/
def IsMalformed (o : Output) : Prop :=
  o.kind = .conditional ∧ o.children.length ≠ 2 ∨ o.kind = .iteration ∧ o.children = []

/-- The error of a malformed node: a conditional cannot be taken apart into two children, an
iteration has no first child. -/
def Reports (o : Output) (e : RenderError) : Prop :=
  o.kind = .conditional ∧ o.children.length < 2 ∧ e = .tooFew o.children.length ∨
    o.kind = .conditional ∧ 2 < o.children.length ∧ e = .tooMany ∨
    o.kind = .iteration ∧ o.children = [] ∧ e = .noBody

theorem defect?_eq_some_iff {o : Output} {e : RenderError} :
    o.defect? = some e ↔ o.Reports e := by
  obtain ⟨kind, name, value, attributes, params, children, location⟩ := o
  cases kind with
  | conditional =>
    rcases children with _ | ⟨_, _ | ⟨_, _ | ⟨_, rest⟩⟩⟩
    · simpa [defect?, Reports] using eq_comm
    · simpa [defect?, Reports] using eq_comm
    · simp [defect?, Reports]
    · have hmany : ¬ rest.length + 3 < 2 := by omega
      simpa [defect?, Reports, hmany] using eq_comm
  | iteration =>
    cases children with
    | nil => simpa [defect?, Reports] using eq_comm
    | cons => simp [defect?, Reports]
  | _ => simp [defect?, Reports]

theorem defect?_eq_none_iff {o : Output} : o.defect? = none ↔ ¬ o.IsMalformed := by
  obtain ⟨kind, name, value, attributes, params, children, location⟩ := o
  cases kind with
  | conditional =>
    rcases children with _ | ⟨_, _ | ⟨_, _ | ⟨_, _⟩⟩⟩ <;> simp [defect?, IsMalformed]
  | iteration => cases children <;> simp [defect?, IsMalformed]
  | _ => simp [defect?, IsMalformed]

/-- Rendering fails exactly if it reaches a malformed node, and the first one in pre-order decides
the error. Without one it yields a text. -/
theorem render_fails_at_first_defect (o : Output) :
    ((∃ e, o.render = .error e) ↔ ∃ node ∈ o.reached, node.IsMalformed) ∧
      (∀ e, o.render = .error e ↔
        ∃ before bad after, o.reached = before ++ bad :: after ∧
          (∀ node ∈ before, ¬ node.IsMalformed) ∧ bad.Reports e) ∧
      ((∃ text, o.render = .ok text) ↔ ∀ node ∈ o.reached, ¬ node.IsMalformed) := by
  have hok : (∃ text, o.render = .ok text) ↔ ∀ node ∈ o.reached, ¬ node.IsMalformed := by
    rw [← failure?_eq_none_iff, failure?_render, List.findSome?_eq_none_iff]
    exact forall₂_congr fun node _ => defect?_eq_none_iff
  refine ⟨?_, ?_, hok⟩
  · rw [exists_error_iff, hok]
    simp
  · intro e
    rw [← failure?_eq_some_iff, failure?_render, List.findSome?_eq_some_iff]
    simp only [defect?_eq_some_iff, defect?_eq_none_iff, and_comm]

-- The third child of an iteration is not reached, and of two malformed nodes the first one counts.
example :
    let broken : Output := { kind := .conditional, children := [null] }
    let unread : Output := { kind := .iteration, children := [null, null, broken] }
    (fragment [unread, { kind := .iteration }, broken]).render = .error .noBody :=
  rfl

end Output

end Lowering
