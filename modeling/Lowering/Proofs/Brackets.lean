import Lowering.Proofs.Rendering
import Lowering.Proofs.Standard

/-!
# Balanced brackets

A text is balanced if its round, curly and square brackets are properly nested; all other code
points are ignored. Rendering puts brackets around and between the parts of a node, and leaves none
of them open: if all parts of a tree are balanced, so is its text.

* `Balanced`: the balanced texts, as a grammar;
* `Moves`: which brackets are open after reading a text, if these were open before it;
* `balanced_iff_moves`: the texts that leave no bracket open are the balanced ones;
* `Output.balanced_assemble`: the text of a node is balanced if its parts and its children are;
* `Output.balanced_render`: so the text of a tree is balanced if all its parts are;
* `brackets_balance_in_output`: the same among children and for the lines of a dump.
-/

namespace Lowering

/-! ## Balanced texts -/

/-- The kinds of brackets. -/
inductive Bracket where
  | round
  | curly
  | square
deriving DecidableEq, Repr

namespace Bracket

/-- The opening bracket of a kind. -/
def opening : Bracket → CodePoint
  | .round => .char '('
  | .curly => .char '\x7b'
  | .square => .char '['

/-- The closing bracket of a kind. -/
def closing : Bracket → CodePoint
  | .round => .char ')'
  | .curly => .char '\x7d'
  | .square => .char ']'

end Bracket

/-- A code point that is no bracket. -/
def IsNeutral (p : CodePoint) : Prop :=
  ∀ b : Bracket, p ≠ b.opening ∧ p ≠ b.closing

/-- The balanced texts. -/
inductive Balanced : Text → Prop where
  | nil : Balanced []
  | neutral {p : CodePoint} {rest : Text} (hp : IsNeutral p) (hrest : Balanced rest) :
      Balanced (p :: rest)
  | enclosed (b : Bracket) {inner rest : Text} (hinner : Balanced inner) (hrest : Balanced rest) :
      Balanced (b.opening :: inner ++ b.closing :: rest)

namespace Balanced

theorem append {s t : Text} (hs : Balanced s) (ht : Balanced t) : Balanced (s ++ t) := by
  induction hs with
  | nil => exact ht
  | neutral hp _ ih => exact .neutral hp ih
  | enclosed b hinner _ _ ih =>
    rw [List.append_assoc]
    exact .enclosed b hinner ih

theorem of_neutral {t : Text} (h : ∀ p ∈ t, IsNeutral p) : Balanced t := by
  induction t with
  | nil => exact .nil
  | cons p rest ih =>
    rw [List.forall_mem_cons] at h
    exact .neutral h.1 (ih h.2)

theorem flatten {texts : List Text} (h : ∀ t ∈ texts, Balanced t) : Balanced texts.flatten := by
  induction texts with
  | nil => exact .nil
  | cons t rest ih =>
    rw [List.forall_mem_cons] at h
    exact h.1.append (ih h.2)

theorem joinWith {separator : Text} (hseparator : Balanced separator) {texts : List Text}
    (h : ∀ t ∈ texts, Balanced t) : Balanced (Text.joinWith separator texts) := by
  induction texts with
  | nil => exact .nil
  | cons t rest ih =>
    rw [List.forall_mem_cons] at h
    cases rest with
    | nil => exact h.1
    | cons next rest => exact (h.1.append hseparator).append (ih h.2)

end Balanced

/-! ## Open brackets -/

/-- Closes the innermost bracket, which has to be of the kind. -/
def Bracket.close (b : Bracket) : List Bracket → Option (List Bracket)
  | [] => none
  | top :: below => if top = b then some below else none

/-- The open brackets after one more code point, the innermost first. -/
def Bracket.step (stack : List Bracket) (p : CodePoint) : Option (List Bracket) :=
  match p with
  | .char '(' => some (.round :: stack)
  | .char '\x7b' => some (.curly :: stack)
  | .char '[' => some (.square :: stack)
  | .char ')' => close .round stack
  | .char '\x7d' => close .curly stack
  | .char ']' => close .square stack
  | _ => some stack

/-- Reading a text leads from open brackets `before` to open brackets `after`. -/
def Moves (before : List Bracket) (t : Text) (after : List Bracket) : Prop :=
  t.foldlM Bracket.step before = some after

instance (before : List Bracket) (t : Text) (after : List Bracket) :
    Decidable (Moves before t after) :=
  inferInstanceAs (Decidable (_ = _))

namespace Bracket

theorem step_opening (b : Bracket) (stack : List Bracket) :
    step stack b.opening = some (b :: stack) := by
  cases b <;> rfl

theorem step_closing (b : Bracket) (stack : List Bracket) :
    step (b :: stack) b.closing = some stack := by
  cases b <;> rfl

theorem step_neutral {p : CodePoint} (hp : IsNeutral p) (stack : List Bracket) :
    step stack p = some stack := by
  unfold step
  split
  · exact absurd rfl (hp .round).1
  · exact absurd rfl (hp .curly).1
  · exact absurd rfl (hp .square).1
  · exact absurd rfl (hp .round).2
  · exact absurd rfl (hp .curly).2
  · exact absurd rfl (hp .square).2
  · rfl

theorem eq_cons_of_close {b : Bracket} {stack after : List Bracket}
    (h : b.close stack = some after) : stack = b :: after := by
  cases stack with
  | nil => cases h
  | cons top below =>
    obtain ⟨rfl, hbelow⟩ := Option.ite_none_right_eq_some.mp h
    rw [Option.some.inj hbelow]

/-- A code point opens a bracket, closes the innermost one, or does neither. -/
theorem step_cases {p : CodePoint} {stack after : List Bracket} (h : step stack p = some after) :
    (∃ b : Bracket, p = b.opening ∧ after = b :: stack) ∨
      (∃ b : Bracket, p = b.closing ∧ stack = b :: after) ∨ IsNeutral p ∧ after = stack := by
  unfold step at h
  split at h
  · exact .inl ⟨.round, rfl, (Option.some.inj h).symm⟩
  · exact .inl ⟨.curly, rfl, (Option.some.inj h).symm⟩
  · exact .inl ⟨.square, rfl, (Option.some.inj h).symm⟩
  · exact .inr (.inl ⟨.round, rfl, eq_cons_of_close h⟩)
  · exact .inr (.inl ⟨.curly, rfl, eq_cons_of_close h⟩)
  · exact .inr (.inl ⟨.square, rfl, eq_cons_of_close h⟩)
  · rename_i hround hcurly hsquare hround' hcurly' hsquare'
    refine .inr (.inr ⟨?_, (Option.some.inj h).symm⟩)
    intro b
    cases b with
    | round => exact ⟨hround, hround'⟩
    | curly => exact ⟨hcurly, hcurly'⟩
    | square => exact ⟨hsquare, hsquare'⟩

end Bracket

namespace Moves

theorem append {before between after : List Bracket} {s t : Text} (hs : Moves before s between)
    (ht : Moves between t after) : Moves before (s ++ t) after := by
  rw [Moves, List.foldlM_append, hs]
  exact ht

theorem cons_iff {before after : List Bracket} {p : CodePoint} {t : Text} :
    Moves before (p :: t) after ↔ ∃ between, Bracket.step before p = some between ∧
      Moves between t after := by
  rw [Moves, List.foldlM_cons]
  exact Option.bind_eq_some_iff

end Moves

/-- A balanced text leaves the open brackets as they are. -/
theorem Balanced.moves {t : Text} (h : Balanced t) (stack : List Bracket) :
    Moves stack t stack := by
  induction h generalizing stack with
  | nil => rfl
  | neutral hp _ ih => exact Moves.cons_iff.mpr ⟨stack, Bracket.step_neutral hp stack, ih stack⟩
  | enclosed b _ _ ihinner ihrest =>
    have hrest := Moves.cons_iff.mpr ⟨stack, b.step_closing stack, ihrest stack⟩
    exact Moves.cons_iff.mpr
      ⟨b :: stack, b.step_opening stack, (ihinner (b :: stack)).append hrest⟩

/-- A text that closes open brackets, with balanced texts in between. -/
def Closes : List Bracket → Text → Prop
  | [], t => Balanced t
  | b :: below, t =>
    ∃ inner rest, t = inner ++ b.closing :: rest ∧ Balanced inner ∧ Closes below rest

theorem Closes.append_left {stack : List Bracket} {s t : Text} (hs : Balanced s)
    (h : Closes stack t) : Closes stack (s ++ t) := by
  cases stack with
  | nil => exact Balanced.append hs h
  | cons b below =>
    obtain ⟨inner, rest, rfl, hinner, hrest⟩ := h
    exact ⟨s ++ inner, rest, (List.append_assoc ..).symm, hs.append hinner, hrest⟩

theorem closes_of_moves {stack : List Bracket} {t : Text} (h : Moves stack t []) :
    Closes stack t := by
  induction t generalizing stack with
  | nil =>
    obtain rfl := Option.some.inj h
    exact Balanced.nil
  | cons p rest ih =>
    obtain ⟨between, hstep, hrest⟩ := Moves.cons_iff.mp h
    have hcloses : Closes between rest := ih hrest
    rcases Bracket.step_cases hstep with ⟨b, rfl, rfl⟩ | ⟨b, rfl, rfl⟩ | ⟨hp, rfl⟩
    · obtain ⟨inner, after, rfl, hinner, hafter⟩ := hcloses
      have hfirst : Balanced (b.opening :: inner ++ [b.closing]) := .enclosed b hinner .nil
      have hsplit : b.opening :: (inner ++ b.closing :: after) =
          b.opening :: inner ++ [b.closing] ++ after := by simp
      rw [hsplit]
      exact hafter.append_left hfirst
    · exact ⟨[], rest, rfl, .nil, hcloses⟩
    · exact hcloses.append_left (.neutral hp .nil)

theorem Balanced.of_moves {t : Text} (h : Moves [] t []) : Balanced t :=
  closes_of_moves h

theorem balanced_iff_moves {t : Text} : Balanced t ↔ Moves [] t [] :=
  ⟨fun h => h.moves [], .of_moves⟩

instance (t : Text) : Decidable (Balanced t) :=
  decidable_of_iff (Moves [] t []) balanced_iff_moves.symm

/-! ## Texts of nodes -/

theorem balanced_braced {source : Text} (h : Balanced source) :
    Balanced (Output.braced source) := by
  have hopen : Moves [] "\x7b" [.curly] := rfl
  have hclose : Moves [.curly] "\x7d" [] := rfl
  exact .of_moves ((hopen.append (h.moves _)).append hclose)

/-- An attribute whose name and value are balanced. -/
structure Attribute.IsBalanced (a : Attribute) : Prop where
  name : Balanced a.name
  value : ∀ t ∈ a.value, Balanced t

instance (a : Attribute) : Decidable a.IsBalanced :=
  decidable_of_iff (Balanced a.name ∧ ∀ t ∈ a.value, Balanced t)
    ⟨fun h => ⟨h.1, h.2⟩, fun h => ⟨h.name, h.value⟩⟩

theorem Attribute.IsBalanced.render {a : Attribute} (h : a.IsBalanced) : Balanced a.render := by
  unfold Attribute.render
  split
  · exact h.name
  · rename_i value hvalue
    have hbalanced : Balanced value := h.value value hvalue
    split
    · have hopen : Moves [] "=\x7b" [.curly] := rfl
      have hclose : Moves [.curly] "\x7d" [] := rfl
      exact .of_moves ((((h.name.moves _).append hopen).append (hbalanced.moves _)).append hclose)
    · have hopen : Balanced "=\"" := by decide
      have hclose : Balanced "\"" := by decide
      exact ((h.name.append hopen).append hbalanced).append hclose

namespace Output

/-- A node whose name, value, parameters and attributes are balanced. -/
structure IsBalanced (o : Output) : Prop where
  name : ∀ t ∈ o.name, Balanced t
  value : ∀ t ∈ o.value, Balanced t
  params : ∀ t ∈ o.params, Balanced t
  attributes : ∀ a ∈ o.attributes, a.IsBalanced

instance (o : Output) : Decidable o.IsBalanced :=
  decidable_of_iff ((∀ t ∈ o.name, Balanced t) ∧ (∀ t ∈ o.value, Balanced t) ∧
      (∀ t ∈ o.params, Balanced t) ∧ ∀ a ∈ o.attributes, a.IsBalanced)
    ⟨fun h => ⟨h.1, h.2.1, h.2.2.1, h.2.2.2⟩,
      fun h => ⟨h.name, h.value, h.params, h.attributes⟩⟩

theorem balanced_shown {part : Option Text} (h : ∀ t ∈ part, Balanced t) :
    Balanced (shown part) := by
  cases part with
  | none =>
    change Balanced "None"
    decide
  | some t => exact h t rfl

theorem balanced_childText (o : Output) {text : Text} (h : Balanced text) :
    Balanced (o.childText text) := by
  unfold childText
  split
  · exact h
  · exact balanced_braced h

theorem balanced_zipWith_childText (nodes : List Output) {texts : List Text}
    (h : ∀ t ∈ texts, Balanced t) : ∀ t ∈ nodes.zipWith childText texts, Balanced t := by
  induction nodes generalizing texts with
  | nil => exact List.forall_mem_nil _
  | cons node rest ih =>
    cases texts with
    | nil => exact List.forall_mem_nil _
    | cons text others =>
      rw [List.forall_mem_cons] at h
      exact List.forall_mem_cons.mpr ⟨balanced_childText node h.1, ih h.2⟩

theorem balanced_attributeList {attributes : List Attribute}
    (h : ∀ a ∈ attributes, a.IsBalanced) : Balanced (attributeList attributes) := by
  refine Balanced.flatten (List.forall_mem_map.mpr ?_)
  intro a ha
  have hblank : IsNeutral (.char ' ') := by
    intro b
    cases b <;> decide
  exact .neutral hblank (h a ha).render

section Templates

variable {name value : Option Text}

theorem balanced_elementText (hname : ∀ t ∈ name, Balanced t) {attributes : List Attribute}
    (hattributes : ∀ a ∈ attributes, a.IsBalanced) {children : List Text}
    (hchildren : ∀ t ∈ children, Balanced t) :
    Balanced (elementText name attributes children) := by
  have hopen : Balanced "<" := by decide
  have hhead := (hopen.append (balanced_shown hname)).append (balanced_attributeList hattributes)
  unfold elementText
  dsimp only
  split
  · have hclose : Balanced " />" := by decide
    exact hhead.append hclose
  · have hend : Balanced ">" := by decide
    have hclose : Balanced "</" := by decide
    exact ((((hhead.append hend).append (.flatten hchildren)).append hclose).append
      (balanced_shown hname)).append hend

variable (hvalue : ∀ t ∈ value, Balanced t)
include hvalue

theorem balanced_conditionalText {consequent alternate : Text} (hconsequent : Balanced consequent)
    (halternate : Balanced alternate) : Balanced (conditionalText value consequent alternate) := by
  have hopen : Moves [] "(" [.round] := rfl
  have hclose : Moves [.round] ") ? " [] := rfl
  have hcolon : Moves [] " : " [] := rfl
  exact .of_moves (((((hopen.append ((balanced_shown hvalue).moves _)).append hclose).append
    (hconsequent.moves _)).append hcolon).append (halternate.moves _))

theorem balanced_mapText {params : List Text} (hparams : ∀ t ∈ params, Balanced t) {body : Text}
    (hbody : Balanced body) : Balanced (mapText value params body) := by
  have hopen : Moves [] "(" [.round] := rfl
  have hcall : Moves [.round] ").map((" [.round, .round] := rfl
  have harrow : Moves [.round, .round] ") => " [.round] := rfl
  have hclose : Moves [.round] ")" [] := rfl
  have hcomma : Balanced ", " := by decide
  exact .of_moves ((((((hopen.append ((balanced_shown hvalue).moves _)).append hcall).append
    ((hcomma.joinWith hparams).moves _)).append harrow).append (hbody.moves _)).append hclose)

theorem balanced_orElseText {mapped alternate : Text} (hmapped : Balanced mapped)
    (halternate : Balanced alternate) : Balanced (orElseText value mapped alternate) := by
  have hopen : Moves [] "(" [.round] := rfl
  have hclose : Moves [.round] ").length ? " [] := rfl
  have hcolon : Moves [] " : " [] := rfl
  exact .of_moves (((((hopen.append ((balanced_shown hvalue).moves _)).append hclose).append
    (hmapped.moves _)).append hcolon).append (halternate.moves _))

theorem balanced_switchText {cases : List Text} (hcases : ∀ t ∈ cases, Balanced t) :
    Balanced (switchText value cases) := by
  have hopen : Moves [] "(() => \x7b switch (" [.round, .curly, .round] := rfl
  have hbody : Moves [.round, .curly, .round] ") \x7b " [.curly, .curly, .round] := rfl
  have hclose : Moves [.curly, .curly, .round] " \x7d \x7d)()" [] := rfl
  have hblank : Balanced " " := by decide
  exact .of_moves ((((hopen.append ((balanced_shown hvalue).moves _)).append hbody).append
    ((hblank.joinWith hcases).moves _)).append hclose)

theorem balanced_labelText : Balanced (labelText value) := by
  cases value with
  | none =>
    change Balanced "default:"
    decide
  | some t =>
    have hcase : Balanced "case " := by decide
    have hcolon : Balanced ":" := by decide
    exact (hcase.append (hvalue t rfl)).append hcolon

theorem balanced_caseText {result : Text} (hresult : Balanced result) :
    Balanced (caseText value result) := by
  have hreturn : Balanced " return " := by decide
  have hend : Balanced ";" := by decide
  exact (((balanced_labelText hvalue).append hreturn).append hresult).append hend

end Templates

theorem balanced_getD {part : Option Text} (h : ∀ t ∈ part, Balanced t) :
    Balanced (part.getD []) := by
  cases part with
  | none => exact .nil
  | some t => exact h t rfl

/-- The text of a node is balanced if its own parts and the texts of its children are. -/
theorem balanced_assemble {o : Output} (h : o.IsBalanced) {texts : List Text}
    (htexts : ∀ t ∈ texts, Balanced t) : Balanced (o.assemble texts) := by
  have hchildren := balanced_zipWith_childText o.children htexts
  obtain ⟨kind, name, value, attributes, params, children, location⟩ := o
  obtain ⟨hname, hvalue, hparams, hattributes⟩ := h
  cases kind with
  | text | statement => exact balanced_getD hvalue
  | expression => exact balanced_braced (balanced_shown hvalue)
  | null =>
    change Balanced "null"
    decide
  | fragment =>
    have hopen : Balanced "<>" := by decide
    have hclose : Balanced "</>" := by decide
    exact (hopen.append (.flatten hchildren)).append hclose
  | element => exact balanced_elementText hname hattributes hchildren
  | switch => exact balanced_switchText hvalue htexts
  | conditional =>
    match texts, htexts with
    | [], _ => exact .nil
    | [_], _ => exact .nil
    | [consequent, alternate], htexts =>
      exact balanced_conditionalText hvalue (htexts _ (.head _)) (htexts _ (.tail _ (.head _)))
    | _ :: _ :: _ :: _, _ => exact .nil
  | iteration =>
    match texts, htexts with
    | [], _ => exact .nil
    | [body], htexts => exact balanced_mapText hvalue hparams (htexts _ (.head _))
    | body :: alternate :: _, htexts =>
      exact balanced_orElseText hvalue (balanced_mapText hvalue hparams (htexts _ (.head _)))
        (htexts _ (.tail _ (.head _)))
  | switchCase =>
    match texts, htexts with
    | [], _ => exact balanced_labelText hvalue
    | result :: _, htexts => exact balanced_caseText hvalue (htexts _ (.head _))

/-- The step from the children of a node to the node. -/
theorem balanced_render_of_children {o : Output} (ho : o.IsBalanced)
    (h : ∀ child ∈ o.children, ∀ text, child.render = .ok text → Balanced text) :
    ∀ text, o.render = .ok text → Balanced text := by
  intro text htext
  obtain ⟨texts, htexts, rfl⟩ := exists_texts_of_render htext
  apply balanced_assemble ho
  intro t ht
  obtain ⟨child, hchild, hrender⟩ := exists_node_of_renderAll htexts t ht
  exact h child (List.mem_of_mem_take hchild) t hrender

mutual

/-- The text of a tree is balanced if all its parts are. -/
theorem balanced_render : (o : Output) → (∀ node ∈ walk [o], node.IsBalanced) →
    ∀ text, o.render = .ok text → Balanced text
  | ⟨_, _, _, _, _, children, _⟩, h => by
    rw [forall_mem_walk_cons] at h
    exact balanced_render_of_children h.1 (balanced_render_of_mem children h.2.1)

theorem balanced_render_of_mem : (nodes : List Output) → (∀ node ∈ walk nodes, node.IsBalanced) →
    ∀ o ∈ nodes, ∀ text, o.render = .ok text → Balanced text
  | [], _ => List.forall_mem_nil _
  | node :: rest, h => by
    rw [forall_mem_walk_cons] at h
    rw [List.forall_mem_cons]
    exact ⟨balanced_render node (forall_mem_walk_cons.mpr ⟨h.1, h.2.1, List.forall_mem_nil _⟩),
      balanced_render_of_mem rest h.2.2⟩

end

theorem balanced_renderAll {nodes : List Output} (h : ∀ node ∈ walk nodes, node.IsBalanced)
    {texts : List Text} (htexts : renderAll nodes = .ok texts) : ∀ t ∈ texts, Balanced t := by
  intro t ht
  obtain ⟨node, hnode, hrender⟩ := exists_node_of_renderAll htexts t ht
  exact balanced_render_of_mem nodes h node hnode t hrender

end Output

/-! ## Lines of a dump -/

theorem isNeutral_of_isDigit {c : Char} (h : c.isDigit = true) : IsNeutral (.char c) := by
  intro b
  cases b <;> constructor <;> rintro ⟨⟩ <;> cases h

theorem balanced_natural (n : Nat) : Balanced n.repr := by
  apply Balanced.of_neutral
  rw [Text.ofString, Nat.toList_repr, List.forall_mem_map]
  intro c hc
  exact isNeutral_of_isDigit (Nat.isDigit_of_mem_toDigits (by decide) (by decide) hc)

theorem Text.ofString_append (s t : String) :
    Text.ofString (s ++ t) = Text.ofString s ++ Text.ofString t := by
  rw [Text.ofString, String.toList_append, List.map_append]
  rfl

theorem balanced_integer (n : Int) : Balanced (toString n) := by
  cases n with
  | ofNat n => exact balanced_natural n
  | negSucc n =>
    have hminus : Balanced "-" := by decide
    change Balanced ("-" ++ n.succ.repr : String)
    rw [Text.ofString_append]
    exact hminus.append (balanced_natural n.succ)

/-- A diagnostic whose reasons and file name are balanced. -/
structure Diagnostic.IsBalanced (d : Diagnostic) : Prop where
  reasons : ∀ t ∈ d.reasons, Balanced t
  filename : ∀ t ∈ d.position.filename, Balanced t

theorem Position.balanced_text {p : Position} (h : ∀ t ∈ p.filename, Balanced t) :
    Balanced p.text := by
  have hcolon : Balanced ":" := by decide
  have hfile : Balanced p.filePart := by
    unfold Position.filePart
    split
    · exact .nil
    · rename_i name hname
      split
      · exact .nil
      · exact (h name hname).append hcolon
  unfold Position.text
  split
  · decide
  · have hline := (hfile.append (balanced_integer p.line)).append hcolon
    exact hline.append (balanced_integer p.column)

theorem Diagnostic.IsBalanced.text {d : Diagnostic} (h : d.IsBalanced) : Balanced d.text := by
  have hcolon : Balanced ": " := by decide
  have hsemicolon : Balanced "; " := by decide
  have hseverity : Balanced (if d.isFatal then "error" else "warning" : String) := by
    cases d.isFatal <;> decide
  have hcode : Balanced d.code.name := by
    cases d.code <;> decide
  have hremark : Balanced (if d.maybeBug then " (possible compiler bug)" else "" : String) := by
    cases d.maybeBug <;> decide
  exact (((((((Position.balanced_text h.filename).append hcolon).append hseverity).append
    hcolon).append hcode).append hcolon).append (hsemicolon.joinWith h.reasons)).append hremark

namespace Report

theorem balanced_indented {lines : List Text} (h : ∀ line ∈ lines, Balanced line) :
    ∀ line ∈ indented lines, Balanced line := by
  rw [indented, List.forall_mem_map]
  intro line hline
  have hindent : Balanced "  " := by decide
  exact hindent.append (h line hline)

theorem diagnosticTexts_eq_map {diagnostics : List Diagnostic} {texts : List Text}
    (h : diagnosticTexts diagnostics = .ok texts) : texts = diagnostics.map Diagnostic.text := by
  induction diagnostics generalizing texts with
  | nil =>
    cases h
    rfl
  | cons d rest ih =>
    rw [diagnosticTexts, Diagnostic.line?] at h
    by_cases hd : d.position.isWritable = true
    · simp only [hd, if_true] at h
      cases hrest : diagnosticTexts rest with
      | error e =>
        rw [hrest] at h
        cases h
      | ok others =>
        rw [hrest] at h
        obtain rfl := Except.ok.inj h
        rw [ih hrest, List.map_cons]
    · simp only [hd] at h
      cases h

/-- The lines about diagnostics: none, or a heading and a line for each diagnostic. -/
theorem diagnosticLines_cases {r : Report} {lines : List Text} (h : r.diagnosticLines = .ok lines) :
    lines = [] ∨ lines = heading "Diagnostics" :: indented (r.diagnostics.map Diagnostic.text) := by
  unfold diagnosticLines at h
  cases hd : r.diagnostics with
  | nil =>
    simp only [hd] at h
    exact .inl (Except.ok.inj h).symm
  | cons d rest =>
    simp only [hd] at h
    obtain ⟨texts, htexts, h⟩ := Output.exists_of_bind_eq_ok h
    rw [← diagnosticTexts_eq_map htexts]
    exact .inr (Except.ok.inj h).symm

/-- The lines of a dump: those about nodes, then those about diagnostics. -/
theorem exists_of_lines {r : Report} {lines : List Text} (h : r.lines = .ok lines) :
    ∃ statements render diagnostics, Output.renderAll r.statements = .ok statements ∧
      Output.renderAll r.render = .ok render ∧ r.diagnosticLines = .ok diagnostics ∧
      lines = heading "Top-level statements" :: indented statements ++
        heading "Render" :: indented render ++ diagnostics := by
  unfold Report.lines at h
  obtain ⟨statements, hstatements, h⟩ := Output.exists_of_bind_eq_ok h
  obtain ⟨render, hrender, h⟩ := Output.exists_of_bind_eq_ok h
  obtain ⟨diagnostics, hdiagnostics, h⟩ := Output.exists_of_bind_eq_ok h
  exact ⟨statements, render, diagnostics, hstatements, hrender, hdiagnostics,
    (Except.ok.inj h).symm⟩

theorem balanced_lines_of_nodes {r : Report}
    (h : ∀ node ∈ Output.walk (r.statements ++ r.render), node.IsBalanced)
    {statements render : List Text} (hstatements : Output.renderAll r.statements = .ok statements)
    (hrender : Output.renderAll r.render = .ok render) :
    ∀ line ∈ heading "Top-level statements" :: indented statements ++
      heading "Render" :: indented render, Balanced line := by
  rw [Output.forall_mem_walk_append] at h
  rw [List.forall_mem_append, List.forall_mem_cons, List.forall_mem_cons]
  exact ⟨⟨by decide, balanced_indented (Output.balanced_renderAll h.1 hstatements)⟩,
    by decide, balanced_indented (Output.balanced_renderAll h.2 hrender)⟩

theorem balanced_diagnosticLines {r : Report} {lines : List Text}
    (h : r.diagnosticLines = .ok lines) :
    ∀ line ∈ lines, Balanced line ∨
      ∃ d ∈ r.diagnostics, line = "  " ++ d.text ∧ ¬ d.IsBalanced := by
  rcases diagnosticLines_cases h with rfl | rfl
  · exact List.forall_mem_nil _
  · refine List.forall_mem_cons.mpr ⟨.inl (by decide), ?_⟩
    rw [indented, List.map_map, List.forall_mem_map]
    intro d hd
    by_cases hbalanced : d.IsBalanced
    · have hindent : Balanced "  " := by decide
      exact .inl (hindent.append hbalanced.text)
    · exact .inr ⟨d, hd, rfl, hbalanced⟩

end Report

/-- The text of a tree all of whose parts are balanced is balanced, by itself and among the children
of an element. In the dump of a result that is made of such trees every line is balanced, but for
the lines of diagnostics with an unbalanced reason or file name. Without these the whole dump is
balanced. -/
theorem brackets_balance_in_output (o : Output) (r : Report) :
    ((∀ node ∈ Output.walk [o], node.IsBalanced) → ∀ text, o.render = .ok text →
        Balanced text ∧ ∃ child, Output.renderChildren [o] = .ok [child] ∧ Balanced child) ∧
      ((∀ node ∈ Output.walk (r.statements ++ r.render), node.IsBalanced) →
        ∀ lines, r.lines = .ok lines →
          ∃ shown diagnostics, lines = shown ++ diagnostics ∧
            r.diagnosticLines = .ok diagnostics ∧ (∀ line ∈ shown, Balanced line) ∧
            (∀ line ∈ diagnostics, Balanced line ∨
              ∃ d ∈ r.diagnostics, line = "  " ++ d.text ∧ ¬ d.IsBalanced) ∧
            ((∀ d ∈ r.diagnostics, d.IsBalanced) →
              ∃ text, r.dump = .ok text ∧ Balanced text)) := by
  constructor
  · intro h text htext
    have hbalanced : Balanced text := Output.balanced_render o h text htext
    refine ⟨hbalanced, o.childText text, ?_, Output.balanced_childText o hbalanced⟩
    rw [Output.renderChildren_eq, Output.renderAll_one, htext]
    rfl
  · intro h lines hlines
    obtain ⟨statements, render, diagnostics, hstatements, hrender, hdiagnostics, heq⟩ :=
      Report.exists_of_lines hlines
    have hshown := Report.balanced_lines_of_nodes h hstatements hrender
    have hothers := Report.balanced_diagnosticLines hdiagnostics
    refine ⟨_, diagnostics, heq, hdiagnostics, hshown, hothers, ?_⟩
    intro hbalanced
    refine ⟨Text.joinWith "\n" lines, by rw [Report.dump, hlines]; rfl, ?_⟩
    have hnewline : Balanced "\n" := by decide
    apply hnewline.joinWith
    rw [heq, List.forall_mem_append]
    refine ⟨hshown, ?_⟩
    intro line hline
    refine (hothers line hline).resolve_right ?_
    rintro ⟨d, hd, -, hunbalanced⟩
    exact hunbalanced (hbalanced d hd)

/-- A result can be compared by evaluation. -/
theorem eq_ok_of_toOption {x : Except RenderError Text} {text : Text}
    (h : x.toOption = some text) : x = .ok text := by
  cases x with
  | error e => cases h
  | ok t => rw [Option.some.inj h]

/-- A loop over an indexed collection, in braces among the children of an element. -/
theorem brackets_balance_in_list :
    let rows : Output :=
      { kind := .iteration, value := some "table[0]", params := ["row"]
        children := [.fragment [{ kind := .expression, value := some "f(row)" }], .null] }
    let list : Output :=
      { kind := .element, name := some "ul"
        attributes := [{ name := "style", value := some "\x7b\x7d", isExpression := true }]
        children := [rows] }
    let text : String :=
      "<ul style=\x7b\x7b\x7d\x7d>\x7b(table[0]).length ? (table[0]).map((row) => " ++
        "<>\x7bf(row)\x7d</>) : null\x7d</ul>"
    (∀ node ∈ Output.walk [list], node.IsBalanced) ∧ list.render = .ok text ∧ Balanced text ∧
      ∀ lines, ({ render := [list] } : Report).lines = .ok lines →
        ∀ line ∈ lines, Balanced line := by
  intro rows list text
  have hparts : ∀ node ∈ Output.walk [list], node.IsBalanced := by decide +kernel
  have htext : list.render = .ok text := eq_ok_of_toOption (by decide +kernel)
  obtain ⟨hrender, hlines⟩ := brackets_balance_in_output list { render := [list] }
  refine ⟨hparts, htext, (hrender hparts _ htext).1, ?_⟩
  intro lines h
  obtain ⟨shown, diagnostics, rfl, hdiagnostics, hshown, -⟩ := hlines hparts lines h
  obtain rfl := Except.ok.inj hdiagnostics
  rwa [List.append_nil]

theorem isWritable_zero : isWritable 0 = true := by
  unfold isWritable
  generalize maxDigits = digits
  exact decide_eq_true (Nat.pow_pos (by decide))

theorem Report.diagnosticLines_of_unknown {r : Report} {d : Diagnostic}
    (hr : r.diagnostics = [d]) (hd : d.position = {}) :
    r.diagnosticLines = .ok [heading "Diagnostics", "  " ++ d.text] := by
  have hline : d.line? = some d.text := by
    simp [Diagnostic.line?, hd, Position.isWritable, isWritable_zero]
  simp only [diagnosticLines, hr, diagnosticTexts, hline]
  rfl

/-- A node of a kind with a bracket in its name: the line of the diagnostic is unbalanced. A text
with a line break between its brackets: it is balanced, but not the part of it that is printed in
front of the line break. -/
theorem dump_line_unbalanced :
    (∃ report lines,
      (lowerDocument (.standard {} (Grammar.reader fun _ _ => {}))
          (.block (.mk {} [.other {} "("]))).2 = .ok report ∧
        (∀ node ∈ Output.walk (report.statements ++ report.render), node.IsBalanced) ∧
        report.lines = .ok lines ∧ ∃ line ∈ lines, ¬ Balanced line) ∧
      ∃ report,
        (lowerDocument (.standard {} (Grammar.reader fun _ _ => {}))
            (.block (.mk {} [.text {} "(\n)"]))).2 = .ok report ∧
          (∀ node ∈ Output.walk (report.statements ++ report.render), node.IsBalanced) ∧
          report.dump =
            .ok ("═══ Top-level statements ═══\n═══ Render ═══\n" ++ "  (\n" ++ ")" : String) ∧
          ¬ Balanced "  (" := by
  constructor
  · let d : Diagnostic := (Problem.unknownKind "(").diagnosticAt {}
    refine ⟨{ diagnostics := [d] }, [Report.heading "Top-level statements", Report.heading "Render",
      Report.heading "Diagnostics", "  " ++ d.text], rfl, List.forall_mem_nil _, ?_, "  " ++ d.text,
      by simp, by decide +kernel⟩
    rw [Report.lines, Report.diagnosticLines_of_unknown rfl rfl]
    rfl
  · refine ⟨{ render := [.text "(\n)" {}] }, rfl, by decide, ?_, by decide⟩
    exact eq_ok_of_toOption (by decide +kernel)

end Lowering
