import Lowering.Proofs.Run
import Lowering.Proofs.Utf8

/-!
# Reading scripts

What becomes of the text of a script tag depends on the syntax tree that the grammar answers for it.
A script can be read if its source has octets, if every statement can be decoded, and if the rows
that positions are asked for are not negative; otherwise its run ends in a fault.

* `Origins.isSome_locate_iff`: every row from zero on has a position;
* `Readable`: a script that can be read;
* `faults_lowerScriptText_iff`: the run of a script ends in a fault exactly if it cannot be read;
* `value_lowerScriptText_of_readable`: a script that can be read is lowered all or nothing;
* `readable_iff_of_fits`: along a tree that fits its source only a surrogate can be in the way;
* `exists_lowerDocument_iff`: a document has a result exactly if all the scripts read in it can be
  read.
-/

namespace Lowering

/-! ## Positions of rows -/

namespace Origins

theorem highest_eq_none_iff {origins : Origins} : highest origins = none ↔ origins = [] := by
  cases origins with
  | nil => simp [highest]
  | cons entry rest =>
    simp only [highest, reduceCtorEq, iff_false]
    split
    · simp
    · split <;> simp

theorem mem_of_highest {origins : Origins} {entry : Nat × Position}
    (h : highest origins = some entry) : entry ∈ origins := by
  induction origins with
  | nil => cases h
  | cons first rest ih =>
    unfold highest at h
    cases hrest : highest rest with
    | none =>
      rw [hrest] at h
      cases h
      exact List.mem_cons_self
    | some other =>
      simp only [hrest] at h
      by_cases hlt : first.1 < other.1
      · rw [if_pos hlt] at h
        cases h
        exact List.mem_cons_of_mem _ (ih hrest)
      · rw [if_neg hlt] at h
        cases h
        exact List.mem_cons_self

/-- Row zero always has an origin. -/
theorem exists_mem_ofTexts (texts : List (Position × Text)) (tag : Position) :
    ∃ position, (0, position) ∈ ofTexts texts tag := by
  unfold ofTexts
  dsimp only
  split
  · rename_i position h
    obtain ⟨before, after, heq, -⟩ := List.lookup_eq_some_iff.mp h
    exact ⟨position, by rw [heq]; simp⟩
  · exact ⟨_, List.mem_append_right _ (List.mem_singleton.mpr rfl)⟩

/-- With an origin for row zero, exactly the rows from zero on have a position. -/
theorem isSome_locate_iff {texts : List (Position × Text)} {tag : Position} {row column : Int} :
    (locate (ofTexts texts tag) row column).isSome = true ↔ 0 ≤ row := by
  obtain ⟨position, hzero⟩ := exists_mem_ofTexts texts tag
  generalize ofTexts texts tag = origins at hzero
  unfold locate
  split
  · rename_i known origin h
    have hrow := List.find?_some h
    simp only [beq_iff_eq] at hrow
    simp only [Option.isSome_some, true_iff]
    omega
  · rename_i h
    rw [List.find?_eq_none] at h
    have hne : row ≠ 0 := by
      intro hrow
      exact h _ hzero (by simp [hrow])
    rw [Option.isSome_map, Option.isSome_iff_ne_none, Ne, highest_eq_none_iff,
      List.filter_eq_nil_iff]
    constructor
    · intro hex
      apply Int.not_lt.mp
      intro hneg
      apply hex
      intro entry _
      simp only [decide_eq_true_eq]
      omega
    · intro hrow hall
      apply hall _ hzero
      simp only [decide_eq_true_eq]
      omega

end Origins

/-! ## Sources and their syntax nodes -/

/-- The texts among nodes, each with the position where it starts. -/
def textsAmong : List Node → List (Position × Text)
  | [] => []
  | .text mark value :: rest => (mark.position, value) :: textsAmong rest
  | _ :: rest => textsAmong rest

/-- The texts that stand directly in a body. -/
def directTexts : Option Block → List (Position × Text)
  | none => []
  | some (.mk _ nodes) => textsAmong nodes

theorem bodyTexts_eq_directTexts (body : Option Block) : bodyTexts body = directTexts body := by
  rcases body with _ | ⟨mark, nodes⟩
  · rfl
  · simp only [bodyTexts, directTexts, Block.nodes]
    induction nodes with
    | nil => rfl
    | cons n rest ih => cases n <;> simp [textsAmong, ih]

/-- The script in a body: its texts, one after the other. -/
def scriptSource (body : Option Block) : Text :=
  (directTexts body).flatMap Prod.snd

/-- The origins of the rows of the script in a tag. -/
def scriptOrigins (mark : Mark) (body : Option Block) : Origins :=
  .ofTexts (directTexts body) mark.position

/-- The template position of a point of the script in a tag. -/
def scriptPosition (mark : Mark) (body : Option Block) (row column : Int) : Position :=
  ((scriptOrigins mark body).locate row column).getD {}

namespace Syntax

/-- The part of a source that a syntax node spans; none if it cannot be decoded. -/
def text? (source : Text) (n : Syntax) : Option Text :=
  match Utf8.encode source with
  | .error _ => none
  | .ok octets => (Utf8.decode (Script.slice octets n.start n.stop)).toOption

/-- The character column at which a syntax node starts. -/
def column (source : Text) (n : Syntax) : Int :=
  match Utf8.encode source with
  | .error _ => 0
  | .ok octets => Script.column octets n.start

/-- The statements of a tree: the nodes directly in it that have a name and are no comments. -/
def statements (tree : Syntax) : List Syntax :=
  tree.children.filter fun n => n.named = true ∧ n.kind ≠ "comment"

theorem filter_isStatement (tree : Syntax) :
    tree.children.filter Script.isStatement = tree.statements := by
  apply List.filter_congr
  intro n _
  simp [Script.isStatement, Script.commentKinds]

/-- The statement of a syntax node. -/
def statement (source : Text) (n : Syntax) : Statement where
  text := (n.text? source).getD []
  kind := n.kind
  row := n.row
  column := n.column source

/-- The row and column of the first error in a tree; the start of the source if none is found. -/
def errorPoint (source : Text) (tree : Syntax) : Int × Int :=
  match tree.firstError with
  | none => (0, 0)
  | some n => (n.row, n.column source)

end Syntax

/-- A source that can be split along a syntax tree: it has octets, every statement spans whole
characters, and the rows that positions are asked for are not negative. -/
def Splits (source : Text) (tree : Syntax) : Prop :=
  (∃ octets, Utf8.encode source = .ok octets) ∧
    if tree.hasError then 0 ≤ (tree.errorPoint source).1
    else ∀ n ∈ tree.statements, (∃ text, n.text? source = some text) ∧ 0 ≤ n.row

/-- A script that can be read: there is nothing to read, or it can be split along its tree. -/
def Readable (source : Text) (tree : Syntax) : Prop :=
  Text.isBlankText source = true ∨ Splits source tree

/-! ## Splitting a source -/

section Split

variable {source : Text} {octets : List UInt8} (henc : Utf8.encode source = .ok octets)
include henc

theorem statementOf_of_text {n : Syntax} (h : ∃ text, n.text? source = some text) :
    Script.statementOf octets n = .ok (n.statement source) := by
  obtain ⟨text, ht⟩ := h
  have hd : Utf8.decode (Script.slice octets n.start n.stop) = .ok text := by
    simp only [Syntax.text?, henc] at ht
    cases hd : Utf8.decode (Script.slice octets n.start n.stop) with
    | error e => simp [hd, Except.toOption] at ht
    | ok other => simpa [hd, Except.toOption] using ht
  simp only [Script.statementOf, hd, Except.map, Syntax.statement, ht, Option.getD_some,
    Syntax.column, henc]

theorem statementOf_of_no_text {n : Syntax} (h : ¬∃ text, n.text? source = some text) :
    ∃ e, Script.statementOf octets n = .error e := by
  cases hd : Utf8.decode (Script.slice octets n.start n.stop) with
  | error e => exact ⟨e, by simp only [Script.statementOf, hd, Except.map]⟩
  | ok text =>
    refine absurd ⟨text, ?_⟩ h
    simp only [Syntax.text?, henc, hd, Except.toOption]

theorem statementsOf_of_texts {nodes : List Syntax}
    (h : ∀ n ∈ nodes, ∃ text, n.text? source = some text) :
    Script.statementsOf octets nodes = .ok (nodes.map (Syntax.statement source)) := by
  induction nodes with
  | nil => rfl
  | cons n rest ih =>
    rw [List.forall_mem_cons] at h
    simp only [Script.statementsOf, statementOf_of_text henc h.1, ih h.2, bind, Except.bind,
      List.map_cons]

theorem statementsOf_of_no_text {nodes : List Syntax}
    (h : ¬∀ n ∈ nodes, ∃ text, n.text? source = some text) :
    ∃ e, Script.statementsOf octets nodes = .error e := by
  induction nodes with
  | nil => exact absurd (List.forall_mem_nil _) h
  | cons n rest ih =>
    by_cases hn : ∃ text, n.text? source = some text
    · have hrest : ¬∀ n ∈ rest, ∃ text, n.text? source = some text := fun hrest =>
        h (List.forall_mem_cons.mpr ⟨hn, hrest⟩)
      obtain ⟨e, he⟩ := ih hrest
      exact ⟨e, by simp only [Script.statementsOf, statementOf_of_text henc hn, he, bind,
        Except.bind]⟩
    · obtain ⟨e, he⟩ := statementOf_of_no_text henc hn
      exact ⟨e, by simp only [Script.statementsOf, he, bind, Except.bind]⟩

theorem ofSyntax_of_encode (tree : Syntax) :
    Script.ofSyntax source tree = (Script.ofOctets octets tree).mapError .undecodable := by
  rw [Script.ofSyntax, henc]
  rfl

theorem ofSyntax_of_hasError {tree : Syntax} (h : tree.hasError = true) :
    Script.ofSyntax source tree =
      .ok (.broken (tree.errorPoint source).1 (tree.errorPoint source).2) := by
  rw [ofSyntax_of_encode henc, Script.ofOctets, if_pos h]
  simp only [Script.errorPoint, Syntax.errorPoint]
  cases tree.firstError with
  | none => rfl
  | some n =>
    simp only [Syntax.column, henc]
    rfl

theorem ofSyntax_of_texts {tree : Syntax} (h : tree.hasError = false)
    (ht : ∀ n ∈ tree.statements, ∃ text, n.text? source = some text) :
    Script.ofSyntax source tree =
      .ok (.statements (tree.statements.map (Syntax.statement source))) := by
  have hs := statementsOf_of_texts henc ht
  simp only [ofSyntax_of_encode henc, Script.ofOctets, h, Bool.false_eq_true, if_false,
    Syntax.filter_isStatement, hs]
  rfl

theorem ofSyntax_of_no_text {tree : Syntax} (h : tree.hasError = false)
    (ht : ¬∀ n ∈ tree.statements, ∃ text, n.text? source = some text) :
    ∃ e, Script.ofSyntax source tree = .error e := by
  obtain ⟨e, hs⟩ := statementsOf_of_no_text henc ht
  refine ⟨.undecodable e, ?_⟩
  simp only [ofSyntax_of_encode henc, Script.ofOctets, h, Bool.false_eq_true, if_false,
    Syntax.filter_isStatement, hs]
  rfl

end Split

/-! ## Lowering the text of a tag -/

/-- The statement of the module that a syntax node becomes. -/
def statementOutput (mark : Mark) (body : Option Block) (n : Syntax) : Output :=
  .statement ((n.text? (scriptSource body)).getD [])
    (scriptPosition mark body n.row (n.column (scriptSource body)))

section Placing

variable (mark : Mark) (body : Option Block)

theorem locate_of_nonneg {row column : Int} (h : 0 ≤ row) :
    (scriptOrigins mark body).locate row column =
      some (scriptPosition mark body row column) := by
  have hsome : ((scriptOrigins mark body).locate row column).isSome = true :=
    Origins.isSome_locate_iff.mpr h
  obtain ⟨position, hp⟩ := Option.isSome_iff_exists.mp hsome
  rw [scriptPosition, hp]
  rfl

theorem locate_of_neg {row column : Int} (h : ¬0 ≤ row) :
    (scriptOrigins mark body).locate row column = none := by
  have hnone : ¬((scriptOrigins mark body).locate row column).isSome = true :=
    mt Origins.isSome_locate_iff.mp h
  simpa using hnone

theorem placeStatements_of_nonneg {nodes : List Syntax} (h : ∀ n ∈ nodes, 0 ≤ n.row) :
    placeStatements (scriptOrigins mark body)
        (nodes.map (Syntax.statement (scriptSource body))) =
      pure (nodes.map (statementOutput mark body)) := by
  induction nodes with
  | nil => rfl
  | cons n rest ih =>
    rw [List.forall_mem_cons] at h
    have hn : 0 ≤ (n.statement (scriptSource body)).row := h.1
    simp only [List.map_cons, placeStatements, locate_of_nonneg mark body hn, ih h.2]
    rfl

theorem faults_placeStatements_of_neg {nodes : List Syntax} (h : ¬∀ n ∈ nodes, 0 ≤ n.row) :
    Event.faults (placeStatements (scriptOrigins mark body)
      (nodes.map (Syntax.statement (scriptSource body)))).events ≠ [] := by
  induction nodes with
  | nil => exact absurd (List.forall_mem_nil _) h
  | cons n rest ih =>
    simp only [List.map_cons, placeStatements]
    by_cases hn : 0 ≤ (n.statement (scriptSource body)).row
    · have hrest : ¬∀ n ∈ rest, 0 ≤ n.row := fun hrest =>
        h (List.forall_mem_cons.mpr ⟨hn, hrest⟩)
      rw [locate_of_nonneg mark body hn]
      simpa using ih hrest
    · rw [locate_of_neg mark body hn]
      exact List.cons_ne_nil _ _

end Placing

section Texts

variable {config : Config} {grammar : Grammar} {mark : Mark} {body : Option Block}

/-- The tree that a grammar answers for the script in a body. -/
def scriptTree (config : Config) (grammar : Grammar) (body : Option Block) : Syntax :=
  grammar config.language (scriptSource body)

theorem lowerScriptText_of_blank (h : Text.isBlankText (scriptSource body) = true) :
    lowerScriptText (.standard config grammar.reader) mark body = pure (some []) := by
  simp only [lowerScriptText, bodyTexts_eq_directTexts]
  exact if_pos h

theorem lowerScriptText_of_not_blank (h : ¬Text.isBlankText (scriptSource body) = true) :
    lowerScriptText (.standard config grammar.reader) mark body =
      match Script.ofSyntax (scriptSource body) (scriptTree config grammar body) with
      | .error e => .fault (.script e) none
      | .ok (.broken row column) =>
        match (scriptOrigins mark body).locate row column with
        | none => .fault (.noOrigin row) none
        | some position => reject (.invalidScript config.language) position
      | .ok (.statements statements) =>
        .emit (.parsed statements.length) >>= fun _ =>
          placeStatements (scriptOrigins mark body) statements >>= fun outputs =>
            pure (some outputs) := by
  simp only [lowerScriptText, bodyTexts_eq_directTexts]
  exact if_neg h

/-- A script with an error is refused at the first one. -/
theorem lowerScriptText_of_hasError (h : ¬Text.isBlankText (scriptSource body) = true)
    (hs : Splits (scriptSource body) (scriptTree config grammar body))
    (he : (scriptTree config grammar body).hasError = true) :
    lowerScriptText (.standard config grammar.reader) mark body =
      reject (.invalidScript config.language) (scriptPosition mark body
        ((scriptTree config grammar body).errorPoint (scriptSource body)).1
        ((scriptTree config grammar body).errorPoint (scriptSource body)).2) := by
  obtain ⟨⟨octets, henc⟩, hrow⟩ := hs
  rw [if_pos he] at hrow
  rw [lowerScriptText_of_not_blank h, ofSyntax_of_hasError henc he]
  simp only [locate_of_nonneg mark body hrow]

/-- A script without errors becomes its statements. -/
theorem lowerScriptText_of_statements (h : ¬Text.isBlankText (scriptSource body) = true)
    (hs : Splits (scriptSource body) (scriptTree config grammar body))
    (he : (scriptTree config grammar body).hasError = false) :
    lowerScriptText (.standard config grammar.reader) mark body =
      ⟨some ((scriptTree config grammar body).statements.map (statementOutput mark body)),
        [.parsed (scriptTree config grammar body).statements.length]⟩ := by
  obtain ⟨⟨octets, henc⟩, hall⟩ := hs
  rw [he, if_neg Bool.false_ne_true] at hall
  have hplace := placeStatements_of_nonneg mark body fun n hn => (hall n hn).2
  rw [lowerScriptText_of_not_blank h,
    ofSyntax_of_texts henc he fun n hn => (hall n hn).1]
  simp only [hplace]
  exact Emission.ext rfl (by simp [Emission.emit])

/-- The run of a script ends in a fault exactly if the script cannot be read. -/
theorem faults_lowerScriptText_iff :
    Event.faults (lowerScriptText (.standard config grammar.reader) mark body).events = [] ↔
      Readable (scriptSource body) (scriptTree config grammar body) := by
  by_cases hb : Text.isBlankText (scriptSource body) = true
  · rw [lowerScriptText_of_blank hb]
    exact ⟨fun _ => .inl hb, fun _ => rfl⟩
  by_cases hs : Splits (scriptSource body) (scriptTree config grammar body)
  · refine ⟨fun _ => .inr hs, fun _ => ?_⟩
    cases he : (scriptTree config grammar body).hasError with
    | true => rw [lowerScriptText_of_hasError hb hs he]; rfl
    | false => rw [lowerScriptText_of_statements hb hs he]; rfl
  · refine iff_of_false ?_ (fun h => h.elim hb hs)
    rw [lowerScriptText_of_not_blank hb]
    cases henc : Utf8.encode (scriptSource body) with
    | error e =>
      rw [Script.ofSyntax, henc]
      exact List.cons_ne_nil _ _
    | ok octets =>
      cases he : (scriptTree config grammar body).hasError with
      | true =>
        have hrow : ¬0 ≤ ((scriptTree config grammar body).errorPoint (scriptSource body)).1 :=
          fun hrow => hs ⟨⟨octets, henc⟩, by rwa [if_pos he]⟩
        rw [ofSyntax_of_hasError henc he]
        simp only [locate_of_neg mark body hrow]
        exact List.cons_ne_nil _ _
      | false =>
        by_cases ht : ∀ n ∈ (scriptTree config grammar body).statements,
            ∃ text, n.text? (scriptSource body) = some text
        · have hrows : ¬∀ n ∈ (scriptTree config grammar body).statements, 0 ≤ n.row :=
            fun hrows => hs ⟨⟨octets, henc⟩, by
              rw [he, if_neg Bool.false_ne_true]
              exact fun n hn => ⟨ht n hn, hrows n hn⟩⟩
          rw [ofSyntax_of_texts henc he ht]
          simpa [Event.faults, Emission.emit] using faults_placeStatements_of_neg mark body hrows
        · obtain ⟨e, hread⟩ := ofSyntax_of_no_text henc he ht
          rw [hread]
          exact List.cons_ne_nil _ _

/-- The statements of a script that can be read: all of them, or none if it is blank or has an
error. -/
theorem value_lowerScriptText_of_readable
    (h : Readable (scriptSource body) (scriptTree config grammar body)) :
    (lowerScriptText (.standard config grammar.reader) mark body).value.getD [] =
      if Text.isBlankText (scriptSource body) = true ∨
          (scriptTree config grammar body).hasError = true then []
      else (scriptTree config grammar body).statements.map (statementOutput mark body) := by
  by_cases hb : Text.isBlankText (scriptSource body) = true
  · rw [lowerScriptText_of_blank hb, if_pos (.inl hb)]
    rfl
  have hs := h.resolve_left hb
  cases he : (scriptTree config grammar body).hasError with
  | true =>
    rw [lowerScriptText_of_hasError hb hs he, if_pos (.inr rfl)]
    rfl
  | false =>
    rw [lowerScriptText_of_statements hb hs he, if_neg (by simp [hb])]
    rfl

/-- A script that can be read is reported only if it has an error. -/
theorem diagnostics_lowerScriptText_of_readable
    (h : Readable (scriptSource body) (scriptTree config grammar body)) :
    Event.diagnostics (lowerScriptText (.standard config grammar.reader) mark body).events =
      if Text.isBlankText (scriptSource body) = false ∧
          (scriptTree config grammar body).hasError = true then
        [(Problem.invalidScript config.language).diagnosticAt (scriptPosition mark body
          ((scriptTree config grammar body).errorPoint (scriptSource body)).1
          ((scriptTree config grammar body).errorPoint (scriptSource body)).2)]
      else [] := by
  by_cases hb : Text.isBlankText (scriptSource body) = true
  · rw [lowerScriptText_of_blank hb, if_neg (by simp [hb])]
    rfl
  have hs := h.resolve_left hb
  cases he : (scriptTree config grammar body).hasError with
  | true =>
    rw [lowerScriptText_of_hasError hb hs he, if_pos ⟨by simpa using hb, rfl⟩]
    rfl
  | false =>
    rw [lowerScriptText_of_statements hb hs he, if_neg (by simp)]
    rfl

end Texts

/-! ## Trees that fit their source -/

namespace Syntax

mutual

/-- A syntax node and all nodes below it, in pre-order. -/
def walkNode : Syntax → List Syntax
  | ⟨kind, named, isError, isMissing, hasError, start, stop, row, children⟩ =>
    ⟨kind, named, isError, isMissing, hasError, start, stop, row, children⟩ :: walk children

/-- The syntax nodes of several trees in pre-order. -/
def walk : List Syntax → List Syntax
  | [] => []
  | n :: rest => walkNode n ++ walk rest

end

theorem mem_walkNode_self (n : Syntax) : n ∈ n.walkNode := by
  obtain ⟨⟩ := n
  simp [walkNode]

theorem mem_walk_of_mem {n : Syntax} {nodes : List Syntax} (h : n ∈ nodes) : n ∈ walk nodes := by
  induction nodes with
  | nil => cases h
  | cons m rest ih =>
    rw [walk, List.mem_append]
    rcases List.mem_cons.mp h with rfl | h
    · exact .inl (mem_walkNode_self n)
    · exact .inr (ih h)

theorem mem_walkNode_of_mem_children {n tree : Syntax} (h : n ∈ tree.children) :
    n ∈ tree.walkNode := by
  obtain ⟨⟩ := tree
  rw [walkNode]
  exact List.mem_cons_of_mem _ (mem_walk_of_mem h)

mutual

theorem mem_walkNode_of_firstError {found : Syntax} :
    (tree : Syntax) → tree.firstError = some found → found ∈ tree.walkNode
  | ⟨kind, named, isError, isMissing, hasError, start, stop, row, children⟩, h => by
    rw [walkNode]
    rw [firstError] at h
    split at h
    · cases h
      exact List.mem_cons_self
    · exact List.mem_cons_of_mem _ (mem_walk_of_firstErrorIn children h)

theorem mem_walk_of_firstErrorIn {found : Syntax} :
    (nodes : List Syntax) → firstErrorIn nodes = some found → found ∈ walk nodes
  | [], h => by cases h
  | n :: rest, h => by
    rw [walk, List.mem_append]
    rw [firstErrorIn] at h
    split at h
    · split at h
      · rename_i other hn
        cases h
        exact .inl (mem_walkNode_of_firstError n hn)
      · exact .inr (mem_walk_of_firstErrorIn rest h)
    · exact .inr (mem_walk_of_firstErrorIn rest h)

end

/-- A tree whose nodes all lie between characters of the source, in rows from zero on. -/
def Fits (source : Text) (tree : Syntax) : Prop :=
  ∀ n ∈ tree.walkNode, (∃ before, Utf8.OnBoundary source before n.start) ∧
    (∃ upto, Utf8.OnBoundary source upto n.stop) ∧ 0 ≤ n.row

theorem text?_of_onBoundary {source before upto : Text} {n : Syntax}
    (henc : ∃ octets, Utf8.encode source = .ok octets)
    (hstart : Utf8.OnBoundary source before n.start)
    (hstop : Utf8.OnBoundary source upto n.stop) :
    n.text? source = some (upto.drop before.length) := by
  obtain ⟨octets, henc⟩ := henc
  simp only [text?, henc, Utf8.decode_slice henc hstart hstop, Except.toOption]

end Syntax

/-- A source with octets can be split along a tree that fits. -/
theorem splits_of_fits {source : Text} {tree : Syntax}
    (henc : ∃ octets, Utf8.encode source = .ok octets) (h : tree.Fits source) :
    Splits source tree := by
  refine ⟨henc, ?_⟩
  split
  · unfold Syntax.errorPoint
    split
    · exact Int.le_refl 0
    · rename_i n hn
      exact (h n (Syntax.mem_walkNode_of_firstError tree hn)).2.2
  · intro n hn
    have hchild := (List.mem_filter.mp hn).1
    obtain ⟨⟨before, hstart⟩, ⟨upto, hstop⟩, hrow⟩ :=
      h n (Syntax.mem_walkNode_of_mem_children hchild)
    exact ⟨⟨_, Syntax.text?_of_onBoundary henc hstart hstop⟩, hrow⟩

/-- Along a tree that fits, a script can be read unless there is a surrogate in it. The tree of a
blank script is not looked at. -/
theorem readable_iff_of_fits {source : Text} {tree : Syntax}
    (h : Text.isBlankText source = false → tree.Fits source) :
    Readable source tree ↔ source.IsClean := by
  rw [← Utf8.exists_encode_iff]
  constructor
  · rintro (hb | ⟨henc, -⟩)
    · rw [Utf8.exists_encode_iff]
      intro index hmem
      -- A surrogate is not blank.
      cases List.all_eq_true.mp hb _ hmem
    · exact henc
  · intro henc
    cases hb : Text.isBlankText source with
    | true => exact .inl hb
    | false => exact .inr (splits_of_fits henc (h hb))

/-! ## Documents -/

/-- The script that is read at a node directly in a document. -/
def Node.scriptSource? (config : Config) : Node → Option Text
  | .tag mark t body =>
    if (Node.tag mark t body).isScript config = true ∧ t.scriptProblem? config = none ∧
        t.dialect config = config.primaryDialect then
      some (scriptSource body)
    else none
  | _ => none

/-- The scripts that are read in a document, in order. -/
def documentScripts (config : Config) (root : Node) : List Text :=
  root.topLevel.filterMap (Node.scriptSource? config)

/-- A document all of whose scripts can be read along the trees that a grammar answers. -/
def ReadableDocument (config : Config) (grammar : Grammar) (root : Node) : Prop :=
  ∀ source ∈ documentScripts config root, Readable source (grammar config.language source)

section Documents

variable (config : Config) (grammar : Grammar)

theorem faults_topLevel_iff (n : Node) :
    Event.faults (n.events (.standard config grammar.reader) true) = [] ↔
      ∀ source ∈ n.scriptSource? config, Readable source (grammar config.language source) := by
  cases hs : n.isScript config with
  | false =>
    have hnone : n.scriptSource? config = none := by
      cases n with
      | tag mark t body => simp [Node.scriptSource?, hs]
      | _ => rfl
    rw [faults_of_not_script hs, hnone]
    exact iff_of_true rfl (by simp)
  | true =>
    cases n with
    | tag mark t body =>
      cases hp : t.scriptProblem? config with
      | some problem =>
        rw [Node.events_script_of_problem hs hp]
        simp [Node.scriptSource?, hp, Event.faults]
      | none =>
        by_cases hd : t.dialect config = config.primaryDialect
        · rw [Node.events_script_primary hs hp hd]
          have hmarkup : Event.faults (if hasMarkup body then
              [.diagnosed (Problem.scriptWithMarkup.diagnosticAt mark.position)] else []) = [] := by
            split <;> rfl
          rw [Event.faults_append, Event.faults_append, hmarkup, List.nil_append,
            List.append_eq_nil_iff, faults_lowerScriptText_iff]
          simp [Node.scriptSource?, hs, hp, hd, scriptTree, Event.faults]
        · rw [Node.events_script_template hs hp hd, Event.faults_append,
            Event.faults_eq_nil (diagnosed_of_mem_bodyEvents config grammar.reader body)]
          simp [Node.scriptSource?, hd, Event.faults]
    | _ => cases hs

theorem faults_document_iff (root : Node) :
    Event.faults (documentEvents (.standard config grammar.reader) root) = [] ↔
      ReadableDocument config grammar root := by
  cases root with
  | block b =>
    simp only [documentEvents, Event.faults_flatMap, List.flatMap_eq_nil_iff, faults_topLevel_iff,
      ReadableDocument, documentScripts, Node.topLevel, List.mem_filterMap]
    constructor
    · rintro h source ⟨n, hn, hsource⟩
      exact h n hn source hsource
    · intro h n hn source hsource
      exact h source ⟨n, hn, hsource⟩
  | _ =>
    refine iff_of_true ?_ (List.forall_mem_nil _)
    exact Event.faults_eq_nil (diagnosed_of_mem_events config grammar.reader _)

/-- A document has a result exactly if its scripts can be read. -/
theorem lowerDocument_eq_ok_iff_readable {root : Node} {report : Report} :
    (lowerDocument (.standard config grammar.reader) root).2 = .ok report ↔
      ReadableDocument config grammar root ∧
        report = documentReport (.standard config grammar.reader) root := by
  rw [lowerDocument_eq_ok_iff, faults_document_iff]

theorem exists_lowerDocument_iff {root : Node} :
    (∃ report, (lowerDocument (.standard config grammar.reader) root).2 = .ok report) ↔
      ReadableDocument config grammar root := by
  simp [lowerDocument_eq_ok_iff_readable]

/-- Both outcomes of a document at once, with what is known about its result. -/
theorem outcome_lowerDocument {root : Node} {Known : Report → Prop}
    (h : ReadableDocument config grammar root →
      Known (documentReport (.standard config grammar.reader) root)) :
    match (lowerDocument (.standard config grammar.reader) root).2 with
    | .ok report => ReadableDocument config grammar root ∧ Known report
    | .error _ => ¬ReadableDocument config grammar root := by
  split
  · rename_i report hok
    obtain ⟨hread, rfl⟩ := (lowerDocument_eq_ok_iff_readable config grammar).mp hok
    exact ⟨hread, h hread⟩
  · rename_i e herror
    intro hread
    obtain ⟨report, hok⟩ := (exists_lowerDocument_iff config grammar).mpr hread
    rw [herror] at hok
    cases hok

end Documents

end Lowering
