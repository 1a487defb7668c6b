import Mathlib.Algebra.GroupWithZero.Nat
import Mathlib.Data.List.DropRight
import Mathlib.Data.List.Forall2
import Lowering.Proofs.Reading

/-!
# Points of a script

A point of a text is a row and a column: one of its lines, and a number of characters into that
line. Syntax trees count octets, so that the column of a syntax node is found by looking for the
last newline among the octets in front of it and counting the characters from there on.

* `Text.lines`, `Text.IsPoint`: the lines of a text, and the index of a point;
* `Text.rowAfter`, `Text.columnAfter`: the point at the end of a text, and `Text.isPoint_after`: it
  is the same in every text that goes on from there;
* `Syntax.column_of_onBoundary`: the column of a syntax node that starts between two characters;
* `ofSyntax_locates`: the statements of a script, or its first error, stand where the syntax tree
  says.
-/

namespace Lowering

namespace Text

/-! ## Lines and points -/

/-- The character that ends a line. -/
abbrev newline : CodePoint := .char '\n'

/-- The lines of a text: the parts between its newlines. -/
def lines (source : Text) : List Text :=
  source.splitOn newline

/-- The index at which a line starts. -/
def lineStart (source : Text) (row : Nat) : Nat :=
  ((source.lines.take row).map fun line => line.length + 1).sum

/-- The index that lies `column` characters into the line with the number `row`. -/
def IsPoint (source : Text) (row column : Int) (index : Nat) : Prop :=
  ∃ (r c : Nat) (line : Text), row = r ∧ column = c ∧ source.lines[r]? = some line ∧
    c ≤ line.length ∧ source.lineStart r + c = index

/-- The row at the end of a text. -/
def rowAfter (t : Text) : Nat :=
  t.count newline

/-- The column at the end of a text: the characters since its last newline. -/
def columnAfter (t : Text) : Nat :=
  (t.rtakeWhile (· != newline)).length

theorem rowAfter_append (s t : Text) : (s ++ t).rowAfter = s.rowAfter + t.count newline :=
  List.count_append

theorem columnAfter_newline (t : Text) : columnAfter (t ++ [newline]) = 0 := by
  rw [columnAfter, List.rtakeWhile_concat_neg _ _ _ (by simp), List.length_nil]

theorem columnAfter_concat {p : CodePoint} (h : p ≠ newline) (t : Text) :
    columnAfter (t ++ [p]) = t.columnAfter + 1 := by
  rw [columnAfter, List.rtakeWhile_concat_pos _ _ _ (by simpa using h), List.length_append,
    List.length_singleton, columnAfter]

theorem lines_cons (p : CodePoint) (t : Text) :
    lines (p :: t) = if p = newline then [] :: t.lines else t.lines.modifyHead (p :: ·) := by
  simp only [lines, List.splitOn_cons_eq_if_modifyHead, beq_iff_eq]

theorem exists_lines_eq_cons (t : Text) : ∃ line rest, t.lines = line :: rest :=
  List.exists_cons_of_ne_nil (List.splitOn_ne_nil newline t)

theorem length_lines (t : Text) : t.lines.length = t.count newline + 1 := by
  induction t with
  | nil => rfl
  | cons p rest ih =>
    rw [lines_cons, List.count_cons]
    split
    · rename_i h
      simp [h, ih]
    · rename_i h
      simp [h, ih]

/-- Every line takes up its length and one newline, except that the last one has none. -/
theorem sum_lines (t : Text) :
    (t.lines.map fun line => line.length + 1).sum = t.length + 1 := by
  induction t with
  | nil => rfl
  | cons p rest ih =>
    obtain ⟨line, others, hlines⟩ := exists_lines_eq_cons rest
    rw [hlines] at ih
    rw [lines_cons, hlines]
    split
    · simp only [List.map_cons, List.sum_cons, List.length_cons, List.length_nil] at ih ⊢
      omega
    · simp only [List.modifyHead_cons, List.map_cons, List.sum_cons, List.length_cons] at ih ⊢
      omega

/-- What stands in front of the first newline is part of the first line. -/
theorem lines_append_of_not_mem {before : Text} (h : newline ∉ before) (after : Text) :
    ∃ line rest, (before ++ after).lines = line :: rest ∧ before.length ≤ line.length := by
  induction before with
  | nil =>
    obtain ⟨line, rest, hlines⟩ := exists_lines_eq_cons after
    exact ⟨line, rest, hlines, Nat.zero_le _⟩
  | cons p rest ih =>
    rw [List.mem_cons, not_or] at h
    obtain ⟨line, others, hlines, hle⟩ := ih h.2
    refine ⟨p :: line, others, ?_, Nat.succ_le_succ hle⟩
    rw [List.cons_append, lines_cons, if_neg (Ne.symm h.1), hlines, List.modifyHead_cons]

/-- A text is empty in front of its last row, or a newline ends what stands there. -/
theorem exists_last_row (t : Text) :
    ∃ above row : Text, t = above ++ row ∧ newline ∉ row ∧ t.columnAfter = row.length ∧
      (above = [] ∨ ∃ front, above = front ++ [newline]) := by
  refine ⟨t.rdropWhile (· != newline), t.rtakeWhile (· != newline),
    (List.rdropWhile_append_rtakeWhile ..).symm, ?_, rfl, ?_⟩
  · intro hmem
    simpa using List.mem_rtakeWhile_imp hmem
  · by_cases hnil : t.rdropWhile (· != newline) = []
    · exact .inl hnil
    · have hlast : (t.rdropWhile (· != newline)).getLast hnil = newline := by
        simpa using List.rdropWhile_last_not (· != newline) t hnil
      have hsplit := List.dropLast_append_getLast hnil
      rw [hlast] at hsplit
      exact .inr ⟨_, hsplit.symm⟩

/-- The point at the end of a text is the same wherever the text goes on. -/
theorem isPoint_after (before after : Text) :
    (before ++ after).IsPoint before.rowAfter before.columnAfter before.length := by
  obtain ⟨above, row, rfl, hrow, hcolumn, habove⟩ := exists_last_row before
  obtain ⟨line, rest, hlines, hle⟩ := lines_append_of_not_mem hrow after
  have hcount : row.count newline = 0 := List.count_eq_zero.mpr hrow
  refine ⟨_, _, line, rfl, rfl, ?_⟩
  rw [hcolumn, rowAfter, List.count_append, hcount, List.append_assoc]
  rcases habove with rfl | ⟨front, rfl⟩
  · refine ⟨?_, hle, ?_⟩
    · simp [hlines]
    · simp [lineStart]
  · -- The lines in front of the last newline take up all that stands in front of the row.
    have hall : (front ++ [newline] ++ (row ++ after)).lines = front.lines ++ line :: rest := by
      rw [← hlines, List.append_assoc]
      exact List.splitOn_append_cons_self front (row ++ after)
    have hnumber : (front ++ [newline]).count newline + 0 = front.lines.length := by
      rw [length_lines, List.count_append, List.count_singleton_self]
    refine ⟨?_, hle, ?_⟩
    · rw [hall, hnumber, List.getElem?_append_right (Nat.le_refl _), Nat.sub_self,
        List.getElem?_cons_zero]
    · rw [lineStart, hall, hnumber, List.take_left, sum_lines]
      simp only [List.length_append, List.length_singleton]

end Text

/-! ## Columns of octet offsets -/

namespace Utf8

/-- The octet of a newline occurs in no other character. -/
theorem octet_ne_newline {c : Char} (h : c ≠ '\n') : ∀ b ∈ String.utf8EncodeChar c, b ≠ 10 := by
  have hv : c.val.toNat ≠ 10 := by
    intro heq
    exact h (Char.ext (UInt32.toNat_inj.mp heq))
  have hten : ∀ {n : Nat}, n < 256 → n ≠ 10 → UInt8.ofNat n ≠ 10 := by
    intro n hn hne heq
    have := congrArg UInt8.toNat heq
    rw [toNat_octet hn] at this
    exact hne this
  intro b hb
  simp only [String.utf8EncodeChar] at hb
  split at hb
  · cases List.mem_singleton.mp hb
    exact hten (by omega) hv
  · split at hb
    · simp only [List.mem_cons, List.not_mem_nil, or_false] at hb
      rcases hb with rfl | rfl <;> exact hten (by omega) (by omega)
    · split at hb
      · simp only [List.mem_cons, List.not_mem_nil, or_false] at hb
        rcases hb with rfl | rfl | rfl <;> exact hten (by omega) (by omega)
      · simp only [List.mem_cons, List.not_mem_nil, or_false] at hb
        rcases hb with rfl | rfl | rfl | rfl <;> exact hten (by omega) (by omega)

/-- The octets since the last newline are those of the characters since the last newline. -/
theorem rtakeWhile_flatMap (cs : List Char) :
    (cs.flatMap String.utf8EncodeChar).rtakeWhile (· ≠ 10) =
      (cs.rtakeWhile (· != '\n')).flatMap String.utf8EncodeChar := by
  induction cs using List.reverseRecOn with
  | nil => rfl
  | append_singleton cs c ih =>
    rw [List.flatMap_append, List.flatMap_singleton]
    by_cases h : c = '\n'
    · subst h
      rw [List.rtakeWhile_concat_neg _ _ _ (by simp)]
      exact List.rtakeWhile_concat_neg _ _ _ (by decide)
    · have hall : ∀ b ∈ (String.utf8EncodeChar c).reverse, decide (b ≠ 10) = true := by
        intro b hb
        exact decide_eq_true (octet_ne_newline h b (List.mem_reverse.mp hb))
      rw [List.rtakeWhile_concat_pos _ _ _ (by simpa using h), List.flatMap_append,
        List.flatMap_singleton, ← ih, List.rtakeWhile, List.reverse_append,
        List.takeWhile_append_of_pos hall, List.reverse_append, List.reverse_reverse]
      rfl

theorem columnAfter_map_char (cs : List Char) :
    Text.columnAfter (cs.map .char) = (cs.rtakeWhile (· != '\n')).length := by
  have hcomp : ((· != Text.newline) ∘ CodePoint.char) = (· != '\n') := by
    funext c
    by_cases h : c = '\n' <;> simp [h, bne]
  rw [Text.columnAfter, List.rtakeWhile, ← List.map_reverse, List.takeWhile_map, hcomp,
    ← List.map_reverse, List.length_map]
  rfl

/-- The column of an offset that lies between characters counts the characters since the last
newline. -/
theorem column_of_onBoundary {source before : Text} {octets : List UInt8} {offset : Int}
    (h : encode source = .ok octets) (hoffset : OnBoundary source before offset) :
    Script.column octets offset = before.columnAfter := by
  obtain ⟨cs, rfl, rfl⟩ := encode_eq_ok_iff.mp h
  obtain ⟨after, octets₁, hsplit, henc, rfl⟩ := hoffset
  obtain ⟨cs₁, rfl, rfl⟩ := encode_eq_ok_iff.mp henc
  obtain ⟨rest, rfl⟩ := prefix_of_map_char hsplit
  have hline : Script.lineBefore ((cs₁ ++ rest).flatMap String.utf8EncodeChar)
      ((cs₁.flatMap String.utf8EncodeChar).length : Int) =
        (cs₁.flatMap String.utf8EncodeChar).rtakeWhile (· ≠ 10) := by
    rw [Script.lineBefore, clip_natCast (by simp), List.flatMap_append, List.take_left,
      List.rtakeWhile]
  rw [Script.column, hline, rtakeWhile_flatMap, lossyLength, pieces_flatMap, List.length_map,
    columnAfter_map_char]

/-- Of two offsets between characters the lower one has less text in front of it. -/
theorem prefix_of_onBoundary {source before upto : Text} {start stop : Int}
    (hstart : OnBoundary source before start) (hstop : OnBoundary source upto stop)
    (hle : start ≤ stop) : before <+: upto := by
  obtain ⟨after₁, octets₁, hsplit₁, henc₁, rfl⟩ := hstart
  obtain ⟨after₂, octets₂, hsplit₂, henc₂, rfl⟩ := hstop
  rcases List.prefix_or_prefix_of_prefix ⟨after₁, hsplit₁.symm⟩ ⟨after₂, hsplit₂.symm⟩ with h | h
  · exact h
  · obtain ⟨part, rfl⟩ := h
    obtain ⟨cs, hcs, rfl⟩ := encode_eq_ok_iff.mp henc₁
    obtain ⟨cs₁, cs₂, rfl, rfl, rfl⟩ := List.map_eq_append_iff.mp hcs.symm
    obtain ⟨cs₃, hcs₃, rfl⟩ := encode_eq_ok_iff.mp henc₂
    obtain rfl := (List.map_inj_right fun _ _ h => CodePoint.char.inj h).mp hcs₃
    -- The part between the offsets has no octets, so that it is empty.
    have hnone : cs₂ = [] := by
      cases cs₂ with
      | nil => rfl
      | cons c rest =>
        have hpos : 0 < (String.utf8EncodeChar c).length := by
          rw [String.length_utf8EncodeChar]
          exact c.utf8Size_pos
        simp only [List.flatMap_append, List.flatMap_cons, List.length_append, Int.natCast_add]
          at hle
        omega
    simp [hnone]

end Utf8

/-! ## Statements and errors at their points -/

/-- A syntax node that lies between characters of the source, in the row that the newlines in front
of it make. -/
def Syntax.IsPlaced (source : Text) (n : Syntax) : Prop :=
  n.start ≤ n.stop ∧ ∃ before upto, Utf8.OnBoundary source before n.start ∧
    Utf8.OnBoundary source upto n.stop ∧ n.row = before.count Text.newline

/-- A statement that is what a syntax node spans: the text between its two offsets, with the point
at which that text begins. -/
def Statement.Spells (source : Text) (n : Syntax) (s : Statement) : Prop :=
  s.kind = n.kind ∧ ∃ before after, source = before ++ s.text ++ after ∧
    Utf8.OnBoundary source before n.start ∧ Utf8.OnBoundary source (before ++ s.text) n.stop ∧
    source.IsPoint s.row s.column before.length

namespace Syntax

section Encoded

variable {source : Text} (henc : ∃ octets, Utf8.encode source = .ok octets)
include henc

theorem column_of_onBoundary {before : Text} {n : Syntax}
    (h : Utf8.OnBoundary source before n.start) : n.column source = before.columnAfter := by
  obtain ⟨octets, henc⟩ := henc
  simp only [column, henc, Utf8.column_of_onBoundary henc h]

/-- The row and column of a syntax node that lies between characters are its point in the source. -/
theorem isPoint_of_onBoundary {before : Text} {n : Syntax}
    (h : Utf8.OnBoundary source before n.start) (hrow : n.row = before.count Text.newline) :
    source.IsPoint n.row (n.column source) before.length := by
  rw [column_of_onBoundary henc h, hrow]
  obtain ⟨after, -, rfl, -⟩ := h
  exact Text.isPoint_after before after

theorem spells_statement {n : Syntax} (h : n.IsPlaced source) :
    (∃ text, n.text? source = some text) ∧ (n.statement source).Spells source n := by
  obtain ⟨hle, before, upto, hstart, hstop, hrow⟩ := h
  have htext := text?_of_onBoundary henc hstart hstop
  refine ⟨⟨_, htext⟩, rfl, before, ?_⟩
  obtain ⟨part, rfl⟩ := Utf8.prefix_of_onBoundary hstart hstop hle
  rw [List.drop_left] at htext
  have hpart : (n.statement source).text = part := by
    simp only [statement, htext, Option.getD_some]
  rw [hpart]
  obtain ⟨after, -, hsplit, -⟩ := id hstop
  exact ⟨after, hsplit, hstart, hstop, isPoint_of_onBoundary henc hstart hrow⟩

end Encoded

end Syntax

/-- A source of characters is split along a tree without error, whose nodes lie between characters
in their true rows, into one statement for each named node that is no comment, in order. Its text is
what the node spans, and its row and column lead to the character with which that text begins. In a
tree with an error the row and column are those of the first node that is one. -/
theorem ofSyntax_locates (source : String) (root : Syntax) :
    (root.hasError = false → (∀ n ∈ root.children, n.IsPlaced source) →
      ∃ statements, Script.ofSyntax source root = .ok (.statements statements) ∧
        List.Forall₂ (Statement.Spells source)
          (root.children.filter fun n => n.named && !Script.commentKinds.contains n.kind)
          statements) ∧
      ∀ (n : Syntax) (before : Text), root.hasError = true → root.firstError = some n →
        Utf8.OnBoundary source before n.start → n.row = before.count Text.newline →
          ∃ row column, Script.ofSyntax source root = .ok (.broken row column) ∧
            Text.IsPoint source row column before.length := by
  have henc : ∃ octets, Utf8.encode (Text.ofString source) = .ok octets :=
    ⟨_, Utf8.encode_eq_ok_iff.mpr ⟨source.toList, rfl, rfl⟩⟩
  obtain ⟨octets, hoctets⟩ := id henc
  constructor
  · intro herror hplaced
    have hspells : ∀ n ∈ root.statements, _ := fun n hn =>
      Syntax.spells_statement henc (hplaced n (List.mem_filter.mp hn).1)
    refine ⟨_, ofSyntax_of_texts hoctets herror fun n hn => (hspells n hn).1, ?_⟩
    change List.Forall₂ _ (root.children.filter Script.isStatement) _
    rw [Syntax.filter_isStatement, List.forall₂_map_right_iff]
    exact List.forall₂_same.mpr fun n hn => (hspells n hn).2
  · intro n before herror hfirst hstart hrow
    refine ⟨_, _, ofSyntax_of_hasError hoctets herror, ?_⟩
    simp only [Syntax.errorPoint, hfirst]
    exact Syntax.isPoint_of_onBoundary henc hstart hrow

/-- A source with characters of one, two and four octets, on two lines. -/
def wideSource : String := "ö;\n😀y"

/-- A tree of `wideSource` with a comment between two statements. -/
def wideTree : Syntax :=
  { stop := 9
    children :=
      [{ kind := "expression_statement", stop := 3 },
        { kind := "comment", start := 4, stop := 8, row := 1 },
        { kind := "expression_statement", start := 8, stop := 9, row := 1 }] }

/-- A tree of `wideSource` with an error after the wide character of the second line. -/
def brokenTree : Syntax :=
  { hasError := true
    stop := 9
    children := [{ isError := true, start := 8, stop := 9, row := 1 }] }

/-- The offsets in the two trees lie between characters. The statement and the error after the wide
character stand in the second column of their row, four octets into it. -/
theorem ofSyntax_wideTree :
    (∀ n ∈ wideTree.children, n.IsPlaced wideSource) ∧
      (∃ statements, Script.ofSyntax wideSource wideTree = .ok (.statements statements) ∧
        List.Forall₂ (Statement.Spells wideSource)
          (wideTree.children.filter fun n => n.named && !Script.commentKinds.contains n.kind)
          statements) ∧
      ∃ row column, Script.ofSyntax wideSource brokenTree = .ok (.broken row column) ∧
        Text.IsPoint wideSource row column 4 := by
  have hfirst : Utf8.OnBoundary wideSource [] 0 := ⟨_, [], rfl, rfl, rfl⟩
  have hline : Utf8.OnBoundary wideSource "ö;" 3 := ⟨_, _, rfl, rfl, rfl⟩
  have hcomment : Utf8.OnBoundary wideSource "ö;\n" 4 := ⟨_, _, rfl, rfl, rfl⟩
  have hwide : Utf8.OnBoundary wideSource "ö;\n😀" 8 := ⟨_, _, rfl, rfl, rfl⟩
  have hend : Utf8.OnBoundary wideSource "ö;\n😀y" 9 := ⟨_, _, rfl, rfl, rfl⟩
  have hplaced : ∀ n ∈ wideTree.children, n.IsPlaced wideSource := by
    intro n hn
    simp only [wideTree, List.mem_cons, List.not_mem_nil, or_false] at hn
    rcases hn with rfl | rfl | rfl
    · exact ⟨by decide, _, _, hfirst, hline, rfl⟩
    · exact ⟨by decide, _, _, hcomment, hwide, by decide⟩
    · exact ⟨by decide, _, _, hwide, hend, by decide⟩
  exact ⟨hplaced, (ofSyntax_locates wideSource wideTree).1 rfl hplaced,
    (ofSyntax_locates wideSource brokenTree).2 _ "ö;\n😀" rfl rfl hwide (by decide)⟩

end Lowering
