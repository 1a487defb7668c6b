import Mathlib.Data.List.Chain
import Mathlib.Tactic.MkIffOfInductiveProp
import Lowering.Proofs.Hoisting
import Lowering.Proofs.Points

/-!
# Scripts as they are laid out

The texts of a script tag come from the template, where each of them has a position. If the texts
stand one after the other in the template as they do in the script, every character of the script
has a position in the template; the origins of the rows then lead from the point of a character to
that position.

* `Position.along`, `textPositions`: the positions of the characters of a text, and of several;
* `LaidOut`: texts that stand one after the other in the template;
* `Origins.anchor`, `Origins.place`: the origin from which a row is counted, and the position at
  which that leads;
* `locate_of_laidOut`: the point of a character leads to its position;
* `script_positions_faithful`: hoisted statements and script errors have the positions of the
  characters at which they begin.
-/

namespace Lowering

open Text (newline rowAfter columnAfter)

/-! ## Positions of characters -/

namespace Position

/-- The position after a character. -/
def next (p : Position) (c : CodePoint) : Position :=
  if c = newline then { p with line := p.line + 1, column := 1 }
  else { p with column := p.column + 1 }

/-- The position after a text. -/
def after (p : Position) (s : Text) : Position :=
  s.foldl next p

/-- The positions of the characters of a text that starts at a position. -/
def along (p : Position) : Text → List Position
  | [] => []
  | c :: rest => p :: (p.next c).along rest

theorem length_along (p : Position) (s : Text) : (p.along s).length = s.length := by
  induction s generalizing p with
  | nil => rfl
  | cons c rest ih => rw [along, List.length_cons, ih, List.length_cons]

theorem along_append_cons (p : Position) (u v : Text) (c : CodePoint) :
    (p.along (u ++ c :: v))[u.length]? = some (p.after u) := by
  induction u generalizing p with
  | nil => rfl
  | cons d rest ih => exact ih (p.next d)

theorem filename_after (p : Position) (s : Text) : (p.after s).filename = p.filename := by
  induction s generalizing p with
  | nil => rfl
  | cons c rest ih =>
    refine (ih (p.next c)).trans ?_
    unfold next
    split <;> rfl

theorem line_after (p : Position) (s : Text) :
    (p.after s).line = p.line + (s.count newline : Nat) := by
  induction s generalizing p with
  | nil => simp [after]
  | cons c rest ih =>
    have hstep : (p.after (c :: rest)).line = ((p.next c).after rest).line := rfl
    rw [hstep, ih, List.count_cons, next]
    split
    · rename_i h
      simp only [h, beq_self_eq_true, if_true]
      omega
    · rename_i h
      simp [h]

end Position

/-- The positions of the characters of several texts. -/
def textPositions (texts : List (Position × Text)) : List Position :=
  texts.flatMap fun t => t.1.along t.2

/-- A text that follows another one: it starts in the line in which the other one ends and, unless a
newline ends that one, in the column after it. -/
def Follows (first second : Position × Text) : Prop :=
  second.1.line = first.1.line + (first.2.count newline : Nat) ∧
    (first.2.getLast? ≠ some newline → second.1.column = (first.1.after first.2).column)

instance : DecidableRel Follows := fun first second => by
  unfold Follows
  infer_instance

/-- The texts that are not empty. -/
def solidTexts (texts : List (Position × Text)) : List (Position × Text) :=
  texts.filter fun t => !t.2.isEmpty

@[simp] theorem solidTexts_nil (position : Position) (rest : List (Position × Text)) :
    solidTexts ((position, []) :: rest) = solidTexts rest := rfl

@[simp] theorem solidTexts_cons (position : Position) (c : CodePoint) (s : Text)
    (rest : List (Position × Text)) :
    solidTexts ((position, c :: s) :: rest) = (position, c :: s) :: solidTexts rest := rfl

/-- The texts of a tag as they stand in the template. Empty ones do not count; the others have known
positions in the file of the tag and follow one another. A text that begins with a newline can be
the first one only on the line after the tag. -/
@[mk_iff] structure LaidOut (tag : Position) (texts : List (Position × Text)) : Prop where
  known : ∀ t ∈ solidTexts texts, t.1.isUnknown = false
  filename : ∀ t ∈ solidTexts texts, t.1.filename = tag.filename
  follows : (solidTexts texts).IsChain Follows
  first : ∀ t ∈ (solidTexts texts).head?, t.2.head? = some newline → t.1.line = tag.line + 1

instance (tag : Position) (texts : List (Position × Text)) : Decidable (LaidOut tag texts) :=
  decidable_of_iff _ (laidOut_iff tag texts).symm

/-! ## Anchors -/

namespace Origins

/-- The position to which an origin leads: in its own row columns count from the origin, in a later
row from the start of the line. -/
def place (origin : Nat × Position) (row column : Nat) : Position :=
  if origin.1 = row then { origin.2 with column := origin.2.column + column }
  else
    { line := origin.2.line + ((row : Int) - origin.1)
      column := (column : Int) + 1
      filename := origin.2.filename }

/-- The last of several origins, in the order of their rows, that is not below a row; `current` if
all are. -/
def anchor (current : Nat × Position) (row : Nat) : Origins → Nat × Position
  | [] => current
  | entry :: rest => if entry.1 ≤ row then anchor entry row rest else current

theorem anchor_of_lt {current : Nat × Position} {row : Nat} {entries : Origins}
    (h : ∀ entry ∈ entries, row < entry.1) : anchor current row entries = current := by
  cases entries with
  | nil => rfl
  | cons entry rest => exact if_neg (Nat.not_le.mpr (h entry List.mem_cons_self))

/-- Among origins in the order of their rows the anchor of a row is the one that is closest to it.
-/
theorem anchor_closest (current : Nat × Position) (row : Nat) {entries : Origins}
    (hsorted : entries.Pairwise fun a b => a.1 < b.1) :
    (anchor current row entries = current ∧ ∀ entry ∈ entries, row < entry.1) ∨
      anchor current row entries ∈ entries ∧ (anchor current row entries).1 ≤ row ∧
        ∀ entry ∈ entries, entry.1 ≤ row → entry.1 < (anchor current row entries).1 ∨
          entry = anchor current row entries := by
  induction entries generalizing current with
  | nil => exact .inl ⟨rfl, List.forall_mem_nil _⟩
  | cons entry rest ih =>
    obtain ⟨hfirst, hrest⟩ := List.pairwise_cons.mp hsorted
    by_cases hle : entry.1 ≤ row
    · right
      rw [anchor, if_pos hle]
      rcases ih entry hrest with ⟨heq, hlt⟩ | ⟨hmem, hrow, hclosest⟩
      · rw [heq]
        refine ⟨List.mem_cons_self, hle, ?_⟩
        intro other hother hrow
        rcases List.mem_cons.mp hother with rfl | hother
        · exact .inr rfl
        · exact absurd hrow (Nat.not_le.mpr (hlt other hother))
      · refine ⟨List.mem_cons_of_mem _ hmem, hrow, ?_⟩
        intro other hother hrow
        rcases List.mem_cons.mp hother with rfl | hother
        · exact .inl (hfirst _ hmem)
        · exact hclosest other hother hrow
    · left
      rw [anchor, if_neg hle]
      refine ⟨rfl, ?_⟩
      intro other hother
      rcases List.mem_cons.mp hother with rfl | hother
      · exact Nat.not_le.mp hle
      · exact Nat.lt_trans (Nat.not_le.mp hle) (hfirst other hother)

theorem highest_of_closest {entries : Origins} {entry : Nat × Position} (hmem : entry ∈ entries)
    (h : ∀ other ∈ entries, other.1 < entry.1 ∨ other = entry) :
    highest entries = some entry := by
  induction entries with
  | nil => cases hmem
  | cons first rest ih =>
    rw [List.forall_mem_cons] at h
    rw [highest]
    cases hrest : highest rest with
    | none =>
      rw [highest_eq_none_iff.mp hrest] at hmem
      rw [List.mem_singleton.mp hmem]
    | some other =>
      dsimp only
      by_cases hin : entry ∈ rest
      · obtain rfl : entry = other := by
          rw [ih hin h.2] at hrest
          exact Option.some.inj hrest
        split
        · rfl
        · rename_i hlt
          rw [h.1.resolve_left hlt]
      · obtain rfl := (List.mem_cons.mp hmem).resolve_right hin
        have hother : other.1 < entry.1 :=
          (h.2 other (mem_of_highest hrest)).resolve_right fun heq =>
            hin (heq ▸ mem_of_highest hrest)
        rw [if_neg (Nat.not_lt.mpr (Nat.le_of_lt hother))]

/-- The origin that is closest to a row leads to its positions. -/
theorem locate_of_closest {origins : Origins} {origin : Nat × Position} {row : Nat} (column : Nat)
    (hmem : origin ∈ origins) (hle : origin.1 ≤ row)
    (h : ∀ entry ∈ origins, entry.1 ≤ row → entry.1 < origin.1 ∨ entry = origin) :
    origins.locate row column = some (place origin row column) := by
  rw [locate, place]
  cases hfind : origins.find? fun entry => (entry.1 : Int) == row with
  | some entry =>
    have hfound := List.find?_some hfind
    have hrow : entry.1 = row := Int.ofNat_inj.mp (beq_iff_eq.mp hfound)
    have hentry := h entry (List.mem_of_find?_eq_some hfind) (Nat.le_of_eq hrow)
    obtain rfl : entry = origin := hentry.resolve_left (by omega)
    rw [if_pos hrow]
  | none =>
    have hne : origin.1 ≠ row := by
      rintro rfl
      exact List.find?_eq_none.mp hfind origin hmem (beq_self_eq_true _)
    have hhighest : highest (origins.filter fun entry => (entry.1 : Int) < row) = some origin := by
      apply highest_of_closest
      · rw [List.mem_filter]
        exact ⟨hmem, decide_eq_true (by omega)⟩
      · intro entry hentry
        rw [List.mem_filter, decide_eq_true_eq] at hentry
        exact h entry hentry.1 (by omega)
    rw [if_neg hne, hhighest]
    rfl

/-! ## The origins of texts, in the order of their rows -/

theorem atRowStart_append (before : Bool) (s t : Text) :
    atRowStart before (s ++ t) = atRowStart (atRowStart before s) t := by
  unfold atRowStart
  cases ht : t.getLast? with
  | none => rw [List.getLast?_eq_none_iff.mp ht, List.append_nil]
  | some p => rw [List.getLast?_append, ht, Option.some_or]

/-- At the start of a row after a text there is a newline in that text. -/
theorem count_pos_of_atRowStart {before : Bool} {s : Text} (hs : s ≠ [])
    (h : atRowStart before s = true) : 0 < s.count newline := by
  obtain ⟨front, p, rfl⟩ := (List.eq_nil_or_concat' s).resolve_left hs
  have hp : p = newline := by simpa [atRowStart] using h
  rw [hp, List.count_append, List.count_singleton_self]
  exact Nat.succ_pos _

theorem columnAfter_of_atRowStart {t : Text} (h : atRowStart true t = true) :
    t.columnAfter = 0 := by
  rcases List.eq_nil_or_concat' t with rfl | ⟨front, p, rfl⟩
  · rfl
  · have hp : p = newline := by simpa [atRowStart] using h
    rw [hp, Text.columnAfter_newline]

/-- Whether a text is the origin of its row. -/
def isOrigin (atStart : Bool) (t : Position × Text) : Bool :=
  atStart && startsRow t.2 && !t.1.isUnknown

theorem ofTextsFrom_cons (row : Nat) (atStart : Bool) (t : Position × Text)
    (rest : List (Position × Text)) :
    ofTextsFrom row atStart (t :: rest) =
      (if isOrigin atStart t then [(row, t.1)] else []) ++
        ofTextsFrom (row + t.2.count newline) (atRowStart atStart t.2) rest := by
  rw [ofTextsFrom, isOrigin]
  split <;> rfl

theorem ne_nil_of_isOrigin {atStart : Bool} {t : Position × Text}
    (h : isOrigin atStart t = true) : atStart = true ∧ t.2 ≠ [] := by
  simp only [isOrigin, Bool.and_eq_true] at h
  refine ⟨h.1.1, ?_⟩
  intro hnil
  rw [hnil] at h
  cases h.1.2

theorem row_le_of_mem {row : Nat} {atStart : Bool} {texts : List (Position × Text)}
    {entry : Nat × Position} (h : entry ∈ ofTextsFrom row atStart texts) :
    row ≤ entry.1 ∧ (atStart = false → row < entry.1) := by
  induction texts generalizing row atStart with
  | nil => cases h
  | cons t rest ih =>
    rw [ofTextsFrom_cons, List.mem_append] at h
    rcases h with h | h
    · split at h
      · rename_i horigin
        rw [List.mem_singleton.mp h]
        refine ⟨Nat.le_refl _, ?_⟩
        rw [(ne_nil_of_isOrigin horigin).1]
        rintro ⟨⟩
      · cases h
    · obtain ⟨hle, hlt⟩ := ih h
      refine ⟨Nat.le_trans (Nat.le_add_right _ _) hle, ?_⟩
      rintro rfl
      by_cases hs : t.2 = []
      · rw [hs] at hlt
        exact Nat.lt_of_le_of_lt (Nat.le_add_right _ _) (hlt rfl)
      · cases hstart : atRowStart false t.2 with
        | true =>
          have := count_pos_of_atRowStart hs hstart
          omega
        | false =>
          have := hlt hstart
          omega

/-- The rows of the origins grow. -/
theorem sorted_ofTextsFrom (row : Nat) (atStart : Bool) (texts : List (Position × Text)) :
    (ofTextsFrom row atStart texts).Pairwise fun a b => a.1 < b.1 := by
  induction texts generalizing row atStart with
  | nil => exact List.Pairwise.nil
  | cons t rest ih =>
    rw [ofTextsFrom_cons]
    split
    · rename_i horigin
      refine List.pairwise_cons.mpr ⟨?_, ih _ _⟩
      intro entry hentry
      obtain ⟨hle, hlt⟩ := row_le_of_mem hentry
      cases hnext : atRowStart atStart t.2 with
      | true =>
        have := count_pos_of_atRowStart (ne_nil_of_isOrigin horigin).2 hnext
        dsimp only
        omega
      | false =>
        have := hlt hnext
        dsimp only
        omega
    · exact ih _ _

/-- The origin of row zero if no text starts it: the line after the tag. -/
def belowTag (tag : Position) : Nat × Position :=
  (0, { line := tag.line + 1, column := 1, filename := tag.filename })

/-- Every point of a script is located from the anchor of its row. -/
theorem locate_ofTexts (texts : List (Position × Text)) (tag : Position) (row column : Nat) :
    (ofTexts texts tag).locate row column =
      some (place (anchor (belowTag tag) row (ofTextsFrom 0 true texts)) row column) := by
  have hsorted := sorted_ofTextsFrom 0 true texts
  unfold ofTexts
  dsimp only
  rcases anchor_closest (belowTag tag) row hsorted with
    ⟨heq, hlt⟩ | ⟨hmem, hle, hclosest⟩
  · have hnone : (ofTextsFrom 0 true texts).lookup 0 = none := by
      rw [List.lookup_eq_none_iff]
      intro entry hentry
      have := hlt entry hentry
      exact bne_iff_ne.mpr (by omega)
    rw [hnone, heq]
    refine locate_of_closest column (List.mem_append_right _ List.mem_cons_self) (Nat.zero_le _) ?_
    intro entry hentry hrow
    rcases List.mem_append.mp hentry with hentry | hentry
    · exact absurd hrow (Nat.not_le.mpr (hlt entry hentry))
    · exact .inr (List.mem_singleton.mp hentry)
  · split
    · exact locate_of_closest column hmem hle hclosest
    · rename_i hnone
      refine locate_of_closest column (List.mem_append_left _ hmem) hle ?_
      intro entry hentry hrow
      rcases List.mem_append.mp hentry with hentry | hentry
      · exact hclosest entry hentry hrow
      · have hpos := List.lookup_eq_none_iff.mp hnone _ hmem
        rw [List.mem_singleton.mp hentry]
        exact .inl (Nat.pos_of_ne_zero (Ne.symm (bne_iff_ne.mp hpos)))

/-! ## From row to row -/

/-- A character leads from one place of an origin to the next. -/
theorem next_place {origin : Nat × Position} {before : Text} (h : origin.1 ≤ before.rowAfter)
    (c : CodePoint) :
    (place origin before.rowAfter before.columnAfter).next c =
      place origin (rowAfter (before ++ [c])) (columnAfter (before ++ [c])) := by
  rw [Text.rowAfter_append]
  by_cases hc : c = newline
  · subst hc
    rw [Text.columnAfter_newline, List.count_singleton_self, Position.next, if_pos rfl]
    unfold place
    rw [if_neg (show origin.1 ≠ before.rowAfter + 1 by omega)]
    split
    · rename_i heq
      simp only [Position.mk.injEq, and_true]
      omega
    · simp only [Position.mk.injEq, and_true]
      omega
  · have hcount : [c].count newline = 0 := List.count_eq_zero.mpr (by simpa using Ne.symm hc)
    rw [Text.columnAfter_concat hc, hcount, Nat.add_zero, Position.next, if_neg hc]
    unfold place
    split
    · simp only [Position.mk.injEq, and_true, true_and]
      omega
    · simp only [Position.mk.injEq, and_true, true_and]
      omega

theorem after_place {origin : Nat × Position} {before : Text} (h : origin.1 ≤ before.rowAfter)
    (s : Text) :
    (place origin before.rowAfter before.columnAfter).after s =
      place origin (rowAfter (before ++ s)) (columnAfter (before ++ s)) := by
  induction s generalizing before with
  | nil => rw [List.append_nil, Position.after, List.foldl_nil]
  | cons c rest ih =>
    have hrow : origin.1 ≤ rowAfter (before ++ [c]) := by
      rw [Text.rowAfter_append]
      exact Nat.le_trans h (Nat.le_add_right _ _)
    rw [Position.after, List.foldl_cons, next_place h]
    exact (ih hrow).trans (by rw [List.append_assoc, List.singleton_append])

/-- Where a text may stand after what is in front of it, if that ends at the position `here`: in the
middle of a row it stands there, and a text that begins with a newline stands in that line. -/
structure Continues (before : Text) (here : Position) (t : Position × Text) : Prop where
  filename : t.1.filename = here.filename
  line : t.2.head? = some newline → t.1.line = here.line
  inside : atRowStart true before = false → t.1 = here

/-- The origin that counts in a text: the text itself if it starts a row. -/
def originOf (before : Text) (origin : Nat × Position) (t : Position × Text) : Nat × Position :=
  if isOrigin (atRowStart true before) t then (before.rowAfter, t.1) else origin

theorem originOf_le {before : Text} {origin : Nat × Position} (h : origin.1 ≤ before.rowAfter)
    (t : Position × Text) : (originOf before origin t).1 ≤ before.rowAfter := by
  unfold originOf
  split
  · exact Nat.le_refl _
  · exact h

/-- The origin that counts in a text leads to the positions of its characters. Only a newline with
which the text begins may stand elsewhere in its line. -/
theorem after_eq_place {before : Text} {origin : Nat × Position} {t : Position × Text}
    (horigin : origin.1 ≤ before.rowAfter) (hknown : t.1.isUnknown = false)
    (hcontinues : Continues before (place origin before.rowAfter before.columnAfter) t)
    {u v : Text} (hsplit : t.2 = u ++ v) (hu : u ≠ [] ∨ v.head? ≠ some newline) (hv : t.2 ≠ []) :
    t.1.after u =
      place (originOf before origin t) (rowAfter (before ++ u)) (columnAfter (before ++ u)) := by
  by_cases hstart : isOrigin (atRowStart true before) t = true
  · have hzero := columnAfter_of_atRowStart (ne_nil_of_isOrigin hstart).1
    have hfirst : t.1 = place (before.rowAfter, t.1) before.rowAfter before.columnAfter := by
      rw [place, if_pos rfl, hzero]
      simp
    rw [originOf, if_pos hstart, ← after_place (Nat.le_refl _), ← hfirst]
  · rw [originOf, if_neg hstart, ← after_place horigin]
    cases hrow : atRowStart true before with
    | false => rw [hcontinues.inside hrow]
    | true =>
      -- the text starts a row without being its origin, so that a newline begins it
      obtain ⟨c, rest, hcons⟩ := List.exists_cons_of_ne_nil hv
      have hc : c = newline := by simpa [isOrigin, hrow, hknown, hcons, startsRow] using hstart
      subst hc
      cases u with
      | nil =>
        rw [List.nil_append] at hsplit
        rw [← hsplit, hcons] at hu
        exact absurd rfl (hu.resolve_left fun h => h rfl)
      | cons d more =>
        obtain rfl : newline = d := by
          rw [hcons, List.cons_append] at hsplit
          exact (List.cons.inj hsplit).1
        have hline := hcontinues.line (by rw [hcons]; rfl)
        have hfile := hcontinues.filename
        rw [Position.after, Position.after, List.foldl_cons, List.foldl_cons]
        congr 1
        simp only [Position.next, if_true, hline, hfile]

/-- A text that follows another one continues it. -/
theorem continues_of_follows {t next : Position × Text} (before : Text)
    (h : Follows t next) (hfile : next.1.filename = t.1.filename) :
    Continues (before ++ t.2) (t.1.after t.2) next := by
  have hline : next.1.line = (t.1.after t.2).line := h.1.trans (Position.line_after _ _).symm
  have hname : next.1.filename = (t.1.after t.2).filename :=
    hfile.trans (Position.filename_after _ _).symm
  refine ⟨hname, fun _ => hline, ?_⟩
  intro hinside
  have hlast : t.2.getLast? ≠ some newline := by
    intro hlast
    rw [atRowStart_append, atRowStart, hlast] at hinside
    cases hinside
  have hcolumn := h.2 hlast
  cases hn : next.1
  cases hp : t.1.after t.2
  simp only [hn, hp] at hline hname hcolumn
  rw [hline, hname, hcolumn]

theorem anchor_ofTextsFrom_cons {before : Text} {row : Nat} (origin : Nat × Position)
    (t : Position × Text) (rest : List (Position × Text)) (hrow : before.rowAfter ≤ row) :
    anchor origin row (ofTextsFrom before.rowAfter (atRowStart true before) (t :: rest)) =
      anchor (originOf before origin t) row
        (ofTextsFrom (rowAfter (before ++ t.2)) (atRowStart true (before ++ t.2)) rest) := by
  rw [ofTextsFrom_cons, originOf, Text.rowAfter_append, atRowStart_append]
  split
  · exact if_pos hrow
  · rfl

/-- Inside a text the origins of later texts do not count. -/
theorem anchor_inside {before u v : Text} {c : CodePoint} (origin : Nat × Position)
    (rest : List (Position × Text)) :
    anchor origin (rowAfter (before ++ u))
        (ofTextsFrom (rowAfter (before ++ (u ++ c :: v)))
          (atRowStart true (before ++ (u ++ c :: v))) rest) = origin := by
  apply anchor_of_lt
  intro entry hentry
  obtain ⟨hle, hlt⟩ := row_le_of_mem hentry
  rw [← List.append_assoc, Text.rowAfter_append] at hle
  rw [← List.append_assoc, Text.rowAfter_append, atRowStart_append] at hlt
  cases hstart : atRowStart (atRowStart true (before ++ u)) (c :: v) with
  | true =>
    have := count_pos_of_atRowStart (List.cons_ne_nil c v) hstart
    omega
  | false =>
    have := hlt hstart
    omega

/-- A character in the concatenation of two texts stands behind the first one or inside it. -/
theorem behind_or_inside {s rest u v : Text} {c : CodePoint} (h : s ++ rest = u ++ c :: v) :
    (∃ w, u = s ++ w ∧ rest = w ++ c :: v) ∨ ∃ w, s = u ++ c :: w := by
  rcases List.append_eq_append_iff.mp h with ⟨w, hu, hrest⟩ | ⟨w, hs, hrest⟩
  · exact .inl ⟨w, hu, hrest⟩
  · cases w with
    | nil => exact .inl ⟨[], by simpa using hs.symm, by simpa using hrest.symm⟩
    | cons d w =>
      obtain ⟨rfl, -⟩ := List.cons.inj hrest
      exact .inr ⟨w, hs⟩

/-- The anchors lead to the positions of the characters of texts that follow one another, whatever
stands in front of the first one. -/
theorem textPositions_eq_place {texts : List (Position × Text)} {file : Option Text}
    (hsolid : ∀ t ∈ texts, t.2 ≠ []) (hknown : ∀ t ∈ texts, t.1.isUnknown = false)
    (hfile : ∀ t ∈ texts, t.1.filename = file) (hfollows : texts.IsChain Follows)
    {before : Text} {origin : Nat × Position} (horigin : origin.1 ≤ before.rowAfter)
    (hfirst : ∀ t ∈ texts.head?,
      Continues before (place origin before.rowAfter before.columnAfter) t)
    {u v : Text} {c : CodePoint} (hsplit : (texts.map Prod.snd).flatten = u ++ c :: v)
    (hc : c ≠ newline) :
    (textPositions texts)[u.length]? =
      some (place (anchor origin (rowAfter (before ++ u))
          (ofTextsFrom before.rowAfter (atRowStart true before) texts))
        (rowAfter (before ++ u)) (columnAfter (before ++ u))) := by
  -- Along the texts, `before` is what was passed and `origin` the last origin in it.
  induction texts generalizing before origin u with
  | nil => simp at hsplit
  | cons t rest ih =>
    rw [List.forall_mem_cons] at hsolid hknown hfile
    have hcontinues := hfirst t rfl
    have hrow : before.rowAfter ≤ rowAfter (before ++ u) := by
      rw [Text.rowAfter_append]
      exact Nat.le_add_right _ _
    rw [anchor_ofTextsFrom_cons origin t rest hrow]
    rw [List.map_cons, List.flatten_cons] at hsplit
    rcases behind_or_inside hsplit with ⟨w, rfl, hrest⟩ | ⟨w, ht⟩
    · have hend : t.1.after t.2 = place (originOf before origin t) (rowAfter (before ++ t.2))
          (columnAfter (before ++ t.2)) :=
        after_eq_place horigin hknown.1 hcontinues (List.append_nil t.2).symm (.inl hsolid.1)
          hsolid.1
      have hnext : ∀ next ∈ rest.head?, Continues (before ++ t.2)
          (place (originOf before origin t) (rowAfter (before ++ t.2))
            (columnAfter (before ++ t.2))) next := by
        intro next hnext
        rw [← hend]
        have hname := hfile.2 next (List.mem_of_mem_head? hnext)
        exact continues_of_follows before (hfollows.rel_head? hnext)
          (hname.trans hfile.1.symm)
      have hle : (originOf before origin t).1 ≤ rowAfter (before ++ t.2) := by
        rw [Text.rowAfter_append]
        exact Nat.le_trans (originOf_le horigin t) (Nat.le_add_right _ _)
      have hlater := ih hsolid.2 hknown.2 hfile.2 hfollows.tail hle hnext hrest
      rw [List.append_assoc] at hlater
      rw [← hlater, textPositions, List.flatMap_cons, List.length_append,
        List.getElem?_append_right (by rw [Position.length_along]; exact Nat.le_add_right _ _),
        Position.length_along, Nat.add_sub_cancel_left]
      rfl
    · have hhere : t.1.after u = place (originOf before origin t) (rowAfter (before ++ u))
          (columnAfter (before ++ u)) :=
        after_eq_place horigin hknown.1 hcontinues ht (.inr (by simpa using hc)) hsolid.1
      have hlt : u.length < (t.1.along t.2).length := by
        rw [Position.length_along, ht, List.length_append, List.length_cons]
        omega
      rw [textPositions, List.flatMap_cons, List.getElem?_append_left hlt]
      rw [ht, anchor_inside, Position.along_append_cons, hhere]

/-- Empty texts start no row. -/
theorem ofTextsFrom_solidTexts (row : Nat) (atStart : Bool) (texts : List (Position × Text)) :
    ofTextsFrom row atStart (solidTexts texts) = ofTextsFrom row atStart texts := by
  induction texts generalizing row atStart with
  | nil => rfl
  | cons t rest ih =>
    obtain ⟨position, s⟩ := t
    cases s with
    | nil => simpa [ofTextsFrom, startsRow, atRowStart] using ih row atStart
    | cons c more => rw [solidTexts_cons, ofTextsFrom_cons, ofTextsFrom_cons, ih]

end Origins

/-! ## Scripts -/

/-- What is collected from texts does not depend on the empty ones if they add nothing to it. -/
theorem flatMap_solidTexts {α : Type} {f : Position × Text → List α}
    (h : ∀ position, f (position, []) = []) (texts : List (Position × Text)) :
    (solidTexts texts).flatMap f = texts.flatMap f := by
  induction texts with
  | nil => rfl
  | cons t rest ih =>
    obtain ⟨position, s⟩ := t
    cases s with
    | nil => rw [solidTexts_nil, List.flatMap_cons, h, List.nil_append, ih]
    | cons c more => rw [solidTexts_cons, List.flatMap_cons, List.flatMap_cons, ih]

/-- The point of a character leads to its position in the template. -/
theorem locate_of_laidOut {tag : Position} {texts : List (Position × Text)}
    (h : LaidOut tag texts) {i : Nat} {c : CodePoint}
    (hi : (texts.map Prod.snd).flatten[i]? = some c) (hc : c ≠ newline) :
    (Origins.ofTexts texts tag).locate (rowAfter ((texts.map Prod.snd).flatten.take i))
        (columnAfter ((texts.map Prod.snd).flatten.take i)) = (textPositions texts)[i]? := by
  have hsolid : ∀ t ∈ solidTexts texts, t.2 ≠ [] := by
    intro t ht
    simpa using (List.mem_filter.mp ht).2
  have hsource : ((solidTexts texts).map Prod.snd).flatten = (texts.map Prod.snd).flatten := by
    rw [← List.flatMap_def, ← List.flatMap_def]
    exact flatMap_solidTexts (fun _ => rfl) texts
  have hpositions : textPositions (solidTexts texts) = textPositions texts :=
    flatMap_solidTexts (fun _ => rfl) texts
  obtain ⟨hlt, hget⟩ := List.getElem?_eq_some_iff.mp hi
  have hsplit : ((solidTexts texts).map Prod.snd).flatten =
      (texts.map Prod.snd).flatten.take i ++ c :: (texts.map Prod.snd).flatten.drop (i + 1) := by
    rw [hsource, ← hget, ← List.drop_eq_getElem_cons, List.take_append_drop]
  -- In front of the first text stands nothing but the tag.
  have hfirst : ∀ t ∈ (solidTexts texts).head?, Origins.Continues []
      (Origins.place (Origins.belowTag tag) (rowAfter []) (columnAfter [])) t := by
    intro t ht
    refine ⟨h.filename t (List.mem_of_mem_head? ht), h.first t ht, ?_⟩
    rintro ⟨⟩
  have hplace := Origins.textPositions_eq_place hsolid h.known h.filename h.follows (Nat.le_refl _)
    hfirst hsplit hc
  rw [hpositions, List.length_take_of_le (Nat.le_of_lt hlt)] at hplace
  rw [hplace, Origins.locate_ofTexts, List.nil_append]
  exact congrArg (fun origins => some (Origins.place (Origins.anchor _ _ origins) _ _))
    (Origins.ofTextsFrom_solidTexts 0 true texts).symm

/-- A position that is true to a point of texts: if the point is that of a character other than a
newline, it is the position of that character. -/
def TrueTo (texts : List (Position × Text)) (row column : Int) (position : Position) : Prop :=
  ∀ (i : Nat) (c : CodePoint), (texts.map Prod.snd).flatten[i]? = some c → c ≠ newline →
    row = rowAfter ((texts.map Prod.snd).flatten.take i) →
      column = columnAfter ((texts.map Prod.snd).flatten.take i) →
        (textPositions texts)[i]? = some position

theorem scriptPosition_trueTo {mark : Mark} {body : Option Block}
    (h : LaidOut mark.position (bodyTexts body)) (row column : Int) :
    TrueTo (bodyTexts body) row column (scriptPosition mark body row column) := by
  rw [bodyTexts_eq_directTexts] at h ⊢
  rintro i c hi hc rfl rfl
  rw [← locate_of_laidOut h hi hc]
  exact locate_of_nonneg mark body (Int.natCast_nonneg _)

section Tags

variable {config : Config} {grammar : Grammar} {mark : Mark} {t : Tag} {body : Option Block}
  (hscript : t.HoldsScript config) (hprimary : t.dialect config = config.primaryDialect)
  (hblank : Text.isBlankText (scriptSource body) = false)
include hscript hprimary hblank

theorem hoist_of_statements (herror : (scriptTree config grammar body).hasError = false) :
    (Node.tag mark t body).hoist config grammar =
      (scriptTree config grammar body).statements.map (statementOutput mark body) := by
  rw [Node.hoist, if_pos hscript, if_pos hprimary]
  refine if_neg ?_
  rintro (h | h)
  · rw [hblank] at h
    cases h
  · exact absurd h (by simpa [scriptTree] using herror)

theorem diagnostics_of_hasError (mark : Mark)
    (herror : (scriptTree config grammar body).hasError = true)
    (hread : Readable (scriptSource body) (scriptTree config grammar body)) :
    Event.diagnostics ((Node.tag mark t body).events (.standard config grammar.reader) true) =
      (if hasMarkup body then [Problem.scriptWithMarkup.diagnosticAt mark.position] else []) ++
        [(Problem.invalidScript config.language).diagnosticAt (scriptPosition mark body
          ((scriptTree config grammar body).errorPoint (scriptSource body)).1
          ((scriptTree config grammar body).errorPoint (scriptSource body)).2)] := by
  obtain ⟨hs, hp⟩ := (holdsScript_iff mark body).mp hscript
  rw [Node.events_script_primary hs hp hprimary, Event.diagnostics_append,
    Event.diagnostics_append, diagnostics_lowerScriptText_of_readable hread,
    if_pos (And.intro hblank herror), apply_ite Event.diagnostics]
  exact List.append_nil _

end Tags

/-- In texts that are laid out as they stand in the template, the point of every character but a
newline is located at the position of that character. So the statements that a script tag adds to
the module have true positions, and so does the error with which a broken script is refused. -/
theorem script_positions_faithful (config : Config) (grammar : Grammar) :
    (∀ (tag : Position) (texts : List (Position × Text)), LaidOut tag texts →
      ∀ (i : Nat) (c : CodePoint), (texts.map Prod.snd).flatten[i]? = some c → c ≠ newline →
        ∃ position, (textPositions texts)[i]? = some position ∧
          (Origins.ofTexts texts tag).locate (rowAfter ((texts.map Prod.snd).flatten.take i))
            (columnAfter ((texts.map Prod.snd).flatten.take i)) = some position) ∧
      ∀ (root : Node) (report : Report) (left right : List Node) (mark : Mark) (t : Tag)
        (body : Option Block),
        (lowerDocument (.standard config grammar.reader) root).2 = .ok report →
        root.topLevel = left ++ .tag mark t body :: right →
        t.HoldsScript config → t.dialect config = config.primaryDialect →
        Text.isBlankText (scriptSource body) = false →
        LaidOut mark.position (bodyTexts body) →
        let tree := grammar config.language (scriptSource body)
        (tree.hasError = false →
          report.statements = left.flatMap (Node.hoist config grammar) ++
            tree.statements.map (statementOutput mark body) ++
            right.flatMap (Node.hoist config grammar) ∧
          ∀ n ∈ tree.statements, TrueTo (bodyTexts body) n.row (n.column (scriptSource body))
            (statementOutput mark body n).location) ∧
        (tree.hasError = true → ∃ before after position,
          report.diagnostics =
            before ++ (Problem.invalidScript config.language).diagnosticAt position :: after ∧
          before = Event.diagnostics
            (left.flatMap (Node.events (.standard config grammar.reader) true)) ++
              (if hasMarkup body then [Problem.scriptWithMarkup.diagnosticAt mark.position]
                else []) ∧
          after = Event.diagnostics
            (right.flatMap (Node.events (.standard config grammar.reader) true)) ∧
          TrueTo (bodyTexts body) (tree.errorPoint (scriptSource body)).1
            (tree.errorPoint (scriptSource body)).2 position) := by
  constructor
  · intro tag texts hlaid i c hi hc
    have hlocate := locate_of_laidOut hlaid hi hc
    rw [Origins.locate_ofTexts] at hlocate
    exact ⟨_, hlocate.symm, Origins.locate_ofTexts _ _ _ _⟩
  · intro root report left right mark t body hok hroot hscript hprimary hblank hlaid
    obtain ⟨hread, rfl⟩ := (lowerDocument_eq_ok_iff_readable config grammar).mp hok
    constructor
    · intro herror
      refine ⟨?_, fun n _ => scriptPosition_trueTo hlaid _ _⟩
      rw [documentReport, documentHoisted_eq hread, hroot, List.flatMap_append, List.flatMap_cons,
        hoist_of_statements hscript hprimary hblank herror, List.append_assoc]
      rfl
    · intro herror
      obtain ⟨hs, hp⟩ := (holdsScript_iff mark body).mp hscript
      have hsource : Readable (scriptSource body) (scriptTree config grammar body) := by
        refine hread _ (List.mem_filterMap.mpr ⟨.tag mark t body, ?_, ?_⟩)
        · rw [hroot]
          exact List.mem_append_right _ List.mem_cons_self
        · exact if_pos ⟨hs, hp, hprimary⟩
      refine ⟨_, _, _, ?_, rfl, rfl, scriptPosition_trueTo hlaid _ _⟩
      have hdiagnosed := diagnostics_of_hasError hscript hprimary hblank mark herror hsource
      cases root with
      | block b =>
        rw [Node.topLevel] at hroot
        rw [documentReport, documentEvents, hroot, List.flatMap_append, List.flatMap_cons,
          Event.diagnostics_append, Event.diagnostics_append, hdiagnosed]
        simp [scriptTree]
      | _ => simp [Node.topLevel] at hroot

/-- The body of an indented script: a row of two texts, rows that start inside a text, and a row
with an indentation of its own. -/
def indentedBody : Block :=
  .mk {} [.text {} "",
    .text { line := some 4, column := some 5 } "let a",
    .text { line := some 4, column := some 10 } " = 1;\n\n  b",
    .text { line := some 6, column := some 4 } "();\n",
    .text { line := some 7, column := some 9 } "c"]

/-- The script tag around `indentedBody`. -/
def indentedScript : Node :=
  .tag { line := some 3, column := some 1 } { name := "script" } (some indentedBody)

/-- The tree of `indentedBody`: its three statements, the last of which may be an error. -/
def indentedTree (broken : Bool) : Syntax :=
  { hasError := broken
    stop := 20
    children :=
      [{ kind := "lexical_declaration", stop := 10 },
        { kind := "expression_statement", start := 14, stop := 18, row := 2 },
        { kind := "expression_statement", isError := broken, start := 19, stop := 20, row := 3 }] }

/-- The texts of `indentedBody` are laid out as they stand in the template. So its statements have
the positions of their first characters, of which the second one starts inside a text, and an error
in its last row has the position of the text of that row. -/
theorem script_positions_indentedScript :
    LaidOut { line := 3, column := 1 } (bodyTexts indentedBody) ∧
      (∃ report, (lowerDocument (.standard {} (Grammar.reader fun _ _ => indentedTree false))
          (.block (.mk {} [indentedScript]))).2 = .ok report ∧
        report.statements.map Output.location =
          [{ line := 4, column := 5 }, { line := 6, column := 3 }, { line := 7, column := 9 }] ∧
        ∀ n ∈ (indentedTree false).statements, TrueTo (bodyTexts indentedBody) n.row
          (n.column (scriptSource indentedBody))
          (statementOutput { line := some 3, column := some 1 } indentedBody n).location) ∧
      (∃ report, (lowerDocument (.standard {} (Grammar.reader fun _ _ => indentedTree true))
          (.block (.mk {} [indentedScript]))).2 = .ok report ∧
        ∃ position, report.diagnostics =
            [(Problem.invalidScript (Config.language {})).diagnosticAt position] ∧
          TrueTo (bodyTexts indentedBody) 3 0 position) ∧
      (textPositions (bodyTexts indentedBody))[14]? = some { line := 6, column := 3 } ∧
      (textPositions (bodyTexts indentedBody))[19]? = some { line := 7, column := 9 } := by
  have hlaid : LaidOut { line := 3, column := 1 } (bodyTexts indentedBody) := by decide +kernel
  have hscript : Tag.HoldsScript {} { name := "script" } := by decide +kernel
  have hprimary : Tag.dialect {} { name := "script" } = Config.primaryDialect {} := by
    decide +kernel
  have hblank : Text.isBlankText (scriptSource indentedBody) = false := by decide +kernel
  have hpoint : (indentedTree true).errorPoint (scriptSource indentedBody) = (3, 0) := by
    decide +kernel
  have hok (broken : Bool) :
      (lowerDocument (.standard {} (Grammar.reader fun _ _ => indentedTree broken))
        (.block (.mk {} [indentedScript]))).2 =
      .ok (documentReport (.standard {} (Grammar.reader fun _ _ => indentedTree broken))
        (.block (.mk {} [indentedScript]))) := by
    refine (lowerDocument_eq_ok_iff _ _).mpr ⟨?_, rfl⟩
    revert broken
    decide +kernel
  refine ⟨hlaid, ⟨_, hok false, by decide +kernel, ?_⟩, ⟨_, hok true, ?_⟩, by decide +kernel,
    by decide +kernel⟩
  · have h := (script_positions_faithful {} fun _ _ => indentedTree false).2
      _ _ [] [] _ _ _ (hok false) rfl hscript hprimary hblank hlaid
    exact (h.1 rfl).2
  · have h := (script_positions_faithful {} fun _ _ => indentedTree true).2
      _ _ [] [] _ _ _ (hok true) rfl hscript hprimary hblank hlaid
    obtain ⟨before, after, position, hdiagnostics, rfl, rfl, htrue⟩ := h.2 rfl
    rw [hpoint] at htrue
    exact ⟨position, hdiagnostics, htrue⟩

end Lowering
