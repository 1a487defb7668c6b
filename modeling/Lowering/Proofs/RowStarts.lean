import Lowering.Proofs.Layout

/-!
# The texts that start rows

The origins of a script's rows are the positions of the texts that start them. Which texts these are
can be told from the texts alone: what is in front of such a text is empty or ends with a newline,
and its newlines are the rows before.

* `Origins.StartsRow`: a text that starts a row;
* `Origins.StartsRow.unique`: no row is started by two texts;
* `Origins.ofTexts_maps_row_starts`: the origins are the positions of these texts, and the line after
  the tag if none of them starts row zero; every row from zero on is located by them.
-/

namespace Lowering

open Text (newline)

namespace Origins

/-! ## Texts in front of a text -/

/-- Several texts as one. -/
def joined (texts : List (Position × Text)) : Text :=
  (texts.map Prod.snd).flatten

@[simp] theorem joined_nil : joined [] = [] := rfl

@[simp] theorem joined_cons (t : Position × Text) (rest : List (Position × Text)) :
    joined (t :: rest) = t.2 ++ joined rest := rfl

theorem joined_append (xs ys : List (Position × Text)) :
    joined (xs ++ ys) = joined xs ++ joined ys := by
  simp [joined]

/-- The text of an index starts a row: its position is known and it puts a character on the row,
which begins where the texts in front of it end. -/
structure StartsRow (texts : List (Position × Text)) (index : Nat) (t : Position × Text)
    (row : Nat) : Prop where
  mem : texts[index]? = some t
  known : t.1.isUnknown = false
  nonempty : t.2 ≠ []
  visible : t.2.head? ≠ some newline
  atStart : joined (texts.take index) = [] ∨ (joined (texts.take index)).getLast? = some newline
  row : (joined (texts.take index)).count newline = row

theorem atRowStart_true_iff {s : Text} :
    atRowStart true s = true ↔ s = [] ∨ s.getLast? = some newline := by
  unfold atRowStart
  cases h : s.getLast? with
  | none => simp [List.getLast?_eq_none_iff.mp h]
  | some p =>
    have hne : s ≠ [] := by
      rintro rfl
      cases h
    simp [hne, newline]

theorem startsRow_eq_true_iff {s : Text} :
    startsRow s = true ↔ s ≠ [] ∧ s.head? ≠ some newline := by
  cases s with
  | nil => simp [startsRow]
  | cons p rest => simp [startsRow, newline]

theorem startsRow_iff {texts : List (Position × Text)} {index : Nat} {t : Position × Text}
    {row : Nat} :
    StartsRow texts index t row ↔
      texts[index]? = some t ∧ isOrigin (atRowStart true (joined (texts.take index))) t = true ∧
        (joined (texts.take index)).count newline = row := by
  simp only [isOrigin, Bool.and_eq_true, atRowStart_true_iff, startsRow_eq_true_iff,
    Bool.not_eq_true']
  constructor
  · rintro ⟨hmem, hknown, hne, hvisible, hstart, hrow⟩
    exact ⟨hmem, ⟨⟨hstart, hne, hvisible⟩, hknown⟩, hrow⟩
  · rintro ⟨hmem, ⟨⟨hstart, hne, hvisible⟩, hknown⟩, hrow⟩
    exact ⟨hmem, hknown, hne, hvisible, hstart, hrow⟩

/-- After a text that starts a row the next row starts further on: what lies between them is not
empty and ends with a newline. -/
theorem StartsRow.row_lt {texts : List (Position × Text)} {i j : Nat} {t u : Position × Text}
    {r s : Nat} (ht : StartsRow texts i t r) (hu : StartsRow texts j u s) (hij : i < j) : r < s := by
  have hsplit : texts.take j = texts.take i ++ (t :: (texts.take j).drop (i + 1)) := by
    have htake : (texts.take j).take i = texts.take i := by
      rw [List.take_take, Nat.min_eq_left (Nat.le_of_lt hij)]
    have hget : (texts.take j)[i]? = some t := by rw [List.getElem?_take_of_lt hij, ht.mem]
    obtain ⟨hi, hval⟩ := List.getElem?_eq_some_iff.mp hget
    rw [← hval, ← List.drop_eq_getElem_cons hi, ← htake, List.take_append_drop]
  have hbetween : joined (t :: (texts.take j).drop (i + 1)) ≠ [] := by
    simp [ht.nonempty]
  have hstart := atRowStart_true_iff.mpr hu.atStart
  have hrow := hu.row
  rw [hsplit, joined_append, atRowStart_append] at hstart
  rw [hsplit, joined_append, List.count_append, ht.row] at hrow
  have := count_pos_of_atRowStart hbetween hstart
  omega

/-- No row is started by two texts. -/
theorem StartsRow.unique {texts : List (Position × Text)} {i j : Nat} {t u : Position × Text}
    {row : Nat} (ht : StartsRow texts i t row) (hu : StartsRow texts j u row) : i = j := by
  rcases Nat.lt_trichotomy i j with h | h | h
  · exact absurd (ht.row_lt hu h) (Nat.lt_irrefl _)
  · exact h
  · exact absurd (hu.row_lt ht h) (Nat.lt_irrefl _)

/-! ## Origins as entries -/

theorem mem_ofTextsFrom_iff {texts : List (Position × Text)} {row r : Nat} {atStart : Bool}
    {p : Position} :
    (r, p) ∈ ofTextsFrom row atStart texts ↔
      ∃ index t, texts[index]? = some t ∧ t.1 = p ∧
        isOrigin (atRowStart atStart (joined (texts.take index))) t = true ∧
          row + (joined (texts.take index)).count newline = r := by
  induction texts generalizing row atStart with
  | nil => simp [ofTextsFrom]
  | cons t rest ih =>
    rw [ofTextsFrom_cons, List.mem_append, ih]
    -- The first text has index zero and nothing in front of it; every other one has the first text
    -- in front of it, which the row and the flag of the recursion account for.
    refine Iff.trans (or_congr ?_ ?_) Nat.or_exists_add_one
    · constructor
      · intro hmem
        split at hmem
        · rename_i horigin
          cases List.mem_singleton.mp hmem
          exact ⟨t, rfl, rfl, horigin, rfl⟩
        · cases hmem
      · rintro ⟨u, hu, rfl, horigin, rfl⟩
        cases hu
        have hfirst : isOrigin atStart t = true := horigin
        rw [if_pos hfirst]
        exact List.mem_singleton.mpr rfl
    · simp only [List.getElem?_cons_succ, List.take_succ_cons, joined_cons, atRowStart_append,
        List.count_append, Nat.add_assoc]

theorem mem_ofTextsFrom_zero_iff {texts : List (Position × Text)} {row : Nat} {p : Position} :
    (row, p) ∈ ofTextsFrom 0 true texts ↔ ∃ index t, StartsRow texts index t row ∧ t.1 = p := by
  simp only [mem_ofTextsFrom_iff, Nat.zero_add, startsRow_iff]
  constructor
  · rintro ⟨index, t, hmem, hp, horigin, hrow⟩
    exact ⟨index, t, ⟨hmem, horigin, hrow⟩, hp⟩
  · rintro ⟨index, t, ⟨hmem, horigin, hrow⟩, hp⟩
    exact ⟨index, t, hmem, hp, horigin, hrow⟩

/-- Among entries with different rows, looking a row up finds its entry. -/
theorem lookup_eq_some_iff_mem {entries : Origins} (h : entries.Pairwise fun a b => a.1 ≠ b.1)
    {row : Nat} {p : Position} : entries.lookup row = some p ↔ (row, p) ∈ entries := by
  constructor
  · intro hfound
    obtain ⟨before, after, rfl, -⟩ := List.lookup_eq_some_iff.mp hfound
    simp
  · intro hmem
    obtain ⟨before, after, rfl⟩ := List.append_of_mem hmem
    obtain ⟨-, -, hbefore⟩ := List.pairwise_append.mp h
    refine List.lookup_eq_some_iff.mpr ⟨before, after, rfl, ?_⟩
    intro entry hentry
    exact bne_iff_ne.mpr (Ne.symm (hbefore entry hentry (row, p) List.mem_cons_self))

theorem mem_ofTexts_iff {texts : List (Position × Text)} {tag : Position} {entry : Nat × Position} :
    entry ∈ ofTexts texts tag ↔ entry ∈ ofTextsFrom 0 true texts ∨
      (∀ p, (0, p) ∉ ofTextsFrom 0 true texts) ∧ entry = belowTag tag := by
  unfold ofTexts
  dsimp only
  cases h : (ofTextsFrom 0 true texts).lookup 0 with
  | some position =>
    obtain ⟨before, after, heq, -⟩ := List.lookup_eq_some_iff.mp h
    have hmem : (0, position) ∈ ofTextsFrom 0 true texts := by rw [heq]; simp
    constructor
    · exact .inl
    · rintro (hentry | ⟨hno, -⟩)
      · exact hentry
      · exact absurd hmem (hno position)
  | none =>
    have hno : ∀ p, (0, p) ∉ ofTextsFrom 0 true texts := fun p hp =>
      absurd (List.lookup_eq_none_iff.mp h _ hp) (by simp)
    simp [hno, belowTag]

/-- No row has two origins. -/
theorem pairwise_ofTexts (texts : List (Position × Text)) (tag : Position) :
    (ofTexts texts tag).Pairwise fun a b => a.1 ≠ b.1 := by
  have hsorted : (ofTextsFrom 0 true texts).Pairwise fun a b => a.1 ≠ b.1 :=
    (sorted_ofTextsFrom 0 true texts).imp fun h => Nat.ne_of_lt h
  unfold ofTexts
  dsimp only
  cases h : (ofTextsFrom 0 true texts).lookup 0 with
  | some position => exact hsorted
  | none =>
    refine List.pairwise_append.mpr ⟨hsorted, List.pairwise_singleton _ _, ?_⟩
    intro entry hentry zero hzero
    rw [List.mem_singleton.mp hzero]
    exact Ne.symm (bne_iff_ne.mp (List.lookup_eq_none_iff.mp h entry hentry))

theorem lookup_ofTexts_iff {texts : List (Position × Text)} {tag : Position} {row : Nat}
    {p : Position} :
    (ofTexts texts tag).lookup row = some p ↔
      (∃ index t, StartsRow texts index t row ∧ t.1 = p) ∨
        (∀ index t, ¬StartsRow texts index t 0) ∧ row = 0 ∧ p = (belowTag tag).2 := by
  rw [lookup_eq_some_iff_mem (pairwise_ofTexts texts tag), mem_ofTexts_iff]
  apply or_congr mem_ofTextsFrom_zero_iff
  apply and_congr
  · simp only [mem_ofTextsFrom_zero_iff]
    constructor
    · exact fun h index t ht => h t.1 ⟨index, t, ht, rfl⟩
    · rintro h p ⟨index, t, ht, -⟩
      exact h index t ht
  · exact Prod.ext_iff

/-- The rows that have an origin: those that a text starts, and row zero. -/
theorem exists_lookup_ofTexts_iff {texts : List (Position × Text)} {tag : Position} {row : Nat} :
    (∃ p, (ofTexts texts tag).lookup row = some p) ↔
      row = 0 ∨ ∃ index t, StartsRow texts index t row := by
  simp only [lookup_ofTexts_iff]
  constructor
  · rintro ⟨p, ⟨index, t, ht, -⟩ | ⟨-, hrow, -⟩⟩
    · exact .inr ⟨index, t, ht⟩
    · exact .inl hrow
  · rintro (rfl | ⟨index, t, ht⟩)
    · by_cases h : ∃ index t, StartsRow texts index t 0
      · obtain ⟨index, t, ht⟩ := h
        exact ⟨t.1, .inl ⟨index, t, ht, rfl⟩⟩
      · exact ⟨_, .inr ⟨fun index t ht => h ⟨index, t, ht⟩, rfl, rfl⟩⟩
    · exact ⟨t.1, .inl ⟨index, t, ht, rfl⟩⟩

end Origins

/-- A row has the position of a text as its origin exactly if that text starts the row; row zero has
the line after the tag if no text starts it, and no other row has an origin. No row is started by two
texts, so that no origin is lost to another one. Hence just the rows from zero on are located, in
whatever column. -/
theorem Origins.ofTexts_maps_row_starts (texts : List (Position × Text)) (tag : Position) :
    (∀ row p, (ofTexts texts tag).lookup row = some p ↔
      (∃ index t, StartsRow texts index t row ∧ t.1 = p) ∨
        (∀ index t, ¬StartsRow texts index t 0) ∧ row = 0 ∧
          p = { line := tag.line + 1, column := 1, filename := tag.filename }) ∧
    (∀ row i j t u, StartsRow texts i t row → StartsRow texts j u row → i = j) ∧
    ((ofTexts texts tag).Pairwise fun a b => a.1 ≠ b.1) ∧
    (∀ row, (∃ p, (ofTexts texts tag).lookup row = some p) ↔
      row = 0 ∨ ∃ index t, StartsRow texts index t row) ∧
    ∀ row column : Int, (∃ p, (ofTexts texts tag).locate row column = some p) ↔ 0 ≤ row := by
  refine ⟨fun row p => lookup_ofTexts_iff, ?_, pairwise_ofTexts texts tag,
    fun row => exists_lookup_ofTexts_iff, ?_⟩
  · intro row i j t u ht hu
    exact ht.unique hu
  · intro row column
    rw [← Option.isSome_iff_exists, isSome_locate_iff]

/-- Two lines of a script in three texts: an empty text in front, and the second line in two parts.
-/
def threeTexts : List (Position × Text) :=
  [({ line := 3, column := 9 }, ""), ({ line := 3, column := 5 }, "let x;\n"),
    ({ line := 4, column := 7 }, "x"), ({ line := 4, column := 8 }, "++;")]

/-- Row one starts with the third text, at whose position it has its origin. -/
theorem Origins.ofTexts_maps_threeTexts :
    StartsRow threeTexts 2 ({ line := 4, column := 7 }, "x") 1 ∧
      (ofTexts threeTexts {}).lookup 1 = some { line := 4, column := 7 } ∧
      ∀ j u, StartsRow threeTexts j u 1 → 2 = j := by
  have hstarts : StartsRow threeTexts 2 ({ line := 4, column := 7 }, "x") 1 :=
    ⟨rfl, rfl, by decide, by decide, by decide, by decide⟩
  obtain ⟨hlookup, hunique, -⟩ := ofTexts_maps_row_starts threeTexts {}
  exact ⟨hstarts, (hlookup 1 _).mpr (.inl ⟨2, _, hstarts, rfl⟩),
    fun j u hu => hunique 1 2 j _ u hstarts hu⟩

end Lowering
