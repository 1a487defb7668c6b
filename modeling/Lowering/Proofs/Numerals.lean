import Lowering.Record.Integer

/-!
# Integers written as strings

A string stands for an integer if it is a numeral between white space. Besides the digits a numeral
may have a sign, zeros in front, single underscores between digits and a fraction of zeros; these
are taken away in an order that lets a few more spellings through, which the grammar here shows:
underscores anywhere among the zeros in front, and a minus sign after these.

* `IsNumeral`: the grammar of numerals;
* `isSome_tidy_iff`: what is left after tidying up is an integer exactly if it was a numeral;
* `exists_read_iff`: the strings that are read as integers.
-/

namespace Lowering

namespace Text

variable {α : Type} {p : α → Bool}

theorem trimList_split (p : α → Bool) (xs : List α) :
    ∃ left right, xs = left ++ trimList p xs ++ right ∧ (∀ x ∈ left, p x = true) ∧
      ∀ x ∈ right, p x = true := by
  have hfront : xs = xs.takeWhile p ++ xs.dropWhile p := List.takeWhile_append_dropWhile.symm
  have hback : (xs.dropWhile p).reverse =
      (xs.dropWhile p).reverse.takeWhile p ++ (xs.dropWhile p).reverse.dropWhile p :=
    List.takeWhile_append_dropWhile.symm
  have hrest : xs.dropWhile p =
      trimList p xs ++ ((xs.dropWhile p).reverse.takeWhile p).reverse := by
    rw [trimList, ← List.reverse_append, ← hback, List.reverse_reverse]
  refine ⟨xs.takeWhile p, ((xs.dropWhile p).reverse.takeWhile p).reverse, ?_, ?_, ?_⟩
  · rw [List.append_assoc, ← hrest]
    exact hfront
  · exact fun x hx => List.all_eq_true.mp List.all_takeWhile x hx
  · intro x hx
    exact List.all_eq_true.mp List.all_takeWhile x (List.mem_reverse.mp hx)

theorem dropWhile_append_of_all {left rest : List α} (h : ∀ x ∈ left, p x = true)
    (hrest : ∀ x ∈ rest.head?, p x = false) : (left ++ rest).dropWhile p = rest := by
  rw [List.dropWhile_append_of_pos h]
  cases rest with
  | nil => rfl
  | cons x rest => exact List.dropWhile_cons_of_neg (by simp [hrest x rfl])

/-- What stands between two elements outside a class is what trimming leaves. -/
theorem trimList_append {left xs right : List α} (hleft : ∀ x ∈ left, p x = true)
    (hright : ∀ x ∈ right, p x = true) (hne : xs ≠ []) (hhead : ∀ x ∈ xs.head?, p x = false)
    (hlast : ∀ x ∈ xs.getLast?, p x = false) : trimList p (left ++ xs ++ right) = xs := by
  have hfront : ∀ x ∈ (xs ++ right).head?, p x = false := by
    intro x hx
    refine hhead x ?_
    rwa [List.head?_append, Option.or_of_isSome (by simpa using hne)] at hx
  have hback : ∀ x ∈ xs.reverse.head?, p x = false := by
    intro x hx
    rw [List.head?_reverse] at hx
    exact hlast x hx
  rw [trimList, List.append_assoc, dropWhile_append_of_all hleft hfront, List.reverse_append,
    dropWhile_append_of_all (fun x hx => hright x (List.mem_reverse.mp hx)) hback,
    List.reverse_reverse]

theorem eq_map_char_of_chars? {t : Text} {cs : List Char} (h : t.chars? = some cs) :
    t = cs.map .char := by
  induction t generalizing cs with
  | nil =>
    cases h
    rfl
  | cons q rest ih =>
    cases q with
    | surrogate index => cases h
    | char c =>
      obtain ⟨cs', hrest, rfl⟩ := Option.map_eq_some_iff.mp h
      rw [ih hrest]
      rfl

end Text

namespace IntegerText

open Json (isDigit)

/-! ## The grammar -/

/-- Digits with single underscores between them. -/
inductive Grouped : List Char → Prop where
  | single {d : Char} (h : isDigit d = true) : Grouped [d]
  | next {d : Char} {ds : List Char} (h : isDigit d = true) (hs : Grouped ds) : Grouped (d :: ds)
  | spaced {d : Char} {ds : List Char} (h : isDigit d = true) (hs : Grouped ds) :
      Grouped (d :: '_' :: ds)

/-- Zeros in front of a numeral: a zero, and then zeros and underscores. -/
def IsPadding (zeros : List Char) : Prop :=
  ∃ rest, zeros = '0' :: rest ∧ ∀ c ∈ rest, c = '0' ∨ c = '_'

/-- Nothing, or a point and one or more zeros. -/
def IsFraction (cs : List Char) : Prop :=
  cs = [] ∨ ∃ zeros, cs = '.' :: zeros ∧ zeros ≠ [] ∧ ∀ c ∈ zeros, c = '0'

/-- The digits of a number other than zero, of which there are not too many. -/
def IsPositive (ds : List Char) : Prop :=
  Grouped ds ∧ ds.head? ≠ some '0' ∧ (ds.filter (· ≠ '_')).length ≤ maxDigits

/-- A numeral without a sign. -/
inductive IsUnsigned : List Char → Prop where
  | zero {zeros fraction : List Char} (h : IsPadding zeros) (hlast : zeros.getLast? = some '0')
      (hf : IsFraction fraction) : IsUnsigned (zeros ++ fraction)
  | plain {ds fraction : List Char} (h : IsPositive ds) (hf : IsFraction fraction) :
      IsUnsigned (ds ++ fraction)
  | padded {zeros ds fraction : List Char} (hz : IsPadding zeros) (h : IsPositive ds)
      (hf : IsFraction fraction) : IsUnsigned (zeros ++ (ds ++ fraction))

/-- A numeral with its minus sign after zeros; an underscore may follow the sign. -/
inductive IsLateSigned : List Char → Prop where
  | plain {zeros ds fraction : List Char} (hz : IsPadding zeros) (h : ds = ['0'] ∨ IsPositive ds)
      (hf : IsFraction fraction) : IsLateSigned (zeros ++ '-' :: (ds ++ fraction))
  | spaced {zeros ds fraction : List Char} (hz : IsPadding zeros) (h : ds = ['0'] ∨ IsPositive ds)
      (hf : IsFraction fraction) : IsLateSigned (zeros ++ '-' :: '_' :: (ds ++ fraction))

/-- A numeral. -/
inductive IsNumeral : List Char → Prop where
  | unsigned {cs : List Char} (h : IsUnsigned cs) : IsNumeral cs
  | plus {cs : List Char} (h : IsUnsigned cs) : IsNumeral ('+' :: cs)
  | minus {cs : List Char} (h : IsUnsigned cs) : IsNumeral ('-' :: cs)
  | late {cs : List Char} (h : IsLateSigned cs) : IsNumeral cs
  | plusLate {cs : List Char} (h : IsLateSigned cs) : IsNumeral ('+' :: cs)

/-! ## Underscores -/

theorem ne_underscore_of_isDigit {d : Char} (h : isDigit d = true) : d ≠ '_' := by
  rintro rfl
  cases h

theorem grouped_iff {cs : List Char} :
    Grouped cs ↔ cs ≠ [] ∧ (∀ c ∈ cs, isDigit c = true ∨ c = '_') ∧ cs.head? ≠ some '_' ∧
      cs.getLast? ≠ some '_' ∧ hasDouble cs = false := by
  constructor
  · intro h
    induction h with
    | single h =>
      have hne := ne_underscore_of_isDigit h
      simp [h, hne, hasDouble_cons, hasDouble]
    | @next d ds h hs ih =>
      obtain ⟨hnil, hall, hhead, hlast, hdouble⟩ := ih
      have hne := ne_underscore_of_isDigit h
      refine ⟨List.cons_ne_nil _ _, ?_, by simpa using hne, ?_, by simp [hasDouble_cons, hne, hdouble]⟩
      · exact List.forall_mem_cons.mpr ⟨.inl h, hall⟩
      · rwa [List.getLast?_cons_of_ne_nil hnil]
    | @spaced d ds h hs ih =>
      obtain ⟨hnil, hall, hhead, hlast, hdouble⟩ := ih
      have hne := ne_underscore_of_isDigit h
      refine ⟨List.cons_ne_nil _ _, ?_, by simpa using hne, ?_, ?_⟩
      · exact List.forall_mem_cons.mpr ⟨.inl h, List.forall_mem_cons.mpr ⟨.inr rfl, hall⟩⟩
      · rwa [List.getLast?_cons_of_ne_nil (List.cons_ne_nil _ _),
          List.getLast?_cons_of_ne_nil hnil]
      · simp [hasDouble_cons, hne, hdouble, hhead]
  · -- The first character is a digit; what follows is grouped once an underscore is taken away.
    induction hn : cs.length using Nat.strongRecOn generalizing cs with
    | ind n ih =>
      rintro ⟨hnil, hall, hhead, hlast, hdouble⟩
      match cs, hn with
      | [], _ => exact absurd rfl hnil
      | [d], _ =>
        have hd := hall d List.mem_cons_self
        exact .single (hd.resolve_right fun h => hhead (by rw [h]; rfl))
      | d :: e :: rest, hn =>
        have hd : isDigit d = true :=
          (hall d List.mem_cons_self).resolve_right fun h => hhead (by rw [h]; rfl)
        have hall' := (List.forall_mem_cons.mp hall).2
        rw [List.getLast?_cons_of_ne_nil (List.cons_ne_nil _ _)] at hlast
        have hdouble' : hasDouble (e :: rest) = false := by
          rw [hasDouble_cons, Bool.or_eq_false_iff] at hdouble
          exact hdouble.2
        by_cases he : e = '_'
        · subst he
          have hrest : rest ≠ [] := by
            rintro rfl
            exact hlast rfl
          rw [List.getLast?_cons_of_ne_nil hrest] at hlast
          rw [hasDouble_cons, Bool.or_eq_false_iff] at hdouble'
          refine .spaced hd (ih rest.length ?_ rfl ⟨hrest, (List.forall_mem_cons.mp hall').2, ?_,
            hlast, hdouble'.2⟩)
          · rw [← hn]
            simp only [List.length_cons]
            omega
          · simpa using hdouble'.1
        · refine .next hd (ih (e :: rest).length ?_ rfl ⟨List.cons_ne_nil _ _, hall', ?_, hlast,
            hdouble'⟩)
          · rw [← hn]
            simp only [List.length_cons]
            omega
          · simpa using he

theorem Grouped.mem_filter {ds : List Char} (h : Grouped ds) :
    ∀ c ∈ ds.filter (· ≠ '_'), isDigit c = true := by
  intro c hc
  obtain ⟨hmem, hne⟩ := List.mem_filter.mp hc
  exact ((grouped_iff.mp h).2.1 c hmem).resolve_right (by simpa using hne)

theorem Grouped.exists_filter {ds : List Char} (h : Grouped ds) :
    ∃ d rest, ds.filter (· ≠ '_') = d :: rest ∧ ds.head? = some d := by
  cases h with
  | single h => exact ⟨_, [], by simp [ne_underscore_of_isDigit h], rfl⟩
  | next h hs =>
    exact ⟨_, _, by rw [List.filter_cons_of_pos (by simp [ne_underscore_of_isDigit h])], rfl⟩
  | spaced h hs =>
    exact ⟨_, _, by rw [List.filter_cons_of_pos (by simp [ne_underscore_of_isDigit h])], rfl⟩

theorem Grouped.eq_of_filter {ds : List Char} {d : Char} (h : Grouped ds)
    (hd : ds.filter (· ≠ '_') = [d]) : ds = [d] := by
  cases h with
  | single h =>
    rw [List.filter_cons_of_pos (by simp [ne_underscore_of_isDigit h])] at hd
    exact hd
  | next h hs =>
    obtain ⟨e, rest, he, -⟩ := hs.exists_filter
    rw [List.filter_cons_of_pos (by simp [ne_underscore_of_isDigit h]), he] at hd
    simp at hd
  | spaced h hs =>
    obtain ⟨e, rest, he, -⟩ := hs.exists_filter
    rw [List.filter_cons_of_pos (by simp [ne_underscore_of_isDigit h]),
      List.filter_cons_of_neg (by simp), he] at hd
    simp at hd

theorem underscore_mem_of_hasDouble {cs : List Char} (h : hasDouble cs = true) : '_' ∈ cs := by
  induction cs with
  | nil => cases h
  | cons c rest ih =>
    rw [hasDouble_cons, Bool.or_eq_true, Bool.and_eq_true] at h
    rcases h with ⟨hc, -⟩ | h
    · rw [beq_iff_eq] at hc
      rw [hc]
      exact List.mem_cons_self
    · exact List.mem_cons_of_mem _ (ih h)

/-- Underscores that are not all single and inside. -/
def IsMisgrouped (cs : List Char) : Prop :=
  cs.head? = some '_' ∨ cs.getLast? = some '_' ∨ hasDouble cs = true

theorem IsMisgrouped.underscore_mem {cs : List Char} (h : IsMisgrouped cs) : '_' ∈ cs := by
  rcases h with h | h | h
  · exact List.mem_of_mem_head? h
  · exact List.mem_of_getLast? h
  · exact underscore_mem_of_hasDouble h

theorem dropUnderscores_of_misgrouped {cs : List Char} (h : IsMisgrouped cs) :
    dropUnderscores cs = cs :=
  if_pos h

theorem dropUnderscores_of_not_misgrouped {cs : List Char} (h : ¬IsMisgrouped cs) :
    dropUnderscores cs = cs.filter (· ≠ '_') :=
  if_neg h

theorem Grouped.not_misgrouped {ds : List Char} (h : Grouped ds) : ¬IsMisgrouped ds := by
  obtain ⟨-, -, hhead, hlast, hdouble⟩ := grouped_iff.mp h
  rintro (h | h | h)
  · exact hhead h
  · exact hlast h
  · rw [hdouble] at h
    cases h

/-! ## Digits -/

theorem isSome_natural?_iff {ds : List Char} :
    (natural? ds).isSome = true ↔ ds = ['0'] ∨
      (ds.head? ≠ some '0' ∧ ds ≠ [] ∧ (∀ c ∈ ds, isDigit c = true) ∧ ds.length ≤ maxDigits) := by
  unfold natural?
  split
  · simp
  · rename_i hne
    rw [← List.all_eq_true]
    split
    · rename_i h
      exact iff_of_true rfl (.inr h)
    · rename_i h
      refine iff_of_false Bool.false_ne_true ?_
      rintro (h0 | h')
      · exact hne h0
      · exact h h'

theorem isDigit_of_isSome_natural? {ds : List Char} (h : (natural? ds).isSome = true) :
    ∀ c ∈ ds, isDigit c = true := by
  rcases isSome_natural?_iff.mp h with rfl | ⟨-, -, hall, -⟩
  · simp [isDigit]
  · exact hall

/-- The digits that are left when underscores are dropped are a number exactly if they were grouped.
-/
theorem isSome_natural?_dropUnderscores_iff {ds : List Char} :
    (natural? (dropUnderscores ds)).isSome = true ↔ ds = ['0'] ∨ IsPositive ds := by
  by_cases hm : IsMisgrouped ds
  · have hmem := hm.underscore_mem
    rw [dropUnderscores_of_misgrouped hm]
    refine iff_of_false ?_ ?_
    · intro h
      cases isDigit_of_isSome_natural? h _ hmem
    · rintro (rfl | hp)
      · simp at hmem
      · exact hp.1.not_misgrouped hm
  · rw [dropUnderscores_of_not_misgrouped hm]
    constructor
    · intro h
      have hall := isDigit_of_isSome_natural? h
      have hgrouped : Grouped ds := by
        refine grouped_iff.mpr ⟨?_, ?_, fun h => hm (.inl h), fun h => hm (.inr (.inl h)), ?_⟩
        · rintro rfl
          cases h
        · intro c hc
          by_cases hu : c = '_'
          · exact .inr hu
          · exact .inl (hall c (List.mem_filter.mpr ⟨hc, by simpa using hu⟩))
        · exact Bool.eq_false_iff.mpr fun h => hm (.inr (.inr h))
      rcases isSome_natural?_iff.mp h with h0 | ⟨hhead, -, -, hlength⟩
      · exact .inl (hgrouped.eq_of_filter h0)
      · obtain ⟨d, rest, hfilter, hd⟩ := hgrouped.exists_filter
        rw [hfilter] at hhead
        exact .inr ⟨hgrouped, by rw [hd]; exact hhead, hlength⟩
    · rintro (rfl | ⟨hgrouped, hhead, hlength⟩)
      · rfl
      · obtain ⟨d, rest, hfilter, hd⟩ := hgrouped.exists_filter
        refine isSome_natural?_iff.mpr (.inr ⟨?_, ?_, hgrouped.mem_filter, hlength⟩)
        · rw [hfilter]
          rw [hd] at hhead
          exact hhead
        · rw [hfilter]
          exact List.cons_ne_nil _ _

/-! ## Fractions -/

theorem dropFraction_append {ds fraction : List Char} (h : '.' ∉ ds) (hf : IsFraction fraction) :
    dropFraction (ds ++ fraction) = ds := by
  have hpos : ∀ c ∈ ds, decide (c ≠ '.') = true := fun c hc =>
    decide_eq_true fun heq => h (heq ▸ hc)
  unfold dropFraction
  rw [List.dropWhile_append_of_pos hpos, List.takeWhile_append_of_pos hpos]
  rcases hf with rfl | ⟨zeros, rfl, hne, hall⟩
  · simp
  · have hzeros : (!zeros.isEmpty && zeros.all (· == '0')) = true := by simpa [hne] using hall
    simp only [ne_eq, not_true_eq_false, decide_false, Bool.false_eq_true, not_false_eq_true,
      List.dropWhile_cons_of_neg, List.takeWhile_cons_of_neg, List.append_nil]
    rw [if_pos hzeros]

/-- A fraction of zeros is dropped; any other point stays where it is. -/
theorem dropFraction_cases (cs : List Char) :
    (∃ ds fraction, cs = ds ++ fraction ∧ '.' ∉ ds ∧ IsFraction fraction) ∨
      ('.' ∈ cs ∧ dropFraction cs = cs) := by
  have hsplit : cs = cs.takeWhile (· ≠ '.') ++ cs.dropWhile (· ≠ '.') :=
    List.takeWhile_append_dropWhile.symm
  have hfront : '.' ∉ cs.takeWhile (· ≠ '.') := fun h => by
    simpa using List.all_eq_true.mp List.all_takeWhile _ h
  cases hd : cs.dropWhile (· ≠ '.') with
  | nil =>
    refine .inl ⟨_, [], ?_, hfront, .inl rfl⟩
    rw [hd] at hsplit
    exact hsplit
  | cons c zeros =>
    have hc : c = '.' := by
      have hhead := List.head?_dropWhile_not (fun c => decide (c ≠ '.')) cs
      rw [hd] at hhead
      simpa using hhead
    subst hc
    by_cases hz : (!zeros.isEmpty && zeros.all (· == '0')) = true
    · refine .inl ⟨_, '.' :: zeros, ?_, hfront, .inr ⟨zeros, rfl, by simpa using hz⟩⟩
      rw [← hd]
      exact hsplit
    · refine .inr ⟨?_, ?_⟩
      · rw [hsplit, hd]
        exact List.mem_append_right _ List.mem_cons_self
      · unfold dropFraction
        rw [hd]
        exact if_neg hz

theorem point_not_mem {ds : List Char} (h : ds = ['0'] ∨ IsPositive ds) : '.' ∉ ds := by
  rcases h with rfl | h
  · simp
  · intro hmem
    rcases (grouped_iff.mp h.1).2.1 _ hmem with h | h <;> cases h

theorem point_mem_dropUnderscores {cs : List Char} (h : '.' ∈ cs) : '.' ∈ dropUnderscores cs := by
  by_cases hm : IsMisgrouped cs
  · rwa [dropUnderscores_of_misgrouped hm]
  · rw [dropUnderscores_of_not_misgrouped hm]
    exact List.mem_filter.mpr ⟨h, rfl⟩

/-- What is left of a numeral without a sign and without zeros in front. -/
def stripped (cs : List Char) : List Char :=
  dropUnderscores (dropFraction cs)

theorem isSome_natural?_stripped_iff {cs : List Char} :
    (natural? (stripped cs)).isSome = true ↔
      ∃ ds fraction, cs = ds ++ fraction ∧ (ds = ['0'] ∨ IsPositive ds) ∧ IsFraction fraction := by
  constructor
  · intro h
    rcases dropFraction_cases cs with ⟨ds, fraction, rfl, hpoint, hf⟩ | ⟨hpoint, hdrop⟩
    · rw [stripped, dropFraction_append hpoint hf] at h
      exact ⟨ds, fraction, rfl, isSome_natural?_dropUnderscores_iff.mp h, hf⟩
    · rw [stripped, hdrop] at h
      cases isDigit_of_isSome_natural? h _ (point_mem_dropUnderscores hpoint)
  · rintro ⟨ds, fraction, rfl, hds, hf⟩
    rw [stripped, dropFraction_append (point_not_mem hds) hf]
    exact isSome_natural?_dropUnderscores_iff.mpr hds

/-! ## A sign after zeros -/

theorem dropFraction_cons {c : Char} (h : c ≠ '.') (cs : List Char) :
    dropFraction (c :: cs) = c :: dropFraction cs := by
  unfold dropFraction
  rw [List.dropWhile_cons_of_pos (by simpa using h), List.takeWhile_cons_of_pos (by simpa using h)]
  split
  · split <;> rfl
  · rfl

theorem stripped_minus (cs : List Char) :
    stripped ('-' :: cs) = '-' :: (dropUnderscores ('-' :: dropFraction cs)).tail := by
  rw [stripped, dropFraction_cons (by decide)]
  by_cases hm : IsMisgrouped ('-' :: dropFraction cs)
  · rw [dropUnderscores_of_misgrouped hm]
    rfl
  · rw [dropUnderscores_of_not_misgrouped hm, List.filter_cons_of_pos (by decide)]
    rfl

theorem isMisgrouped_minus_iff {cs : List Char} :
    IsMisgrouped ('-' :: cs) ↔ cs.getLast? = some '_' ∨ hasDouble cs = true := by
  unfold IsMisgrouped
  rw [hasDouble_cons]
  cases cs with
  | nil => decide
  | cons c rest => simp [List.getLast?_cons_of_ne_nil]

theorem tail_dropUnderscores_minus {cs : List Char} (hhead : cs.head? ≠ some '_') :
    (dropUnderscores ('-' :: cs)).tail = dropUnderscores cs := by
  have hmis : IsMisgrouped ('-' :: cs) ↔ IsMisgrouped cs := by
    rw [isMisgrouped_minus_iff]
    simp [IsMisgrouped, hhead]
  by_cases hm : IsMisgrouped cs
  · rw [dropUnderscores_of_misgrouped (hmis.mpr hm), dropUnderscores_of_misgrouped hm]
    rfl
  · rw [dropUnderscores_of_not_misgrouped (mt hmis.mp hm), dropUnderscores_of_not_misgrouped hm]
    rfl

theorem natural?_underscore (rest : List Char) :
    ¬(natural? (dropUnderscores ('_' :: rest))).isSome = true := by
  have hm : IsMisgrouped ('_' :: rest) := .inl rfl
  rw [dropUnderscores_of_misgrouped hm]
  intro h
  cases isDigit_of_isSome_natural? h _ List.mem_cons_self

theorem isSome_natural?_tail_underscore (rest : List Char) :
    (natural? (dropUnderscores ('-' :: '_' :: rest)).tail).isSome = true ↔
      (natural? (dropUnderscores rest)).isSome = true := by
  by_cases hne : rest = []
  · subst hne
    decide
  have hmis : IsMisgrouped ('-' :: '_' :: rest) ↔ IsMisgrouped rest := by
    rw [isMisgrouped_minus_iff, List.getLast?_cons_of_ne_nil hne, hasDouble_cons]
    unfold IsMisgrouped
    simp only [beq_self_eq_true, Bool.true_and, Bool.or_eq_true, beq_iff_eq]
    exact or_left_comm
  by_cases hm : IsMisgrouped rest
  · rw [dropUnderscores_of_misgrouped (hmis.mpr hm), dropUnderscores_of_misgrouped hm]
    refine iff_of_false ?_ ?_
    · intro h
      cases isDigit_of_isSome_natural? h '_' List.mem_cons_self
    · intro h
      cases isDigit_of_isSome_natural? h _ hm.underscore_mem
  · rw [dropUnderscores_of_not_misgrouped (mt hmis.mp hm), dropUnderscores_of_not_misgrouped hm]
    rfl

/-- Behind a minus sign, one underscore in front counts as inside. -/
theorem isSome_natural?_tail_iff {cs : List Char} :
    (natural? (dropUnderscores ('-' :: cs)).tail).isSome = true ↔
      (natural? (dropUnderscores cs)).isSome = true ∨
        ∃ rest, cs = '_' :: rest ∧ (natural? (dropUnderscores rest)).isSome = true := by
  by_cases hu : ∃ rest, cs = '_' :: rest
  · obtain ⟨rest, rfl⟩ := hu
    rw [isSome_natural?_tail_underscore]
    simp [natural?_underscore rest]
  · rw [tail_dropUnderscores_minus fun h => hu (List.head?_eq_some_iff.mp h)]
    refine ⟨.inl, ?_⟩
    rintro (h | ⟨rest, rfl, -⟩)
    · exact h
    · exact absurd ⟨rest, rfl⟩ hu

/-! ## Zeros in front -/

/-- What is left when the zeros in front are dropped; `last` is the character before `cs`. -/
inductive AfterPadding (last : Char) : List Char → List Char → Prop where
  | done : AfterPadding last [] [last]
  | point {rest : List Char} : AfterPadding last ('.' :: rest) (last :: '.' :: rest)
  | digit {c : Char} {rest : List Char} (h : isDigit c = true) (hne : c ≠ '0') :
      AfterPadding last (c :: rest) (c :: rest)
  | sign {rest : List Char} : AfterPadding last ('-' :: rest) ('-' :: rest)

theorem afterZeros_of_padding {last : Char} {zeros cs left : List Char}
    (h : ∀ c ∈ zeros, c = '0' ∨ c = '_')
    (hcs : AfterPadding ((last :: zeros).getLast (List.cons_ne_nil _ _)) cs left) :
    afterZeros last (zeros ++ cs) = some left := by
  induction zeros generalizing last with
  | nil =>
    cases hcs with
    | done => rfl
    | point => rfl
    | @digit c rest h hne =>
      have hpoint : c ≠ '.' := by
        rintro rfl
        cases h
      rw [List.nil_append, afterZeros, if_neg (by simp [hne, ne_underscore_of_isDigit h]),
        if_neg hpoint, if_pos (.inl h)]
    | sign => rfl
  | cons z zeros ih =>
    rw [List.forall_mem_cons] at h
    rw [List.cons_append, afterZeros, if_pos h.1]
    exact ih h.2 hcs

theorem exists_padding_of_afterZeros {last : Char} {cs left : List Char}
    (h : afterZeros last cs = some left) :
    ∃ zeros rest, cs = zeros ++ rest ∧ (∀ c ∈ zeros, c = '0' ∨ c = '_') ∧
      AfterPadding ((last :: zeros).getLast (List.cons_ne_nil _ _)) rest left := by
  induction cs generalizing last with
  | nil =>
    cases h
    exact ⟨[], [], rfl, List.forall_mem_nil _, .done⟩
  | cons c cs ih =>
    rw [afterZeros] at h
    by_cases hz : c = '0' ∨ c = '_'
    · rw [if_pos hz] at h
      obtain ⟨zeros, rest, rfl, hzeros, hrest⟩ := ih h
      exact ⟨c :: zeros, rest, rfl, List.forall_mem_cons.mpr ⟨hz, hzeros⟩, hrest⟩
    · rw [if_neg hz] at h
      refine ⟨[], c :: cs, rfl, List.forall_mem_nil _, ?_⟩
      by_cases hp : c = '.'
      · rw [if_pos hp] at h
        cases h
        rw [hp]
        exact .point
      · rw [if_neg hp] at h
        by_cases hd : isDigit c = true ∨ c = '-'
        · rw [if_pos hd] at h
          cases h
          rcases hd with hd | rfl
          · exact .digit hd fun h0 => hz (.inl h0)
          · exact .sign
        · rw [if_neg hd] at h
          cases h

/-- A numeral without zeros in front starts with a digit other than zero; otherwise the zeros are
dropped as far as possible. -/
theorem dropZeros_eq_some_iff {cs left : List Char} :
    dropZeros cs = some left ↔
      (∃ c rest, cs = c :: rest ∧ isDigit c = true ∧ c ≠ '0' ∧ left = cs) ∨
        ∃ zeros rest, cs = '0' :: zeros ++ rest ∧ (∀ c ∈ zeros, c = '0' ∨ c = '_') ∧
          AfterPadding (('0' :: zeros).getLast (List.cons_ne_nil _ _)) rest left := by
  constructor
  · intro h
    cases cs with
    | nil => cases h
    | cons c cs =>
      rw [dropZeros] at h
      by_cases hc : c = '0'
      · rw [if_pos hc] at h
        obtain ⟨zeros, rest, rfl, hzeros, hrest⟩ := exists_padding_of_afterZeros h
        subst hc
        exact .inr ⟨zeros, rest, rfl, hzeros, hrest⟩
      · rw [if_neg hc] at h
        by_cases hd : isDigit c = true
        · rw [if_pos hd] at h
          cases h
          exact .inl ⟨c, cs, rfl, hd, hc, rfl⟩
        · rw [if_neg hd] at h
          cases h
  · rintro (⟨c, rest, rfl, hd, hc, rfl⟩ | ⟨zeros, rest, rfl, hzeros, hrest⟩)
    · rw [dropZeros, if_neg hc, if_pos hd]
    · rw [List.cons_append, dropZeros, if_pos rfl]
      exact afterZeros_of_padding hzeros hrest

/-! ## Numerals -/

theorem unsigned_eq (cs : List Char) : tidy.unsigned cs = (dropZeros cs).map stripped :=
  rfl

theorem getLast_padding {zeros : List Char} (h : ∀ c ∈ zeros, c = '0' ∨ c = '_') :
    ('0' :: zeros).getLast (List.cons_ne_nil _ _) = '0' ∨
      ('0' :: zeros).getLast (List.cons_ne_nil _ _) = '_' := by
  have hmem := List.getLast_mem (List.cons_ne_nil '0' zeros)
  exact List.forall_mem_cons.mpr ⟨.inl rfl, h⟩ _ hmem

theorem IsPositive.exists_digit {ds : List Char} (h : IsPositive ds) :
    ∃ c rest, ds = c :: rest ∧ isDigit c = true ∧ c ≠ '0' := by
  obtain ⟨hgrouped, hhead, -⟩ := h
  cases hgrouped with
  | single hd => exact ⟨_, _, rfl, hd, fun h0 => hhead (by rw [h0]; rfl)⟩
  | next hd hs => exact ⟨_, _, rfl, hd, fun h0 => hhead (by rw [h0]; rfl)⟩
  | spaced hd hs => exact ⟨_, _, rfl, hd, fun h0 => hhead (by rw [h0]; rfl)⟩

/-- The digits in front of a fraction, when the numeral starts with a digit other than zero. -/
theorem isPositive_of_head {c : Char} {rest ds fraction : List Char} (hc : c ≠ '0')
    (h : c :: rest = ds ++ fraction) (hds : ds = ['0'] ∨ IsPositive ds) : IsPositive ds := by
  refine hds.resolve_left ?_
  rintro rfl
  exact hc (List.cons.inj h).1

theorem isFraction_of_point {last : Char} {rest ds fraction : List Char}
    (hlast : last = '0' ∨ last = '_') (h : last :: '.' :: rest = ds ++ fraction)
    (hds : ds = ['0'] ∨ IsPositive ds) (hf : IsFraction fraction) :
    last = '0' ∧ IsFraction ('.' :: rest) := by
  rcases hds with rfl | hds
  · obtain ⟨h0, hrest⟩ := List.cons.inj h
    exact ⟨h0, by rw [hrest]; exact hf⟩
  · obtain ⟨c, ds', rfl, hd, hne⟩ := hds.exists_digit
    obtain ⟨rfl, -⟩ := List.cons.inj h
    rcases hlast with rfl | rfl
    · exact absurd rfl hne
    · cases hd

/-- Digits and a fraction, which are left of a numeral without a sign. -/
def IsBare (cs : List Char) : Prop :=
  ∃ ds fraction, cs = ds ++ fraction ∧ (ds = ['0'] ∨ IsPositive ds) ∧ IsFraction fraction

theorem not_isBare_minus (cs : List Char) : ¬IsBare ('-' :: cs) := by
  intro h
  have hsome := isSome_natural?_stripped_iff.mpr h
  rw [stripped_minus] at hsome
  cases isDigit_of_isSome_natural? hsome '-' List.mem_cons_self

theorem isUnsigned_of_dropZeros {cs left : List Char} (h : dropZeros cs = some left)
    (hleft : IsBare left) : IsUnsigned cs := by
  obtain ⟨ds, fraction, hsplit, hds, hf⟩ := hleft
  rcases dropZeros_eq_some_iff.mp h with
    ⟨c, rest, rfl, -, hc, rfl⟩ | ⟨zeros, rest, rfl, hzeros, hrest⟩
  · rw [hsplit]
    exact .plain (isPositive_of_head hc hsplit hds) hf
  have hpadding : IsPadding ('0' :: zeros) := ⟨zeros, rfl, hzeros⟩
  have hlast := getLast_padding hzeros
  have hzero : ('0' :: zeros).getLast (List.cons_ne_nil _ _) = '0' →
      ('0' :: zeros).getLast? = some '0' := by
    intro h
    rw [List.getLast?_eq_some_getLast (List.cons_ne_nil _ _), h]
  cases hrest with
  | done =>
    refine .zero hpadding (hzero ?_) (.inl rfl)
    rcases hds with rfl | hds
    · exact (List.cons.inj hsplit).1
    · obtain ⟨c, ds', rfl, hd, hne⟩ := hds.exists_digit
      obtain ⟨heq, -⟩ := List.cons.inj hsplit
      refine hlast.resolve_right fun hunder => ?_
      rw [← heq, hunder] at hd
      cases hd
  | point =>
    obtain ⟨h0, hfraction⟩ := isFraction_of_point hlast hsplit hds hf
    exact .zero hpadding (hzero h0) hfraction
  | digit hd hne =>
    rw [hsplit]
    exact .padded hpadding (isPositive_of_head hne hsplit hds) hf
  | sign => exact absurd ⟨ds, fraction, hsplit, hds, hf⟩ (not_isBare_minus _)

theorem IsUnsigned.exists_dropZeros {cs : List Char} (h : IsUnsigned cs) :
    ∃ left, dropZeros cs = some left ∧ IsBare left := by
  cases h with
  | @zero zeros fraction hpadding hlast hf =>
    obtain ⟨zeros, rfl, hzeros⟩ := hpadding
    have hzero : ('0' :: zeros).getLast (List.cons_ne_nil _ _) = '0' := by
      rw [List.getLast?_eq_some_getLast (List.cons_ne_nil _ _)] at hlast
      exact Option.some.inj hlast
    have hafter : AfterPadding '0' fraction ('0' :: fraction) := by
      rcases hf with rfl | ⟨more, rfl, -, -⟩
      · exact .done
      · exact .point
    refine ⟨'0' :: fraction, dropZeros_eq_some_iff.mpr (.inr ⟨zeros, fraction, rfl, hzeros, ?_⟩),
      ['0'], fraction, rfl, .inl rfl, hf⟩
    rw [hzero]
    exact hafter
  | @plain ds fraction hds hf =>
    obtain ⟨c, rest, rfl, hd, hne⟩ := hds.exists_digit
    exact ⟨_, dropZeros_eq_some_iff.mpr (.inl ⟨c, rest ++ fraction, rfl, hd, hne, rfl⟩), _, _, rfl,
      .inr hds, hf⟩
  | @padded zeros ds fraction hz hds hf =>
    obtain ⟨zeros, rfl, hzeros⟩ := hz
    obtain ⟨c, rest, rfl, hd, hne⟩ := hds.exists_digit
    have hafter : AfterPadding (('0' :: zeros).getLast (List.cons_ne_nil _ _))
        (c :: rest ++ fraction) (c :: rest ++ fraction) := .digit hd hne
    exact ⟨_, dropZeros_eq_some_iff.mpr (.inr ⟨zeros, _, rfl, hzeros, hafter⟩), _, _, rfl, .inr hds,
      hf⟩

/-- Behind a minus sign in front, what is left must be a number by itself. -/
theorem isSome_unsigned_natural?_iff {cs : List Char} :
    ((tidy.unsigned cs).bind natural?).isSome = true ↔ IsUnsigned cs := by
  rw [unsigned_eq]
  constructor
  · intro h
    cases hdrop : dropZeros cs with
    | none =>
      rw [hdrop] at h
      cases h
    | some left =>
      rw [hdrop] at h
      exact isUnsigned_of_dropZeros hdrop (isSome_natural?_stripped_iff.mp h)
  · intro h
    obtain ⟨left, hdrop, hleft⟩ := h.exists_dropZeros
    rw [hdrop]
    exact isSome_natural?_stripped_iff.mpr hleft

theorem isLateSigned_iff {cs : List Char} :
    IsLateSigned cs ↔ ∃ rest, dropZeros cs = some ('-' :: rest) ∧
      (IsBare rest ∨ ∃ more, rest = '_' :: more ∧ IsBare more) := by
  have hdrop : ∀ {zeros rest : List Char}, (∀ c ∈ zeros, c = '0' ∨ c = '_') →
      dropZeros ('0' :: zeros ++ '-' :: rest) = some ('-' :: rest) := fun hzeros =>
    dropZeros_eq_some_iff.mpr (.inr ⟨_, _, rfl, hzeros, .sign⟩)
  constructor
  · intro h
    cases h with
    | plain hz hds hf =>
      obtain ⟨zeros, rfl, hzeros⟩ := hz
      exact ⟨_, hdrop hzeros, .inl ⟨_, _, rfl, hds, hf⟩⟩
    | spaced hz hds hf =>
      obtain ⟨zeros, rfl, hzeros⟩ := hz
      exact ⟨_, hdrop hzeros, .inr ⟨_, rfl, _, _, rfl, hds, hf⟩⟩
  · rintro ⟨rest, hdrop, hrest⟩
    rcases dropZeros_eq_some_iff.mp hdrop with
      ⟨c, rest', rfl, hd, -, hleft⟩ | ⟨zeros, rest', rfl, hzeros, hafter⟩
    · rw [← (List.cons.inj hleft).1] at hd
      cases hd
    · have hpadding : IsPadding ('0' :: zeros) := ⟨zeros, rfl, hzeros⟩
      have hlast := getLast_padding hzeros
      generalize ('0' :: zeros).getLast (List.cons_ne_nil _ _) = last at hlast hafter
      cases hafter with
      | digit hd hne => cases hd
      | sign =>
        rcases hrest with ⟨ds, fraction, rfl, hds, hf⟩ | ⟨more, rfl, ds, fraction, rfl, hds, hf⟩
        · exact .plain hpadding hds hf
        · exact .spaced hpadding hds hf
      | done => rcases hlast with h | h <;> cases h
      | point => rcases hlast with h | h <;> cases h

theorem isSome_integer?_minus (ds : List Char) :
    (integer? ('-' :: ds)).isSome = (natural? ds).isSome := by
  rw [integer?]
  cases natural? ds <;> rfl

theorem isSome_integer?_of_head {ds : List Char} (h : ds.head? ≠ some '-') :
    (integer? ds).isSome = (natural? ds).isSome := by
  unfold integer?
  split
  · exact absurd rfl h
  · cases natural? ds <;> rfl

theorem isSome_integer?_stripped_minus (cs : List Char) :
    (integer? (stripped ('-' :: cs))).isSome = true ↔
      IsBare cs ∨ ∃ more, cs = '_' :: more ∧ IsBare more := by
  rw [stripped_minus, isSome_integer?_minus, isSome_natural?_tail_iff]
  refine or_congr isSome_natural?_stripped_iff ?_
  constructor
  · rintro ⟨rest, hdrop, hrest⟩
    cases cs with
    | nil => cases hdrop
    | cons c cs =>
      by_cases hc : c = '.'
      · subst hc
        unfold dropFraction at hdrop
        simp only [ne_eq, not_true_eq_false, decide_false, Bool.false_eq_true, not_false_eq_true,
          List.dropWhile_cons_of_neg, List.takeWhile_cons_of_neg] at hdrop
        split at hdrop <;> cases hdrop
      · rw [dropFraction_cons hc] at hdrop
        cases hdrop
        exact ⟨cs, rfl, isSome_natural?_stripped_iff.mp hrest⟩
  · rintro ⟨more, rfl, hmore⟩
    exact ⟨_, dropFraction_cons (by decide) more, isSome_natural?_stripped_iff.mpr hmore⟩

theorem head?_stripped {c : Char} {cs : List Char} (hpoint : c ≠ '.') :
    (stripped (c :: cs)).head? = some c := by
  rw [stripped, dropFraction_cons hpoint]
  by_cases hm : IsMisgrouped (c :: dropFraction cs)
  · rw [dropUnderscores_of_misgrouped hm]
    rfl
  · have hc : c ≠ '_' := fun h => hm (.inl (by rw [h]; rfl))
    rw [dropUnderscores_of_not_misgrouped hm, List.filter_cons_of_pos (by simpa using hc)]
    rfl

/-- What is left of a numeral without its zeros does not start with a point. -/
theorem exists_of_dropZeros {cs left : List Char} (h : dropZeros cs = some left) :
    ∃ c rest, left = c :: rest ∧ c ≠ '.' := by
  have hdigit : ∀ {c : Char}, isDigit c = true → c ≠ '.' := by
    rintro c hd rfl
    cases hd
  rcases dropZeros_eq_some_iff.mp h with
    ⟨c, rest, rfl, hd, -, rfl⟩ | ⟨zeros, rest, rfl, hzeros, hafter⟩
  · exact ⟨c, rest, rfl, hdigit hd⟩
  · have hlast : ('0' :: zeros).getLast (List.cons_ne_nil _ _) ≠ '.' := by
      rcases getLast_padding hzeros with h | h <;> rw [h] <;> decide
    cases hafter with
    | done => exact ⟨_, _, rfl, hlast⟩
    | point => exact ⟨_, _, rfl, hlast⟩
    | digit hd hne => exact ⟨_, _, rfl, hdigit hd⟩
    | sign => exact ⟨_, _, rfl, by decide⟩

/-- Without a minus sign in front there may be one after the zeros. -/
theorem isSome_unsigned_integer?_iff {cs : List Char} :
    ((tidy.unsigned cs).bind integer?).isSome = true ↔ IsUnsigned cs ∨ IsLateSigned cs := by
  rw [unsigned_eq, isLateSigned_iff]
  cases hdrop : dropZeros cs with
  | none =>
    refine iff_of_false Bool.false_ne_true ?_
    rintro (h | ⟨rest, h, -⟩)
    · obtain ⟨left, hleft, -⟩ := h.exists_dropZeros
      rw [hdrop] at hleft
      cases hleft
    · cases h
  | some left =>
    have hunsigned : IsUnsigned cs ↔ IsBare left := by
      refine ⟨fun h => ?_, isUnsigned_of_dropZeros hdrop⟩
      obtain ⟨left', hleft, hbare⟩ := h.exists_dropZeros
      rw [hdrop] at hleft
      cases hleft
      exact hbare
    rw [hunsigned]
    obtain ⟨c, rest, rfl, hpoint⟩ := exists_of_dropZeros hdrop
    change (integer? (stripped (c :: rest))).isSome = true ↔ _
    by_cases hc : c = '-'
    · subst hc
      rw [isSome_integer?_stripped_minus]
      simp [not_isBare_minus]
    · have hhead : (stripped (c :: rest)).head? ≠ some '-' := by
        rw [head?_stripped hpoint]
        simpa using hc
      rw [isSome_integer?_of_head hhead, isSome_natural?_stripped_iff]
      refine ⟨.inl, ?_⟩
      rintro (h | ⟨rest', h, -⟩)
      · exact h
      · exact absurd (List.cons.inj (Option.some.inj h)).1 hc

theorem IsUnsigned.exists_head {cs : List Char} (h : IsUnsigned cs) :
    ∃ c rest, cs = c :: rest ∧ isDigit c = true := by
  cases h with
  | zero hz hlast hf =>
    obtain ⟨zeros, rfl, -⟩ := hz
    exact ⟨_, _, rfl, rfl⟩
  | plain h hf =>
    obtain ⟨c, rest, rfl, hd, -⟩ := h.exists_digit
    exact ⟨_, _, rfl, hd⟩
  | padded hz h hf =>
    obtain ⟨zeros, rfl, -⟩ := hz
    exact ⟨_, _, rfl, rfl⟩

theorem IsLateSigned.exists_head {cs : List Char} (h : IsLateSigned cs) :
    ∃ rest, cs = '0' :: rest := by
  cases h with
  | plain hz h hf =>
    obtain ⟨zeros, rfl, -⟩ := hz
    exact ⟨_, rfl⟩
  | spaced hz h hf =>
    obtain ⟨zeros, rfl, -⟩ := hz
    exact ⟨_, rfl⟩

theorem isNumeral_iff_of_not_signed {cs : List Char} (hplus : ∀ rest, cs ≠ '+' :: rest)
    (hminus : ∀ rest, cs ≠ '-' :: rest) : IsNumeral cs ↔ IsUnsigned cs ∨ IsLateSigned cs := by
  constructor
  · intro h
    cases h with
    | unsigned h => exact .inl h
    | late h => exact .inr h
    | plus h => exact absurd rfl (hplus _)
    | plusLate h => exact absurd rfl (hplus _)
    | minus h => exact absurd rfl (hminus _)
  · rintro (h | h)
    · exact .unsigned h
    · exact .late h

theorem not_signed_head {c : Char} {cs : List Char} (hc : isDigit c = false) :
    ¬IsUnsigned (c :: cs) ∧ ¬IsLateSigned (c :: cs) := by
  constructor
  · intro h
    obtain ⟨d, rest, heq, hd⟩ := h.exists_head
    rw [(List.cons.inj heq).1, hd] at hc
    cases hc
  · intro h
    obtain ⟨rest, heq⟩ := h.exists_head
    rw [(List.cons.inj heq).1] at hc
    cases hc

/-- What is left after tidying up is an integer exactly if it was a numeral. -/
theorem isSome_tidy_iff {cs : List Char} :
    ((tidy cs).bind integer?).isSome = true ↔ IsNumeral cs := by
  unfold tidy
  split
  · rename_i rest
    obtain ⟨hunsigned, hlate⟩ : ¬IsUnsigned ('+' :: rest) ∧ ¬IsLateSigned ('+' :: rest) :=
      not_signed_head rfl
    rw [isSome_unsigned_integer?_iff]
    constructor
    · rintro (h | h)
      · exact .plus h
      · exact .plusLate h
    · intro h
      cases h with
      | unsigned h => exact absurd h hunsigned
      | late h => exact absurd h hlate
      | plus h => exact .inl h
      | plusLate h => exact .inr h
  · rename_i rest
    obtain ⟨hunsigned, hlate⟩ : ¬IsUnsigned ('-' :: rest) ∧ ¬IsLateSigned ('-' :: rest) :=
      not_signed_head rfl
    have hbind : (((tidy.unsigned rest).map ('-' :: ·)).bind integer?).isSome =
        ((tidy.unsigned rest).bind natural?).isSome := by
      cases tidy.unsigned rest with
      | none => rfl
      | some t => exact isSome_integer?_minus t
    rw [hbind, isSome_unsigned_natural?_iff]
    constructor
    · exact .minus
    · intro h
      cases h with
      | unsigned h => exact absurd h hunsigned
      | late h => exact absurd h hlate
      | minus h => exact h
  · rename_i hplus hminus
    rw [isSome_unsigned_integer?_iff]
    exact (isNumeral_iff_of_not_signed hplus hminus).symm

/-! ## Numerals between white space -/

theorem isWhiteSpace_of_isDigit {c : Char} (h : isDigit c = true) :
    Text.isWhiteSpace c = false := by
  have hc : 48 ≤ c.toNat ∧ c.toNat ≤ 57 := by simpa [isDigit] using h
  simp [Text.isWhiteSpace]
  omega

theorem isDigit_of_isWhiteSpace {c : Char} (h : Text.isWhiteSpace c = true) :
    isDigit c = false := by
  cases hd : isDigit c with
  | false => rfl
  | true =>
    rw [isWhiteSpace_of_isDigit hd] at h
    cases h

/-- A list that ends with a digit. -/
def EndsWithDigit (cs : List Char) : Prop :=
  ∃ d, cs.getLast? = some d ∧ isDigit d = true

theorem EndsWithDigit.append_left {cs : List Char} (h : EndsWithDigit cs) (front : List Char) :
    EndsWithDigit (front ++ cs) := by
  obtain ⟨d, hlast, hd⟩ := h
  exact ⟨d, by rw [List.getLast?_append, hlast]; rfl, hd⟩

theorem EndsWithDigit.append_fraction {cs fraction : List Char} (h : EndsWithDigit cs)
    (hf : IsFraction fraction) : EndsWithDigit (cs ++ fraction) := by
  rcases hf with rfl | ⟨zeros, rfl, hne, hall⟩
  · rwa [List.append_nil]
  · have hlast := List.getLast?_eq_some_getLast hne
    have hzero := hall _ (List.getLast_mem hne)
    refine EndsWithDigit.append_left ⟨zeros.getLast hne, ?_, by rw [hzero]; rfl⟩ cs
    rw [List.getLast?_cons_of_ne_nil hne, hlast]

theorem Grouped.endsWithDigit {ds : List Char} (h : Grouped ds) : EndsWithDigit ds := by
  obtain ⟨hne, hall, -, hlast, -⟩ := grouped_iff.mp h
  have hlast? := List.getLast?_eq_some_getLast hne
  refine ⟨ds.getLast hne, hlast?, (hall _ (List.getLast_mem hne)).resolve_right fun hu => hlast ?_⟩
  rw [hlast?, hu]

theorem endsWithDigit_of_digits {ds : List Char} (h : ds = ['0'] ∨ IsPositive ds) :
    EndsWithDigit ds := by
  rcases h with rfl | h
  · exact ⟨'0', rfl, rfl⟩
  · exact h.1.endsWithDigit

theorem IsUnsigned.endsWithDigit {cs : List Char} (h : IsUnsigned cs) : EndsWithDigit cs := by
  cases h with
  | zero hz hlast hf => exact EndsWithDigit.append_fraction ⟨'0', hlast, rfl⟩ hf
  | plain h hf => exact (endsWithDigit_of_digits (.inr h)).append_fraction hf
  | padded hz h hf => exact ((endsWithDigit_of_digits (.inr h)).append_fraction hf).append_left _

theorem IsLateSigned.endsWithDigit {cs : List Char} (h : IsLateSigned cs) : EndsWithDigit cs := by
  cases h with
  | @plain zeros ds fraction hz h hf =>
    have hend := ((endsWithDigit_of_digits h).append_fraction hf).append_left (zeros ++ ['-'])
    rwa [List.append_assoc] at hend
  | @spaced zeros ds fraction hz h hf =>
    have hend := ((endsWithDigit_of_digits h).append_fraction hf).append_left (zeros ++ ['-', '_'])
    rwa [List.append_assoc] at hend

theorem IsNumeral.endsWithDigit {cs : List Char} (h : IsNumeral cs) : EndsWithDigit cs := by
  cases h with
  | unsigned h => exact h.endsWithDigit
  | late h => exact h.endsWithDigit
  | plus h => exact h.endsWithDigit.append_left ['+']
  | plusLate h => exact h.endsWithDigit.append_left ['+']
  | minus h => exact h.endsWithDigit.append_left ['-']

theorem IsNumeral.exists_head {cs : List Char} (h : IsNumeral cs) :
    ∃ c rest, cs = c :: rest ∧ Text.isWhiteSpace c = false := by
  cases h with
  | unsigned h =>
    obtain ⟨c, rest, rfl, hd⟩ := h.exists_head
    exact ⟨c, rest, rfl, isWhiteSpace_of_isDigit hd⟩
  | late h =>
    obtain ⟨rest, rfl⟩ := h.exists_head
    exact ⟨'0', rest, rfl, rfl⟩
  | plus h => exact ⟨_, _, rfl, rfl⟩
  | plusLate h => exact ⟨_, _, rfl, rfl⟩
  | minus h => exact ⟨_, _, rfl, rfl⟩

theorem trimList_of_isNumeral {left cs right : List Char} (h : IsNumeral cs)
    (hleft : ∀ c ∈ left, Text.isWhiteSpace c = true)
    (hright : ∀ c ∈ right, Text.isWhiteSpace c = true) :
    Text.trimList Text.isWhiteSpace (left ++ cs ++ right) = cs := by
  obtain ⟨d, hlast, hd⟩ := h.endsWithDigit
  obtain ⟨c, rest, rfl, hc⟩ := h.exists_head
  refine Text.trimList_append hleft hright (List.cons_ne_nil _ _) ?_ ?_
  · intro x hx
    cases hx
    exact hc
  · intro x hx
    rw [hlast] at hx
    cases hx
    exact isWhiteSpace_of_isDigit hd

/-! ## Too many digits -/

theorem length_takeWhile_le {p q : Char → Bool} (h : ∀ c, p c = true → q c = true)
    (cs : List Char) : (cs.takeWhile p).length ≤ (cs.filter q).length := by
  induction cs with
  | nil => exact Nat.le_refl 0
  | cons c rest ih =>
    cases hp : p c with
    | false => simp [hp]
    | true => simpa [hp, h c hp] using ih

theorem takeWhile_isDigit_append {ds rest : List Char}
    (h : ∀ c ∈ rest.head?, isDigit c = false) :
    (ds ++ rest).takeWhile isDigit = ds.takeWhile isDigit := by
  have hrest : rest.takeWhile isDigit = [] := by
    cases rest with
    | nil => rfl
    | cons c rest => exact List.takeWhile_cons_of_neg (by simp [h c rfl])
  rw [List.takeWhile_append, hrest]
  split
  · rename_i hlength
    rw [List.append_nil]
    exact (List.takeWhile_sublist isDigit).eq_of_length hlength |>.symm
  · rfl

/-- After digits and a fraction white space follows, so that the digits end there. -/
theorem head?_after_digits {fraction right : List Char} (hf : IsFraction fraction)
    (hright : ∀ c ∈ right, Text.isWhiteSpace c = true) :
    ∀ c ∈ (fraction ++ right).head?, isDigit c = false := by
  intro c hc
  rcases hf with rfl | ⟨zeros, rfl, -, -⟩
  · exact isDigit_of_isWhiteSpace (hright c (List.mem_of_mem_head? hc))
  · cases hc
    rfl

theorem not_oversized_unsigned {cs right : List Char} (h : IsUnsigned cs ∨ IsLateSigned cs)
    (hright : ∀ c ∈ right, Text.isWhiteSpace c = true) :
    isOversized.unsigned (cs ++ right) = false := by
  have hzero : ∀ rest, isOversized.unsigned ('0' :: rest ++ right) = false := fun rest => rfl
  rcases h with h | h
  · cases h with
    | zero hz hlast hf =>
      obtain ⟨zeros, rfl, -⟩ := hz
      exact hzero _
    | @plain ds fraction hds hf =>
      have hlength : ((ds ++ fraction ++ right).takeWhile isDigit).length ≤ maxDigits := by
        rw [List.append_assoc, takeWhile_isDigit_append (head?_after_digits hf hright)]
        have hle := length_takeWhile_le (p := isDigit) (q := (· ≠ '_'))
          (fun c hc => decide_eq_true (ne_underscore_of_isDigit hc)) ds
        exact Nat.le_trans hle hds.2.2
      unfold isOversized.unsigned
      rw [decide_eq_false (Nat.not_lt.mpr hlength), Bool.and_false]
    | padded hz h hf =>
      obtain ⟨zeros, rfl, -⟩ := hz
      exact hzero _
  · obtain ⟨rest, rfl⟩ := h.exists_head
    exact hzero rest

theorem isOversized_of_head {c : Char} {cs : List Char} (hc : isDigit c = false) (hm : c ≠ '-') :
    isOversized (c :: cs) = false := by
  unfold isOversized
  split
  · exact absurd (List.cons.inj ‹_›).1 hm
  · unfold isOversized.unsigned
    rw [List.takeWhile_cons_of_neg (by simp [hc])]
    simp

theorem isOversized_of_digit {c : Char} {cs : List Char} (hc : isDigit c = true) :
    isOversized (c :: cs) = isOversized.unsigned (c :: cs) := by
  unfold isOversized
  split
  · rename_i heq
    rw [(List.cons.inj heq).1] at hc
    cases hc
  · rfl

/-- A numeral does not have too many digits. -/
theorem isOversized_of_isNumeral {left cs right : List Char} (h : IsNumeral cs)
    (hleft : ∀ c ∈ left, Text.isWhiteSpace c = true)
    (hright : ∀ c ∈ right, Text.isWhiteSpace c = true) :
    isOversized (left ++ cs ++ right) = false := by
  cases left with
  | cons c left =>
    have hc := hleft c List.mem_cons_self
    refine isOversized_of_head (isDigit_of_isWhiteSpace hc) ?_
    rintro rfl
    cases hc
  | nil =>
    cases h with
    | unsigned h =>
      have hfalse := not_oversized_unsigned (.inl h) hright
      obtain ⟨c, rest, rfl, hd⟩ := h.exists_head
      exact (isOversized_of_digit hd).trans hfalse
    | late h =>
      have hfalse := not_oversized_unsigned (.inr h) hright
      obtain ⟨rest, rfl⟩ := h.exists_head
      exact hfalse
    | plus h => exact isOversized_of_head rfl (by decide)
    | plusLate h => exact isOversized_of_head rfl (by decide)
    | minus h => exact not_oversized_unsigned (.inl h) hright

/-- A numeral between white space. -/
def IsSpelled (s : Text) : Prop :=
  ∃ left cs right : List Char, s = (left ++ cs ++ right).map .char ∧
    (∀ c ∈ left, Text.isWhiteSpace c = true) ∧ (∀ c ∈ right, Text.isWhiteSpace c = true) ∧
    IsNumeral cs

/-- The strings that are read as integers are the numerals between white space. -/
theorem exists_read_iff {s : Text} : (∃ n, read s = .valid n) ↔ IsSpelled s := by
  constructor
  · rintro ⟨n, hn⟩
    unfold read at hn
    cases hs : s.chars? with
    | none =>
      rw [hs] at hn
      cases hn
    | some cs =>
      simp only [hs] at hn
      by_cases ho : isOversized cs = true
      · rw [if_pos ho] at hn
        cases hn
      · rw [if_neg ho] at hn
        cases ht : (tidy (Text.trimList Text.isWhiteSpace cs)).bind integer? with
        | none =>
          rw [ht] at hn
          cases hn
        | some n =>
          obtain ⟨left, right, hsplit, hleft, hright⟩ :=
            Text.trimList_split Text.isWhiteSpace cs
          refine ⟨left, _, right, ?_, hleft, hright, isSome_tidy_iff.mp (by rw [ht]; rfl)⟩
          rw [← hsplit]
          exact Text.eq_map_char_of_chars? hs
  · rintro ⟨left, cs, right, rfl, hleft, hright, h⟩
    have hsome := isSome_tidy_iff.mpr h
    obtain ⟨n, hn⟩ := Option.isSome_iff_exists.mp hsome
    refine ⟨n, ?_⟩
    unfold read
    simp only [Text.chars?_map_char, isOversized_of_isNumeral h hleft hright,
      trimList_of_isNumeral h hleft hright, hn, Bool.false_eq_true, if_false]

end IntegerText

end Lowering
