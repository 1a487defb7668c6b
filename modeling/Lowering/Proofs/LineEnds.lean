import Lowering.CommandLine.Run

/-!
# Line ends in JSON texts

The program unifies the line ends of its input before it reads it. Outside strings a line end is
space, and inside strings there is none, so that a text that is read says the same with unified line
ends. The same argument bounds the fuel of reading by twice the characters that are passed over.

* `value_array_eq_ok_iff`, `elements_eq_ok_iff`, `members_eq_ok_iff`: one step of reading;
* `readsAlike`: a string is read alike if line ends are unified;
* `steady`: so are values, elements and members;
* `parse_unifyLines`: a text says the same with unified line ends.
-/

namespace Lowering

open CommandLine (unifyLines)

/-! ## Unified line ends -/

theorem unifyLines_cons {c : Char} (h : c ≠ '\r') (rest : List Char) :
    unifyLines (c :: rest) = c :: unifyLines rest := by
  rw [unifyLines]
  · rw [if_neg h]
  · intro _ hc
    exact absurd hc h

theorem unifyLines_append {cs : List Char} (h : '\r' ∉ cs) (rest : List Char) :
    unifyLines (cs ++ rest) = cs ++ unifyLines rest := by
  induction cs with
  | nil => rfl
  | cons c cs ih =>
    rw [List.mem_cons, not_or] at h
    rw [List.cons_append, unifyLines_cons (Ne.symm h.1), ih h.2, List.cons_append]

theorem unifyLines_eq_self {cs : List Char} (h : '\r' ∉ cs) : unifyLines cs = cs := by
  have happend := unifyLines_append h []
  rwa [List.append_nil, unifyLines, List.append_nil] at happend

theorem exists_unifyLines_return (rest : List Char) :
    ∃ more, unifyLines ('\r' :: rest) = '\n' :: more := by
  unfold unifyLines
  split
  · rename_i heq
    cases heq
  · exact ⟨_, rfl⟩
  · rename_i heq
    cases heq
    exact ⟨_, rfl⟩

theorem isEmpty_unifyLines (cs : List Char) : (unifyLines cs).isEmpty = cs.isEmpty := by
  fun_cases unifyLines cs <;> rfl

/-- A character that is no line feed was there before. -/
theorem eq_cons_of_unifyLines {cs ds : List Char} {c : Char} (h : unifyLines cs = c :: ds)
    (hc : c ≠ '\n') : ∃ rest, cs = c :: rest ∧ unifyLines rest = ds := by
  cases cs with
  | nil => cases h
  | cons d rest =>
    by_cases hd : d = '\r'
    · obtain ⟨more, hmore⟩ := exists_unifyLines_return rest
      rw [hd, hmore] at h
      exact absurd (List.cons.inj h).1.symm hc
    · rw [unifyLines_cons hd] at h
      obtain ⟨rfl, hrest⟩ := List.cons.inj h
      exact ⟨rest, rfl, hrest⟩

/-- A test that does not tell the characters of line ends apart drops the same characters. -/
theorem dropWhile_unifyLines {p : Char → Bool} (h : p '\r' = p '\n') (cs : List Char) :
    (unifyLines cs).dropWhile p = unifyLines (cs.dropWhile p) := by
  fun_induction unifyLines cs with
  | case1 => rfl
  | case2 rest ih =>
    cases hp : p '\n' with
    | true => simpa [List.dropWhile_cons, hp, h.trans hp] using ih
    | false => simp [hp, h.trans hp, unifyLines]
  | case3 c rest hne ih =>
    have hsame : p (if c = '\r' then '\n' else c) = p c := by
      split
      · rename_i hc
        rw [hc, h]
      · rfl
    rw [List.dropWhile_cons, List.dropWhile_cons, hsame, ih]
    cases p c with
    | true => rfl
    | false =>
      simp only [Bool.false_eq_true, if_false]
      rw [unifyLines]
      exact hne

theorem takeWhile_unifyLines {p : Char → Bool} (hr : p '\r' = false) (hn : p '\n' = false)
    (cs : List Char) : (unifyLines cs).takeWhile p = cs.takeWhile p := by
  fun_induction unifyLines cs with
  | case1 => rfl
  | case2 rest ih => simp [hr, hn]
  | case3 c rest hne ih =>
    by_cases hc : c = '\r'
    · simp [hc, hr, hn]
    · rw [if_neg hc, List.takeWhile_cons, List.takeWhile_cons, ih]

namespace Json

theorem skipSpace_unifyLines (cs : List Char) :
    skipSpace (unifyLines cs) = unifyLines (skipSpace cs) :=
  dropWhile_unifyLines rfl cs

/-! ## Numbers -/

theorem spanDigits_unifyLines (cs : List Char) :
    spanDigits (unifyLines cs) = ((spanDigits cs).1, unifyLines (spanDigits cs).2) := by
  rw [spanDigits, takeWhile_unifyLines rfl rfl, dropWhile_unifyLines rfl, spanDigits]

theorem scanWhole_unifyLines (cs : List Char) :
    scanWhole (unifyLines cs) =
      (scanWhole cs).map fun split => (split.1, unifyLines split.2) := by
  cases cs with
  | nil => rfl
  | cons c rest =>
    by_cases hc : c = '\r'
    · obtain ⟨more, hmore⟩ := exists_unifyLines_return rest
      rw [hc, hmore]
      rfl
    · have hspan := spanDigits_unifyLines (c :: rest)
      rw [unifyLines_cons hc] at hspan ⊢
      simp only [scanWhole, hspan]
      split
      · rfl
      · split <;> rfl

theorem scanFraction_unifyLines (cs : List Char) :
    scanFraction (unifyLines cs) = ((scanFraction cs).1, unifyLines (scanFraction cs).2) := by
  by_cases hpoint : ∃ rest, cs = '.' :: rest
  · obtain ⟨rest, rfl⟩ := hpoint
    rw [unifyLines_cons (by decide)]
    simp only [scanFraction, spanDigits_unifyLines]
    rcases spanDigits rest with ⟨_ | ⟨d, ds⟩, after⟩
    · simp [unifyLines_cons]
    · rfl
  · have hnone : ∀ {ds : List Char}, (¬∃ rest, ds = '.' :: rest) → scanFraction ds = ([], ds) := by
      intro ds hds
      rw [scanFraction]
      exact fun rest heq => hds ⟨rest, heq⟩
    rw [hnone hpoint, hnone]
    rintro ⟨rest, heq⟩
    obtain ⟨rest, rfl, -⟩ := eq_cons_of_unifyLines heq (by decide)
    exact hpoint ⟨rest, rfl⟩

/-- The sign of an exponent and the characters after it. -/
def exponentSign : List Char → Bool × List Char
  | '-' :: more => (true, more)
  | '+' :: more => (false, more)
  | more => (false, more)

theorem scanExponent_cons (e : Char) (rest : List Char) :
    scanExponent (e :: rest) =
      if e = 'e' ∨ e = 'E' then
        match spanDigits (exponentSign rest).2 with
        | ([], _) => (none, e :: rest)
        | (ds, after) => (some ((exponentSign rest).1, ds), after)
      else (none, e :: rest) := by
  rfl

theorem exponentSign_unifyLines (cs : List Char) :
    exponentSign (unifyLines cs) = ((exponentSign cs).1, unifyLines (exponentSign cs).2) := by
  by_cases hminus : ∃ more, cs = '-' :: more
  · obtain ⟨more, rfl⟩ := hminus
    rw [unifyLines_cons (by decide)]
    rfl
  · by_cases hplus : ∃ more, cs = '+' :: more
    · obtain ⟨more, rfl⟩ := hplus
      rw [unifyLines_cons (by decide)]
      rfl
    · have hnone : ∀ {ds : List Char}, (¬∃ more, ds = '-' :: more) → (¬∃ more, ds = '+' :: more) →
          exponentSign ds = (false, ds) := by
        intro ds hm hp
        rw [exponentSign]
        · exact fun more heq => hm ⟨more, heq⟩
        · exact fun more heq => hp ⟨more, heq⟩
      rw [hnone hminus hplus, hnone]
      · rintro ⟨more, heq⟩
        obtain ⟨rest, rfl, -⟩ := eq_cons_of_unifyLines heq (by decide)
        exact hminus ⟨rest, rfl⟩
      · rintro ⟨more, heq⟩
        obtain ⟨rest, rfl, -⟩ := eq_cons_of_unifyLines heq (by decide)
        exact hplus ⟨rest, rfl⟩

theorem scanExponent_unifyLines (cs : List Char) :
    scanExponent (unifyLines cs) = ((scanExponent cs).1, unifyLines (scanExponent cs).2) := by
  cases cs with
  | nil => rfl
  | cons e rest =>
    by_cases hreturn : e = '\r'
    · obtain ⟨more, hmore⟩ := exists_unifyLines_return rest
      subst hreturn
      rw [hmore]
      simp [scanExponent_cons, hmore]
    · rw [unifyLines_cons hreturn]
      simp only [scanExponent_cons, exponentSign_unifyLines, spanDigits_unifyLines]
      split
      · rcases spanDigits (exponentSign rest).2 with ⟨_ | ⟨d, ds⟩, after⟩
        · simp [unifyLines_cons hreturn]
        · rfl
      · simp [unifyLines_cons hreturn]

/-- The numeral after its sign. -/
def Numeral.after (negative : Bool) (unsigned : List Char) : Option (Numeral × List Char) :=
  (scanWhole unsigned).map fun split =>
    let fraction := scanFraction split.2
    let exponent := scanExponent fraction.2
    (⟨negative, split.1, fraction.1, exponent.1⟩, exponent.2)

theorem scan?_minus (rest : List Char) : Numeral.scan? ('-' :: rest) = Numeral.after true rest :=
  rfl

theorem scan?_unsigned {cs : List Char} (h : ¬∃ rest, cs = '-' :: rest) :
    Numeral.scan? cs = Numeral.after false cs := by
  unfold Numeral.scan?
  split
  rename_i negative unsigned hsplit
  split at hsplit
  · exact absurd ⟨_, rfl⟩ h
  · cases hsplit
    rfl

theorem after_unifyLines (negative : Bool) (cs : List Char) :
    Numeral.after negative (unifyLines cs) =
      (Numeral.after negative cs).map fun scanned => (scanned.1, unifyLines scanned.2) := by
  simp only [Numeral.after, scanWhole_unifyLines, Option.map_map]
  congr 1
  funext split
  simp [scanFraction_unifyLines, scanExponent_unifyLines]

theorem scan?_unifyLines (cs : List Char) :
    Numeral.scan? (unifyLines cs) =
      (Numeral.scan? cs).map fun scanned => (scanned.1, unifyLines scanned.2) := by
  by_cases hminus : ∃ rest, cs = '-' :: rest
  · obtain ⟨rest, rfl⟩ := hminus
    rw [unifyLines_cons (by decide), scan?_minus, scan?_minus, after_unifyLines]
  · rw [scan?_unsigned hminus, scan?_unsigned, after_unifyLines]
    rintro ⟨rest, heq⟩
    obtain ⟨rest, rfl, -⟩ := eq_cons_of_unifyLines heq (by decide)
    exact hminus ⟨rest, rfl⟩

theorem length_spanDigits (cs : List Char) :
    (spanDigits cs).1.length + (spanDigits cs).2.length = cs.length := by
  rw [spanDigits, ← List.length_append, List.takeWhile_append_dropWhile]

theorem length_scanWhole {cs : List Char} {split : List Char × List Char}
    (h : scanWhole cs = some split) : split.2.length < cs.length := by
  cases cs with
  | nil => cases h
  | cons c rest =>
    simp only [scanWhole] at h
    by_cases hz : c = '0'
    · rw [if_pos hz] at h
      cases h
      exact Nat.lt_succ_self _
    · rw [if_neg hz] at h
      by_cases hd : isDigit c = true
      · rw [if_pos hd] at h
        cases h
        have hlength := length_spanDigits (c :: rest)
        have hfirst : 0 < (spanDigits (c :: rest)).1.length := by simp [spanDigits, hd]
        omega
      · rw [if_neg hd] at h
        cases h

theorem length_scanFraction (cs : List Char) : (scanFraction cs).2.length ≤ cs.length := by
  unfold scanFraction
  split
  · rename_i rest
    have hlength := length_spanDigits rest
    split
    · exact Nat.le_refl _
    · simp only [List.length_cons]
      omega
  · exact Nat.le_refl _

theorem length_exponentSign (cs : List Char) : (exponentSign cs).2.length ≤ cs.length := by
  unfold exponentSign
  split <;> simp

theorem length_scanExponent (cs : List Char) : (scanExponent cs).2.length ≤ cs.length := by
  cases cs with
  | nil => exact Nat.le_refl _
  | cons e rest =>
    have hsign := length_exponentSign rest
    have hlength := length_spanDigits (exponentSign rest).2
    rw [scanExponent_cons]
    split
    · split
      · exact Nat.le_refl _
      · rename_i heq
        rw [heq] at hlength
        simp only [List.length_cons] at hlength ⊢
        omega
    · exact Nat.le_refl _

theorem length_after {negative : Bool} {cs : List Char} {scanned : Numeral × List Char}
    (h : Numeral.after negative cs = some scanned) : scanned.2.length < cs.length := by
  obtain ⟨split, hsplit, rfl⟩ := Option.map_eq_some_iff.mp h
  have hwhole := length_scanWhole hsplit
  have hfraction := length_scanFraction split.2
  have hexponent := length_scanExponent (scanFraction split.2).2
  dsimp only
  omega

theorem length_scan? {cs : List Char} {scanned : Numeral × List Char}
    (h : Numeral.scan? cs = some scanned) : scanned.2.length < cs.length := by
  by_cases hminus : ∃ rest, cs = '-' :: rest
  · obtain ⟨rest, rfl⟩ := hminus
    rw [scan?_minus] at h
    exact Nat.lt_succ_of_lt (length_after h)
  · rw [scan?_unsigned hminus] at h
    exact length_after h

/-- A reading that passes something, and the same in the text with unified line ends. -/
theorem numeral_unifyLines {cs rest : List Char} {v : Json} (h : numeral cs = .ok (v, rest)) :
    (unifyLines rest).length < (unifyLines cs).length ∧
      numeral (unifyLines cs) = .ok (v, unifyLines rest) := by
  have hunified := scan?_unifyLines cs
  unfold numeral at h ⊢
  cases hscan : Numeral.scan? cs with
  | none =>
    rw [hscan] at h
    cases h
  | some scanned =>
    obtain ⟨n, after⟩ := scanned
    simp only [hscan] at h hunified
    rw [Option.map_some] at hunified
    rw [hunified]
    cases hn : n.number with
    | error stop =>
      rw [hn] at h
      cases h
    | ok w =>
      rw [hn] at h
      cases h
      exact ⟨length_scan? hunified, by simp [hn, Except.map]⟩

/-! ## Strings -/

theorem exists_of_withPoint {point : Nat} {read : Except Stop (Text × List Char)}
    {t : Text} {rest : List Char} (h : withPoint point read = .ok (t, rest)) :
    ∃ more, read = .ok (more, rest) ∧ t = CodePoint.ofNat point :: more := by
  cases read with
  | error stop => cases h
  | ok read =>
    cases h
    exact ⟨read.1, rfl, rfl⟩

/-- A character that belongs to no line end. -/
def InLine (c : Char) : Prop :=
  c ≠ '\r' ∧ c ≠ '\n'

theorem inLine_of_hexValue? {c : Char} {n : Nat} (h : Text.hexValue? c = some n) : InLine c := by
  constructor <;> rintro rfl <;> cases h

theorem inLine_of_unit? {a b c d : Char} {unit : Nat} (h : unit? a b c d = some unit) :
    InLine a ∧ InLine b ∧ InLine c ∧ InLine d := by
  simp only [unit?, Option.bind_eq_bind, Option.bind_eq_some_iff] at h
  obtain ⟨_, ha, _, hb, _, hc, _, hd, -⟩ := h
  exact ⟨inLine_of_hexValue? ha, inLine_of_hexValue? hb, inLine_of_hexValue? hc,
    inLine_of_hexValue? hd⟩

theorem unifyLines_escape {a b c d : Char} (h : InLine a ∧ InLine b ∧ InLine c ∧ InLine d)
    (rest : List Char) :
    unifyLines ('\\' :: 'u' :: a :: b :: c :: d :: rest) =
      '\\' :: 'u' :: a :: b :: c :: d :: unifyLines rest := by
  rw [unifyLines_cons (by decide), unifyLines_cons (by decide), unifyLines_cons h.1.1,
    unifyLines_cons h.2.1.1, unifyLines_cons h.2.2.1.1, unifyLines_cons h.2.2.2.1]

/-- A first half of a pair that is followed by a second half. -/
def Pairs (unit : Nat) (rest : List Char) : Prop :=
  isHigh unit = true ∧ ∃ a b c d more low, rest = '\\' :: 'u' :: a :: b :: c :: d :: more ∧
    more.isEmpty = false ∧ unit? a b c d = some low ∧ isLow low = true

theorem pairs_of_unifyLines {unit : Nat} {rest : List Char} (h : Pairs unit (unifyLines rest)) :
    Pairs unit rest := by
  obtain ⟨hhigh, a, b, c, d, more, low, hrest, hmore, hunit, hlow⟩ := h
  obtain ⟨ha, hb, hc, hd⟩ := inLine_of_unit? hunit
  obtain ⟨rest₁, rfl, h₁⟩ := eq_cons_of_unifyLines hrest (by decide)
  obtain ⟨rest₂, rfl, h₂⟩ := eq_cons_of_unifyLines h₁ (by decide)
  obtain ⟨rest₃, rfl, h₃⟩ := eq_cons_of_unifyLines h₂ ha.2
  obtain ⟨rest₄, rfl, h₄⟩ := eq_cons_of_unifyLines h₃ hb.2
  obtain ⟨rest₅, rfl, h₅⟩ := eq_cons_of_unifyLines h₄ hc.2
  obtain ⟨rest₆, rfl, h₆⟩ := eq_cons_of_unifyLines h₅ hd.2
  rw [← h₆, isEmpty_unifyLines] at hmore
  exact ⟨hhigh, a, b, c, d, rest₆, low, rfl, hmore, hunit, hlow⟩

theorem stringBody_unit {opened rest : List Char} {a b c d : Char} {unit : Nat}
    {read : Text × List Char} (hunit : unit? a b c d = some unit)
    (hread : stringBody opened rest = .ok read) (hpairs : ¬Pairs unit rest) :
    stringBody opened ('\\' :: 'u' :: a :: b :: c :: d :: rest) = withPoint unit (.ok read) := by
  have hempty : rest.isEmpty = false := by
    cases rest with
    | nil => cases hread
    | cons => rfl
  rw [stringBody]
  simp only [hempty, hunit, Bool.false_eq_true, if_false]
  split
  · rename_i e f g h more
    split
    · rename_i hhigh
      simp only [Bool.and_eq_true, Bool.not_eq_true'] at hhigh
      cases hsecond : unit? e f g h with
      | none =>
        -- The escape that follows cannot be read.
        simp [stringBody, hhigh.2, hsecond] at hread
      | some second =>
        have hlow : isLow second = false := by
          cases hlow : isLow second with
          | false => rfl
          | true =>
            exact absurd ⟨hhigh.1, e, f, g, h, more, second, rfl, hhigh.2, hsecond, hlow⟩ hpairs
        simp only [hlow, Bool.false_eq_true, if_false, hread]
    · rw [hread]
  · rw [hread]

theorem stringBody_pair {opened more : List Char} {a b c d e f g h : Char} {high low : Nat}
    (hhigh : unit? a b c d = some high) (hlow : unit? e f g h = some low)
    (hh : isHigh high = true) (hl : isLow low = true) (hmore : more.isEmpty = false) :
    stringBody opened
        ('\\' :: 'u' :: a :: b :: c :: d :: '\\' :: 'u' :: e :: f :: g :: h :: more) =
      withPoint (pairPoint high low) (stringBody opened more) := by
  rw [stringBody]
  simp [hhigh, hlow, hh, hl, hmore]

/-- A string that is read alike, whatever it was opened in, if line ends are unified. -/
def ReadsAlike (opened cs : List Char) : Prop :=
  ∀ t rest, stringBody opened cs = .ok (t, rest) → ∀ again,
    (unifyLines rest).length < (unifyLines cs).length ∧
      stringBody again (unifyLines cs) = .ok (t, unifyLines rest)

theorem readsAlike_unit {opened rest : List Char} {a b c d : Char} {unit : Nat}
    (hunit : unit? a b c d = some unit) (hpairs : ¬Pairs unit rest) (ih : ReadsAlike opened rest)
    {t : Text} {left : List Char} (h : withPoint unit (stringBody opened rest) = .ok (t, left))
    (again : List Char) :
    (unifyLines left).length <
        (unifyLines ('\\' :: 'u' :: a :: b :: c :: d :: rest)).length ∧
      stringBody again (unifyLines ('\\' :: 'u' :: a :: b :: c :: d :: rest)) =
        .ok (t, unifyLines left) := by
  obtain ⟨more, hread, rfl⟩ := exists_of_withPoint h
  obtain ⟨hlength, hagain⟩ := ih more left hread again
  rw [unifyLines_escape (inLine_of_unit? hunit)]
  refine ⟨by simp only [List.length_cons]; omega, ?_⟩
  exact stringBody_unit hunit hagain fun hp => hpairs (pairs_of_unifyLines hp)

/-- Strings hold no line ends, so that they are read alike if these are unified. -/
theorem readsAlike (opened cs : List Char) : ReadsAlike opened cs := by
  intro t left h
  fun_induction stringBody opened cs generalizing t left with
  | case1 => cases h
  | case2 rest =>
    cases h
    intro again
    rw [unifyLines_cons (by decide)]
    exact ⟨Nat.lt_succ_self _, rfl⟩
  | case3 => cases h
  | case4 => cases h
  | case5 => cases h
  | case6 => cases h
  | case7 a b c d high hhigh e f g h' more hh low hlow hl _ ih =>
    simp only [Bool.and_eq_true, Bool.not_eq_true'] at hh
    obtain ⟨text, hread, rfl⟩ := exists_of_withPoint h
    intro again
    obtain ⟨hlength, hagain⟩ := ih text left hread again
    rw [unifyLines_escape (inLine_of_unit? hhigh), unifyLines_escape (inLine_of_unit? hlow),
      stringBody_pair hhigh hlow hh.1 hl (by rw [isEmpty_unifyLines]; exact hh.2), hagain]
    exact ⟨by simp only [List.length_cons]; omega, rfl⟩
  | case8 a b c d unit hunit e f g h' more _ low hlow hl _ ih =>
    refine readsAlike_unit hunit ?_ ih h
    rintro ⟨-, _, _, _, _, _, second, heq, -, hsecond, hsl⟩
    cases heq
    rw [hlow] at hsecond
    cases hsecond
    exact hl hsl
  | case9 a b c d unit hunit e f g h' more hh _ ih =>
    refine readsAlike_unit hunit ?_ ih h
    rintro ⟨hhigh, _, _, _, _, _, second, heq, hmore, -, -⟩
    cases heq
    exact hh (by simp [hhigh, hmore])
  | case10 a b c d unit hunit rest hform _ ih =>
    refine readsAlike_unit hunit ?_ ih h
    rintro ⟨-, _, _, _, _, _, _, heq, -, -, -⟩
    exact hform _ _ _ _ _ heq
  | case11 => cases h
  | case12 => cases h
  | case13 c rest _ hu d hd ih =>
    obtain ⟨text, hread, rfl⟩ := exists_of_withPoint h
    intro again
    obtain ⟨hlength, hagain⟩ := ih text left hread again
    have hc : c ≠ '\r' := by
      rintro rfl
      cases hd
    rw [unifyLines_cons (by decide), unifyLines_cons hc, stringBody_escape again hd, hagain]
    exact ⟨by simp only [List.length_cons]; omega, rfl⟩
  | case14 => cases h
  | case15 c rest hquote hlast _ hslash hcontrol ih =>
    obtain ⟨text, hread, rfl⟩ := exists_of_withPoint h
    intro again
    obtain ⟨hlength, hagain⟩ := ih text left hread again
    have hc : c ≠ '\r' := by
      rintro rfl
      exact hcontrol (by decide)
    have hb : c ≠ '\\' := by
      rintro rfl
      cases rest with
      | nil => exact hlast rfl rfl
      | cons d rest => exact hslash d rest rfl rfl
    rw [unifyLines_cons hc, stringBody_cons again hquote hb (by omega), hagain]
    exact ⟨by simp only [List.length_cons]; omega, rfl⟩

/-! ## Values -/

/-- No value starts with a closing bracket or a byte order mark. -/
theorem value_stray_ne_ok {c : Char} (hc : c = ']' ∨ c = '\uFEFF') (fuel : Nat) (cs : List Char)
    (r : Json × List Char) : value fuel (c :: cs) ≠ .ok r := by
  cases fuel with
  | zero => exact nofun
  | succ fuel =>
    have hnumeral : value (fuel + 1) (c :: cs) = numeral (c :: cs) := by
      rcases hc with rfl | rfl <;> rfl
    rw [hnumeral]
    rcases hc with rfl | rfl <;> simp [numeral, Numeral.scan?, scanWhole, isDigit]

theorem elements_bracket_ne_ok (fuel : Nat) (cs : List Char) (r : List Json × List Char) :
    elements fuel (']' :: cs) ≠ .ok r := by
  intro h
  cases fuel with
  | zero => cases h
  | succ fuel =>
    cases hv : value fuel (']' :: cs) with
    | ok r => exact value_stray_ne_ok (.inl rfl) fuel cs r hv
    | error stop => simp [elements, hv, bind, Except.bind] at h

theorem members_brace_ne_ok (fuel : Nat) (cs : List Char) (r : Members × List Char) :
    members fuel ('\x7d' :: cs) ≠ .ok r := by
  cases fuel <;> simp [members]

section Lists

variable {α : Type}

/-- A list after its opening bracket: it is closed at once, or its entries are read. -/
def Opened (close : Char) (read : List Char → Except Stop (List α × List Char)) (cs : List Char)
    (entries : List α) (rest : List Char) : Prop :=
  (skipSpace cs = close :: rest ∧ entries = []) ∨ read (skipSpace cs) = .ok (entries, rest)

/-- A list after an entry: it is closed, or a comma and further entries follow. -/
def Continued (close : Char) (read : List Char → Except Stop (List α × List Char)) (entry : α)
    (cs : List Char) (entries : List α) (rest : List Char) : Prop :=
  (skipSpace cs = close :: rest ∧ entries = [entry]) ∨
    ∃ next others, skipSpace cs = ',' :: next ∧ read (skipSpace next) = .ok (others, rest) ∧
      entries = entry :: others

/-- A reader that closes a list where its closing bracket comes first, and reads entries elsewhere. -/
theorem opened_iff {close : Char} {read : List Char → Except Stop (List α × List Char)}
    {wrap : List α → Json} {cs rest : List Char} {v : Json}
    {result : Except Stop (Json × List Char)} (hread : ∀ after r, read (close :: after) ≠ .ok r)
    (hclosed : ∀ after, skipSpace cs = close :: after → result = .ok (wrap [], after))
    (hentries : (∀ after, skipSpace cs ≠ close :: after) →
      result = (read (skipSpace cs)).map fun (entries, rest) => (wrap entries, rest)) :
    result = .ok (v, rest) ↔ ∃ entries, Opened close read cs entries rest ∧ v = wrap entries := by
  unfold Opened
  by_cases h : ∃ after, skipSpace cs = close :: after
  · obtain ⟨after, hafter⟩ := h
    rw [hclosed after hafter, hafter]
    simp only [hread, or_false, List.cons.injEq, true_and, Except.ok.injEq, Prod.mk.injEq]
    constructor
    · rintro ⟨rfl, rfl⟩
      exact ⟨[], ⟨rfl, rfl⟩, rfl⟩
    · rintro ⟨_, ⟨rfl, rfl⟩, rfl⟩
      exact ⟨rfl, rfl⟩
  · have hne := not_exists.mp h
    rw [hentries hne]
    simp only [hne rest, false_and, false_or]
    cases read (skipSpace cs) with
    | error stop => simp [Except.map]
    | ok found =>
      obtain ⟨entries, left⟩ := found
      simp only [Except.map, Except.ok.injEq, Prod.mk.injEq]
      constructor
      · rintro ⟨rfl, rfl⟩
        exact ⟨entries, ⟨rfl, rfl⟩, rfl⟩
      · rintro ⟨_, ⟨rfl, rfl⟩, rfl⟩
        exact ⟨rfl, rfl⟩

end Lists

theorem value_array_eq_ok_iff {fuel : Nat} {cs rest : List Char} {v : Json} :
    value (fuel + 1) ('[' :: cs) = .ok (v, rest) ↔
      ∃ items, Opened ']' (elements fuel) cs items rest ∧ v = .arr items := by
  refine opened_iff (elements_bracket_ne_ok fuel) (fun after h => ?_) fun h => ?_
  · rw [value, h]
    rfl
  · rw [value]
    split
    · exact absurd ‹_› (h _)
    · rfl

theorem value_object_eq_ok_iff {fuel : Nat} {cs rest : List Char} {v : Json} :
    value (fuel + 1) ('\x7b' :: cs) = .ok (v, rest) ↔
      ∃ ms, Opened '\x7d' (members fuel) cs ms rest ∧ v = .obj (settle ms) := by
  refine opened_iff (members_brace_ne_ok fuel) (fun after h => ?_) fun h => ?_
  · rw [value, h]
    rfl
  · rw [value]
    split
    · exact absurd ‹_› (h _)
    · rfl

theorem elements_eq_ok_iff {fuel : Nat} {cs rest : List Char} {vs : List Json} :
    elements (fuel + 1) cs = .ok (vs, rest) ↔
      ∃ v left, value fuel cs = .ok (v, left) ∧ Continued ']' (elements fuel) v left vs rest := by
  rw [elements]
  cases value fuel cs with
  | error stop => simp [bind, Except.bind]
  | ok read =>
    obtain ⟨v, left⟩ := read
    simp only [bind, Except.bind, Except.ok.injEq, Prod.mk.injEq, Continued]
    constructor
    · intro h
      refine ⟨v, left, ⟨rfl, rfl⟩, ?_⟩
      generalize skipSpace left = text at h ⊢
      split at h
      · cases h
        exact .inl ⟨rfl, rfl⟩
      · rename_i next
        cases hnext : elements fuel (skipSpace next) with
        | error stop => simp [hnext] at h
        | ok read =>
          rw [hnext] at h
          cases h
          exact .inr ⟨next, read.1, rfl, hnext, rfl⟩
      · cases h
    · rintro ⟨_, _, ⟨rfl, rfl⟩, ⟨heq, rfl⟩ | ⟨next, others, heq, hnext, rfl⟩⟩
      · simp only [heq]
      · simp only [heq, hnext]

theorem members_eq_ok_iff {fuel : Nat} {cs rest : List Char} {ms : Members} :
    members (fuel + 1) cs = .ok (ms, rest) ↔
      ∃ body name colon after v left, cs = '"' :: body ∧
        stringBody cs body = .ok (name, colon) ∧ skipSpace colon = ':' :: after ∧
        value fuel (skipSpace after) = .ok (v, left) ∧
        Continued '\x7d' (members fuel) (name, v) left ms rest := by
  constructor
  · intro h
    rw [members.eq_def] at h
    dsimp only at h
    split at h
    · rename_i body
      cases hbody : stringBody ('"' :: body) body with
      | error stop => simp [hbody, bind, Except.bind] at h
      | ok read =>
        obtain ⟨name, colon⟩ := read
        simp only [hbody, bind, Except.bind] at h
        generalize hcolon : skipSpace colon = text at h
        split at h
        · rename_i after
          cases hv : value fuel (skipSpace after) with
          | error stop => simp [hv] at h
          | ok read =>
            obtain ⟨v, left⟩ := read
            simp only [hv] at h
            refine ⟨body, name, colon, after, v, left, rfl, hbody, hcolon, hv, ?_⟩
            unfold Continued
            generalize skipSpace left = tail at h ⊢
            split at h
            · cases h
              exact .inl ⟨rfl, rfl⟩
            · rename_i next
              cases hnext : members fuel (skipSpace next) with
              | error stop => simp [hnext] at h
              | ok read =>
                rw [hnext] at h
                cases h
                exact .inr ⟨next, read.1, rfl, hnext, rfl⟩
            · cases h
        · cases h
    · cases h
  · rintro ⟨body, name, colon, after, v, left, rfl, hbody, hcolon, hv, hend⟩
    rcases hend with ⟨heq, rfl⟩ | ⟨next, others, heq, hnext, rfl⟩
    · simp only [members, hbody, hcolon, hv, heq, bind, Except.bind]
    · simp only [members, hbody, hcolon, hv, heq, hnext, bind, Except.bind]

/-! ## Line ends in values -/

/-- A reading that passes over something and, with fuel for twice the characters that it passes over,
does the same if line ends are unified. -/
def Steady {α : Type} (read : Nat → List Char → Except Stop (α × List Char)) (fuel : Nat) : Prop :=
  ∀ cs a rest, read fuel cs = .ok (a, rest) →
    (unifyLines rest).length < (unifyLines cs).length ∧
      ∀ more, 2 * (unifyLines cs).length ≤ more + 2 * (unifyLines rest).length →
        read more (unifyLines cs) = .ok (a, unifyLines rest)

theorem length_unifyLines_skipSpace (cs : List Char) :
    (unifyLines (skipSpace cs)).length ≤ (unifyLines cs).length := by
  rw [← skipSpace_unifyLines]
  exact (List.dropWhile_suffix _).length_le

/-- The next character after space is there before and after line ends are unified. -/
theorem skipSpace_unifyLines_of_eq {cs rest : List Char} {c : Char} (h : skipSpace cs = c :: rest)
    (hc : c ≠ '\r') :
    skipSpace (unifyLines cs) = c :: unifyLines rest ∧
      (unifyLines rest).length < (unifyLines cs).length := by
  have hlength := length_unifyLines_skipSpace cs
  rw [h, unifyLines_cons hc, List.length_cons] at hlength
  rw [skipSpace_unifyLines, h, unifyLines_cons hc]
  exact ⟨rfl, hlength⟩

section Lists

variable {α : Type} {close : Char} {read : Nat → List Char → Except Stop (List α × List Char)}
  {fuel : Nat} {cs rest : List Char} {entries : List α}

theorem opened_unifyLines (hclose : close ≠ '\r') (hread : Steady read fuel)
    (h : Opened close (read fuel) cs entries rest) :
    (unifyLines rest).length < (unifyLines cs).length ∧
      ∀ more, 2 * (unifyLines cs).length ≤ more + 2 * (unifyLines rest).length →
        Opened close (read more) (unifyLines cs) entries (unifyLines rest) := by
  rcases h with ⟨heq, rfl⟩ | hentries
  · obtain ⟨hnext, hlength⟩ := skipSpace_unifyLines_of_eq heq hclose
    exact ⟨hlength, fun more _ => .inl ⟨hnext, rfl⟩⟩
  · have hspace := length_unifyLines_skipSpace cs
    obtain ⟨hlength, hagain⟩ := hread _ _ _ hentries
    refine ⟨by omega, fun more hmore => .inr ?_⟩
    rw [skipSpace_unifyLines]
    exact hagain more (by omega)

theorem continued_unifyLines {entry : α} (hclose : close ≠ '\r') (hread : Steady read fuel)
    (h : Continued close (read fuel) entry cs entries rest) :
    (unifyLines rest).length < (unifyLines cs).length ∧
      ∀ more, 2 * (unifyLines cs).length ≤ more + 2 * (unifyLines rest).length →
        Continued close (read more) entry (unifyLines cs) entries (unifyLines rest) := by
  rcases h with ⟨heq, rfl⟩ | ⟨next, others, heq, hothers, rfl⟩
  · obtain ⟨hnext, hlength⟩ := skipSpace_unifyLines_of_eq heq hclose
    exact ⟨hlength, fun more _ => .inl ⟨hnext, rfl⟩⟩
  · obtain ⟨hcomma, hlength⟩ := skipSpace_unifyLines_of_eq heq (by decide)
    have hspace := length_unifyLines_skipSpace next
    obtain ⟨hpassed, hagain⟩ := hread _ _ _ hothers
    refine ⟨by omega, fun more hmore => .inr ⟨unifyLines next, others, hcomma, ?_, rfl⟩⟩
    rw [skipSpace_unifyLines]
    exact hagain more (by omega)

end Lists

theorem steady_word (word : List Char) {rest : List Char} {v : Json} (hword : '\r' ∉ word)
    (hne : word ≠ []) (hread : ∀ fuel rest, value (fuel + 1) (word ++ rest) = .ok (v, rest)) :
    (unifyLines rest).length < (unifyLines (word ++ rest)).length ∧
      ∀ more, 2 * (unifyLines (word ++ rest)).length ≤ more + 2 * (unifyLines rest).length →
        value more (unifyLines (word ++ rest)) = .ok (v, unifyLines rest) := by
  have hpos := List.length_pos_iff.mpr hne
  rw [unifyLines_append hword, List.length_append]
  refine ⟨by omega, fun more hmore => ?_⟩
  obtain ⟨fuel, rfl⟩ : ∃ k, more = k + 1 := ⟨more - 1, by omega⟩
  exact hread fuel _

theorem steady_value_step {fuel : Nat} (helements : Steady elements fuel)
    (hmembers : Steady members fuel) : Steady value (fuel + 1) := by
  intro cs v rest h
  have hread := h
  rw [value.eq_def] at h
  dsimp only at h
  split at h
  · rename_i body
    cases hbody : stringBody ('"' :: body) body with
    | error stop =>
      rw [hbody] at h
      cases h
    | ok read =>
      rw [hbody] at h
      cases h
      rw [unifyLines_cons (by decide), List.length_cons]
      obtain ⟨hlength, hagain⟩ := readsAlike _ _ _ _ hbody ('"' :: unifyLines body)
      refine ⟨by omega, fun more hmore => ?_⟩
      obtain ⟨k, rfl⟩ : ∃ k, more = k + 1 := ⟨more - 1, by omega⟩
      rw [value, hagain]
      rfl
  · obtain ⟨items, hitems, rfl⟩ := value_array_eq_ok_iff.mp hread
    obtain ⟨hlength, hagain⟩ := opened_unifyLines (by decide) helements hitems
    rw [unifyLines_cons (by decide), List.length_cons]
    refine ⟨by omega, fun more hmore => ?_⟩
    obtain ⟨k, rfl⟩ : ∃ k, more = k + 1 := ⟨more - 1, by omega⟩
    exact value_array_eq_ok_iff.mpr ⟨items, hagain k (by omega), rfl⟩
  · obtain ⟨ms, hms, rfl⟩ := value_object_eq_ok_iff.mp hread
    obtain ⟨hlength, hagain⟩ := opened_unifyLines (by decide) hmembers hms
    rw [unifyLines_cons (by decide), List.length_cons]
    refine ⟨by omega, fun more hmore => ?_⟩
    obtain ⟨k, rfl⟩ : ∃ k, more = k + 1 := ⟨more - 1, by omega⟩
    exact value_object_eq_ok_iff.mpr ⟨ms, hagain k (by omega), rfl⟩
  · cases h
    exact steady_word ['n', 'u', 'l', 'l'] (by decide) (by decide) fun _ _ => rfl
  · cases h
    exact steady_word ['t', 'r', 'u', 'e'] (by decide) (by decide) fun _ _ => rfl
  · cases h
    exact steady_word ['f', 'a', 'l', 's', 'e'] (by decide) (by decide) fun _ _ => rfl
  · cases h
    exact steady_word ['N', 'a', 'N'] (by decide) (by decide) fun _ _ => rfl
  · cases h
    exact steady_word ['I', 'n', 'f', 'i', 'n', 'i', 't', 'y'] (by decide) (by decide) fun _ _ => rfl
  · cases h
    exact steady_word ['-', 'I', 'n', 'f', 'i', 'n', 'i', 't', 'y'] (by decide) (by decide)
      fun _ _ => rfl
  · obtain ⟨hlength, hagain⟩ := numeral_unifyLines h
    refine ⟨hlength, fun more hmore => ?_⟩
    obtain ⟨k, rfl⟩ : ∃ k, more = k + 1 := ⟨more - 1, by omega⟩
    exact value_of_numeral hagain k

theorem steady_elements_step {fuel : Nat} (hvalue : Steady value fuel)
    (helements : Steady elements fuel) : Steady elements (fuel + 1) := by
  intro cs vs rest h
  obtain ⟨v, left, hv, hend⟩ := elements_eq_ok_iff.mp h
  obtain ⟨hfirst, hagain⟩ := hvalue _ _ _ hv
  obtain ⟨hlength, hothers⟩ := continued_unifyLines (by decide) helements hend
  refine ⟨by omega, fun more hmore => ?_⟩
  obtain ⟨k, rfl⟩ : ∃ k, more = k + 1 := ⟨more - 1, by omega⟩
  exact elements_eq_ok_iff.mpr ⟨v, _, hagain k (by omega), hothers k (by omega)⟩

theorem steady_members_step {fuel : Nat} (hvalue : Steady value fuel)
    (hmembers : Steady members fuel) : Steady members (fuel + 1) := by
  intro cs ms rest h
  obtain ⟨body, name, colon, after, v, left, rfl, hbody, hcolon, hv, hend⟩ := members_eq_ok_iff.mp h
  obtain ⟨hname, hstring⟩ := readsAlike _ _ _ _ hbody ('"' :: unifyLines body)
  obtain ⟨hafter, hpassed⟩ := skipSpace_unifyLines_of_eq hcolon (by decide)
  have hspace := length_unifyLines_skipSpace after
  obtain ⟨hfirst, hagain⟩ := hvalue _ _ _ hv
  obtain ⟨hlength, hothers⟩ := continued_unifyLines (by decide) hmembers hend
  rw [← skipSpace_unifyLines] at hagain hfirst hspace
  rw [unifyLines_cons (by decide), List.length_cons]
  refine ⟨by omega, fun more hmore => ?_⟩
  obtain ⟨k, rfl⟩ : ∃ k, more = k + 1 := ⟨more - 1, by omega⟩
  exact members_eq_ok_iff.mpr ⟨unifyLines body, name, unifyLines colon, unifyLines after, v, _, rfl,
    hstring, hafter, hagain k (by omega), hothers k (by omega)⟩

theorem steady (fuel : Nat) :
    Steady value fuel ∧ Steady elements fuel ∧ Steady members fuel := by
  induction fuel with
  | zero =>
    refine ⟨?_, ?_, ?_⟩ <;>
    · intro cs a rest h
      cases h
  | succ fuel ih =>
    obtain ⟨hvalue, helements, hmembers⟩ := ih
    exact ⟨steady_value_step helements hmembers, steady_elements_step hvalue helements,
      steady_members_step hvalue hmembers⟩

/-! ## Texts -/

/-- A value with nothing but space around it is what the text with unified line ends says, however
much fuel it took to read it. -/
theorem whole_unifyLines_of_value {fuel : Nat} {cs rest : List Char} {v : Json}
    (hread : value fuel (skipSpace cs) = .ok (v, rest)) (hrest : skipSpace rest = []) :
    whole (unifyLines cs) = .ok v := by
  have hspace := length_unifyLines_skipSpace cs
  have hagain := ((steady fuel).1 _ _ _ hread).2 (2 * (unifyLines cs).length + 2) (by omega)
  have hleft : skipSpace (unifyLines rest) = [] := by rw [skipSpace_unifyLines, hrest]; rfl
  rw [whole]
  · rw [skipSpace_unifyLines]
    simp only [hagain, hleft, bind, Except.bind]
  · intro more heq
    obtain ⟨before, rfl, -⟩ := eq_cons_of_unifyLines heq (by decide)
    exact value_stray_ne_ok (.inr rfl) _ _ _ hread

theorem whole_unifyLines {cs : List Char} {v : Json} (h : whole cs = .ok v) :
    whole (unifyLines cs) = .ok v := by
  unfold whole at h
  split at h
  · cases h
  · cases hread : value (2 * cs.length + 2) (skipSpace cs) with
    | error stop => simp [hread, bind, Except.bind] at h
    | ok read =>
      obtain ⟨w, rest⟩ := read
      simp only [hread, bind, Except.bind] at h
      cases hrest : skipSpace rest with
      | cons c more => simp [hrest] at h
      | nil =>
        rw [hrest] at h
        cases h
        exact whole_unifyLines_of_value hread hrest

theorem parse_eq_ok_iff {text : String} {v : Json} :
    parse text = .ok v ↔ whole text.toList = .ok v := by
  unfold parse
  cases whole text.toList with
  | ok w => simp
  | error stop => cases stop <;> simp

/-- A text that is read says the same if its line ends are unified. -/
theorem parse_unifyLines {text : String} {v : Json} (h : parse text = .ok v) :
    parse (String.ofList (unifyLines text.toList)) = .ok v := by
  rw [parse_eq_ok_iff] at h ⊢
  rw [String.toList_ofList]
  exact whole_unifyLines h

end Json

end Lowering
