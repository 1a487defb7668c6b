import Lowering.Proofs.LineEnds
import Lowering.Proofs.Utf8

/-!
# Written values are read back

What the writer makes of a value is read as this value, provided that its integers can be written and
that it holds no floating point number, no surrogate and no name twice.

* `stringBody_escapePoint`: what is written for a character is read as this character;
* `numeral_intText`: what is written for an integer is read as this integer;
* `Json.IsExact`: the values that reading restores;
* `readsBack`: such values are read as they are written, whatever stands behind them;
* `parse_pretty`: so are whole texts, also with a line feed at the end.
-/

namespace Lowering

theorem CodePoint.ofNat_toNat_char (c : Char) : CodePoint.ofNat c.toNat = .char c := by
  have hvalid : c.toNat < 0xD800 ∨ 0xDFFF < c.toNat ∧ c.toNat < 0x110000 := c.valid
  rw [CodePoint.ofNat, dif_neg (by omega), Char.ofNat_toNat]

namespace Json

/-! ## Strings -/

theorem hexValue?_digitChar {n : Nat} (h : n < 16) : Text.hexValue? (Nat.digitChar n) = some n := by
  have hall : ∀ k : Fin 16, Text.hexValue? (Nat.digitChar k) = some k.val := by decide
  exact hall ⟨n, h⟩

theorem hexDigits_four (n : Nat) :
    Text.hexDigits 4 n = [Nat.digitChar (n / 4096 % 16), Nat.digitChar (n / 256 % 16),
      Nat.digitChar (n / 16 % 16), Nat.digitChar (n % 16)] := by
  simp only [Text.hexDigits, Nat.div_div_eq_div_mul]
  rfl

theorem unit?_hexDigits {n : Nat} (h : n < 0x10000) :
    unit? (Nat.digitChar (n / 4096 % 16)) (Nat.digitChar (n / 256 % 16))
      (Nat.digitChar (n / 16 % 16)) (Nat.digitChar (n % 16)) = some n := by
  have hmod : ∀ k, k % 16 < 16 := fun k => Nat.mod_lt k (by decide)
  simp only [unit?, hexValue?_digitChar (hmod _)]
  change some _ = some n
  congr 1
  omega

/-- The ways to write a code point inside a string. -/
inductive Escapes (point : Nat) : List Char → Prop where
  | short {letter d : Char} (hd : unescape? letter = some d) (heq : point = d.toNat) :
    Escapes point ['\\', letter]
  | plain (hlow : 32 ≤ point) (hhigh : point ≤ 126) (hquote : point ≠ 34) (hslash : point ≠ 92) :
    Escapes point [Char.ofNat point]
  | unit (hunit : point < 0x10000) : Escapes point (unitEscape point)
  | pair (hlong : 0x10000 ≤ point) :
    Escapes point (unitEscape (0xD800 + (point - 0x10000) / 0x400) ++
      unitEscape (0xDC00 + (point - 0x10000) % 0x400))

theorem Escapes.short_or {point k : Nat} {letter d : Char} {other : List Char}
    (hd : unescape? letter = some d) (hk : d.toNat = k)
    (hother : point ≠ k → Escapes point other) :
    Escapes point (if point = k then ['\\', letter] else other) := by
  by_cases h : point = k
  · rw [if_pos h]
    exact .short hd (h.trans hk.symm)
  · rw [if_neg h]
    exact hother h

theorem escapes_escapePoint (point : Nat) : Escapes point (escapePoint point) := by
  refine .short_or (d := '"') rfl rfl fun hquote => ?_
  refine .short_or (d := '\\') rfl rfl fun hslash => ?_
  refine .short_or (d := '\n') rfl rfl fun _ => ?_
  refine .short_or (d := '\r') rfl rfl fun _ => ?_
  refine .short_or (d := '\t') rfl rfl fun _ => ?_
  refine .short_or (d := Char.ofNat 12) rfl rfl fun _ => ?_
  refine .short_or (d := Char.ofNat 8) rfl rfl fun _ => ?_
  by_cases hprintable : 32 ≤ point ∧ point ≤ 126
  · rw [if_pos hprintable]
    exact .plain hprintable.1 hprintable.2 hquote hslash
  rw [if_neg hprintable]
  by_cases hunit : point < 0x10000
  · rw [if_pos hunit]
    exact .unit hunit
  · rw [if_neg hunit]
    exact .pair (Nat.le_of_not_lt hunit)

section Strings

variable {opened rest : List Char} {read : Text × List Char}

theorem stringBody_unitEscape {unit : Nat} (hunit : unit < 0x10000) (hhigh : isHigh unit = false)
    (hread : stringBody opened rest = .ok read) :
    stringBody opened (unitEscape unit ++ rest) = withPoint unit (.ok read) := by
  rw [unitEscape, hexDigits_four]
  refine stringBody_unit (unit?_hexDigits hunit) hread ?_
  rintro ⟨hpair, -⟩
  rw [hhigh] at hpair
  cases hpair

theorem stringBody_pairEscape {high low : Nat} (hhigh : isHigh high = true)
    (hlow : isLow low = true) (hread : stringBody opened rest = .ok read) :
    stringBody opened (unitEscape high ++ (unitEscape low ++ rest)) =
      withPoint (pairPoint high low) (.ok read) := by
  have hh : high < 0x10000 := by
    simp only [isHigh, Bool.and_eq_true, decide_eq_true_eq] at hhigh
    omega
  have hl : low < 0x10000 := by
    simp only [isLow, Bool.and_eq_true, decide_eq_true_eq] at hlow
    omega
  have hrest : rest.isEmpty = false := by
    cases rest with
    | nil => cases hread
    | cons => rfl
  rw [unitEscape, unitEscape, hexDigits_four, hexDigits_four, ← hread]
  exact stringBody_pair (unit?_hexDigits hh) (unit?_hexDigits hl) hhigh hlow hrest

theorem pairPoint_halves {point : Nat} (h : 0x10000 ≤ point) :
    pairPoint (0xD800 + (point - 0x10000) / 0x400) (0xDC00 + (point - 0x10000) % 0x400) = point := by
  unfold pairPoint
  omega

/-- What is written for a character is read as this character. -/
theorem stringBody_escapePoint (c : Char) (hread : stringBody opened rest = .ok read) :
    stringBody opened (escapePoint c.toNat ++ rest) = withPoint c.toNat (.ok read) := by
  have hvalid : c.toNat < 0xD800 ∨ 0xDFFF < c.toNat ∧ c.toNat < 0x110000 := c.valid
  have hescapes := escapes_escapePoint c.toNat
  generalize escapePoint c.toNat = written at hescapes
  cases hescapes with
  | short hd heq =>
    rw [heq, ← hread]
    exact stringBody_escape opened hd rest
  | plain hprintable _ hquote hslash =>
    rw [Char.ofNat_toNat, ← hread]
    refine stringBody_cons opened ?_ ?_ hprintable rest
    · rintro rfl
      exact hquote rfl
    · rintro rfl
      exact hslash rfl
  | unit hunit =>
    refine stringBody_unitEscape hunit ?_ hread
    simp only [isHigh, Bool.and_eq_false_iff, decide_eq_false_iff_not]
    omega
  | pair hlong =>
    rw [List.append_assoc, stringBody_pairEscape ?_ ?_ hread, pairPoint_halves hlong]
    · simp only [isHigh, Bool.and_eq_true, decide_eq_true_eq]
      omega
    · simp only [isLow, Bool.and_eq_true, decide_eq_true_eq]
      omega

end Strings

theorem stringBody_escaped (opened rest : List Char) {t : Text} (h : t.IsClean) :
    stringBody opened (t.flatMap (fun p => escapePoint p.toNat) ++ '"' :: rest) = .ok (t, rest) := by
  induction t with
  | nil => rfl
  | cons p t ih =>
    cases p with
    | surrogate index => exact absurd List.mem_cons_self (h index)
    | char c =>
      have hrest := ih fun index hmem => h index (List.mem_cons_of_mem _ hmem)
      rw [List.flatMap_cons, List.append_assoc, CodePoint.toNat, stringBody_escapePoint c hrest]
      simp [withPoint, Except.map, CodePoint.ofNat_toNat_char]

theorem exists_body_of_stringText (opened rest : List Char) {t : Text} (h : t.IsClean) :
    ∃ body, stringText t ++ rest = '"' :: body ∧ stringBody opened body = .ok (t, rest) := by
  refine ⟨t.flatMap (fun p => escapePoint p.toNat) ++ '"' :: rest, ?_,
    stringBody_escaped opened rest h⟩
  rw [stringText, List.append_assoc]
  rfl

/-! ## Integers -/

theorem natOfDigits_toDigits (n : Nat) : natOfDigits (Nat.toDigits 10 n) = n := by
  have hstep : (fun sofar (c : Char) => 10 * sofar + (c.toNat - '0'.toNat)) =
      fun sofar c => sofar * 10 + (c.toNat - 48) := by
    funext sofar c
    rw [Nat.mul_comm]
    rfl
  have hvalue : Nat.ofDigitChars 10 (Nat.toDigits 10 n) 0 = n := Nat.ofDigitChars_ten_toDigits
  rw [Nat.ofDigitChars_eq_foldl, hstep] at hvalue
  exact hvalue

theorem isDigit_of_mem_toDigits {n : Nat} {c : Char} (h : c ∈ Nat.toDigits 10 n) :
    isDigit c = true := by
  have hdigit := Char.isDigit_iff_toNat.mp
    (Nat.isDigit_of_mem_toDigits (by decide) (by decide) h)
  simp only [isDigit, Bool.and_eq_true, decide_eq_true_eq]
  exact hdigit

/-- The numeral of a positive number does not start with a zero. -/
theorem exists_toDigits_cons {n : Nat} (h : n ≠ 0) :
    ∃ d ds, Nat.toDigits 10 n = d :: ds ∧ d ≠ '0' := by
  induction n using Nat.strongRecOn with
  | _ n ih =>
    by_cases hlt : n < 10
    · exact ⟨_, [], Nat.toDigits_of_lt_base hlt, fun hz => h (Nat.digitChar_eq_zero.mp hz)⟩
    · obtain ⟨d, ds, hds, hd⟩ := ih (n / 10) (by omega) (by omega)
      refine ⟨d, ds ++ [(n % 10).digitChar], ?_, hd⟩
      rw [Nat.toDigits_of_base_le (by decide) (by omega), hds, List.cons_append]

/-- Characters with which no numeral goes on. -/
def EndsNumeral (rest : List Char) : Prop :=
  ∀ c ∈ rest.head?, isDigit c = false ∧ c ≠ '.' ∧ c ≠ 'e' ∧ c ≠ 'E'

theorem endsNumeral_cons {c : Char} (h : isDigit c = false ∧ c ≠ '.' ∧ c ≠ 'e' ∧ c ≠ 'E')
    (rest : List Char) : EndsNumeral (c :: rest) := by
  intro d hd
  cases hd
  exact h

section Numerals

variable {rest : List Char} (hrest : EndsNumeral rest)
include hrest

theorem spanDigits_append {ds : List Char} (hds : ∀ d ∈ ds, isDigit d = true) :
    spanDigits (ds ++ rest) = (ds, rest) := by
  rw [spanDigits, List.takeWhile_append_of_pos hds, List.dropWhile_append_of_pos hds]
  cases rest with
  | nil => simp
  | cons c rest => simp [(hrest c rfl).1]

theorem scanWhole_toDigits (n : Nat) :
    scanWhole (Nat.toDigits 10 n ++ rest) = some (Nat.toDigits 10 n, rest) := by
  by_cases hn : n = 0
  · subst hn
    rfl
  · have hall : ∀ d ∈ Nat.toDigits 10 n, isDigit d = true := fun d => isDigit_of_mem_toDigits
    obtain ⟨d, ds, hds, hd⟩ := exists_toDigits_cons hn
    have hspan := spanDigits_append hrest hall
    rw [hds] at hall hspan ⊢
    rw [List.cons_append] at hspan ⊢
    rw [scanWhole, if_neg hd, if_pos (hall d List.mem_cons_self), hspan]

theorem scanFraction_of_endsNumeral : scanFraction rest = ([], rest) := by
  unfold scanFraction
  split
  · exact absurd rfl (hrest '.' rfl).2.1
  · rfl

theorem scanExponent_of_endsNumeral : scanExponent rest = (none, rest) := by
  cases rest with
  | nil => rfl
  | cons c rest =>
    obtain ⟨-, -, hlower, hupper⟩ := hrest c rfl
    rw [scanExponent_cons, if_neg (by simp [hlower, hupper])]

theorem after_toDigits (negative : Bool) (n : Nat) :
    Numeral.after negative (Nat.toDigits 10 n ++ rest) =
      some ({ negative := negative, whole := Nat.toDigits 10 n }, rest) := by
  simp only [Numeral.after, scanWhole_toDigits hrest, Option.map_some,
    scanFraction_of_endsNumeral hrest, scanExponent_of_endsNumeral hrest]

theorem scan?_intText (n : Int) :
    Numeral.scan? (intText n ++ rest) =
      some ({ negative := decide (n < 0), whole := Nat.toDigits 10 n.natAbs }, rest) := by
  unfold intText
  by_cases hn : n < 0
  · rw [if_pos hn, List.cons_append, scan?_minus, after_toDigits hrest, decide_eq_true hn]
  · rw [if_neg hn, scan?_unsigned, after_toDigits hrest, decide_eq_false hn]
    rintro ⟨cs, heq⟩
    have hscan := scanWhole_toDigits hrest n.natAbs
    rw [heq] at hscan
    cases hscan

end Numerals

theorem isWritable_iff {n : Int} :
    Lowering.isWritable n = true ↔ (Nat.toDigits 10 n.natAbs).length ≤ maxDigits := by
  have hpos : 0 < maxDigits := by decide
  unfold Lowering.isWritable
  generalize maxDigits = digits at hpos ⊢
  rw [Nat.length_toDigits_le_iff (by decide) hpos]
  exact decide_eq_true_iff

/-- What is written for an integer is read as this integer. -/
theorem numeral_intText {n : Int} (h : Lowering.isWritable n = true) {rest : List Char}
    (hrest : EndsNumeral rest) : numeral (intText n ++ rest) = .ok (.int n, rest) := by
  have hlength := isWritable_iff.mp h
  have hvalue : (if decide (n < 0) = true then -(n.natAbs : Int) else n.natAbs) = n := by
    simp only [decide_eq_true_eq]
    split <;> omega
  simp only [numeral, scan?_intText hrest, Numeral.number]
  rw [if_neg (by omega), natOfDigits_toDigits, hvalue]
  rfl

/-! ## Values -/

mutual

/-- A value that reading restores: it holds no floating point number, no surrogate and no name
twice. -/
def IsExact : Json → Prop
  | .float _ => False
  | .str s => s.IsClean
  | .arr items => AreExact items
  | .obj members => (members.map Prod.fst).Nodup ∧ AreExactMembers members
  | _ => True

def AreExact : List Json → Prop
  | [] => True
  | v :: vs => v.IsExact ∧ AreExact vs

def AreExactMembers : Members → Prop
  | [] => True
  | (name, v) :: ms => name.IsClean ∧ v.IsExact ∧ AreExactMembers ms

end

theorem skipSpace_newline (level : Nat) (rest : List Char) :
    skipSpace (newline level ++ rest) = skipSpace rest := by
  have hspace : ∀ c ∈ newline level, isSpace c = true := by
    intro c hc
    rcases List.mem_cons.mp hc with rfl | hc
    · rfl
    · cases List.eq_of_mem_replicate hc
      rfl
  rw [skipSpace, List.dropWhile_append_of_pos hspace, skipSpace]

theorem skipSpace_cons {c : Char} (h : isSpace c = false) (rest : List Char) :
    skipSpace (c :: rest) = c :: rest := by
  rw [skipSpace, List.dropWhile_cons_of_neg (by simp [h])]

theorem skipSpace_stringText (t : Text) (rest : List Char) :
    skipSpace (stringText t ++ rest) = stringText t ++ rest := by
  rw [stringText, List.cons_append, List.cons_append, skipSpace_cons rfl]

theorem isSpace_of_isDigit {c : Char} (h : isDigit c = true) : isSpace c = false := by
  cases hs : isSpace c with
  | false => rfl
  | true =>
    simp only [isSpace, Bool.or_eq_true, beq_iff_eq] at hs
    rcases hs with ((rfl | rfl) | rfl) | rfl <;> cases h

theorem skipSpace_intText (n : Int) (rest : List Char) :
    skipSpace (intText n ++ rest) = intText n ++ rest := by
  have hne : Nat.toDigits 10 n.natAbs ≠ [] := Nat.toDigits_ne_nil
  obtain ⟨d, ds, hds⟩ := List.exists_cons_of_ne_nil hne
  have hd : isDigit d = true := isDigit_of_mem_toDigits (hds ▸ List.mem_cons_self)
  unfold intText
  split
  · rw [List.cons_append, skipSpace_cons rfl]
  · rw [hds, List.cons_append, skipSpace_cons (isSpace_of_isDigit hd)]

/-- A value does not start with space. -/
theorem skipSpace_prettyAt (level : Nat) (rest : List Char) {v : Json} (h : v.IsExact) :
    skipSpace (prettyAt level rest v) = prettyAt level rest v := by
  match v, h with
  | .null, _ => rw [prettyAt, skipSpace_cons rfl]
  | .bool true, _ => rw [prettyAt, skipSpace_cons rfl]
  | .bool false, _ => rw [prettyAt, skipSpace_cons rfl]
  | .int n, _ => rw [prettyAt, skipSpace_intText]
  | .str s, _ => rw [prettyAt, skipSpace_stringText]
  | .arr [], _ => rw [prettyAt, skipSpace_cons rfl]
  | .arr (v :: vs), _ => rw [prettyAt, List.cons_append, skipSpace_cons rfl]
  | .obj [], _ => rw [prettyAt, skipSpace_cons rfl]
  | .obj ((name, v) :: ms), _ =>
    rw [prettyAt, List.cons_append, List.cons_append, skipSpace_cons rfl]

theorem endsNumeral_newline (level : Nat) (rest : List Char) :
    EndsNumeral (newline level ++ rest) :=
  endsNumeral_cons (by decide) _

theorem endsNumeral_prettyItems (level : Nat) {rest : List Char} (h : EndsNumeral rest)
    (items : List Json) : EndsNumeral (prettyItems level rest items) := by
  cases items with
  | nil => rwa [prettyItems]
  | cons v vs =>
    rw [prettyItems]
    exact endsNumeral_cons (by decide) _

theorem endsNumeral_prettyMembers (level : Nat) {rest : List Char} (h : EndsNumeral rest)
    (members : Members) : EndsNumeral (prettyMembers level rest members) := by
  rcases members with _ | ⟨⟨name, v⟩, ms⟩
  · rwa [prettyMembers]
  · rw [prettyMembers]
    exact endsNumeral_cons (by decide) _

theorem put_of_not_mem {name : Text} {v : Json} {ms : Members} (h : name ∉ ms.map Prod.fst) :
    put name v ms = ms ++ [(name, v)] := by
  induction ms with
  | nil => rfl
  | cons m ms ih =>
    simp only [List.map_cons, List.mem_cons, not_or] at h
    rw [put, if_neg (Ne.symm h.1), ih h.2, List.cons_append]

theorem foldl_put {settled ms : Members} (h : ((settled ++ ms).map Prod.fst).Nodup) :
    ms.foldl (fun settled m => put m.1 m.2 settled) settled = settled ++ ms := by
  induction ms generalizing settled with
  | nil => simp
  | cons m ms ih =>
    have hfresh : m.1 ∉ settled.map Prod.fst := by
      rw [List.map_append, List.nodup_append] at h
      intro hmem
      exact h.2.2 _ hmem _ List.mem_cons_self rfl
    rw [List.foldl_cons, put_of_not_mem hfresh, ih (by simpa using h), List.append_assoc]
    rfl

/-- Members with different names are kept as they are. -/
theorem settle_of_nodup {ms : Members} (h : (ms.map Prod.fst).Nodup) : settle ms = ms :=
  foldl_put h

/-- With this fuel, values up to this size are read as they are written. -/
structure ReadsBack (fuel : Nat) : Prop where
  value : ∀ v : Json, v.IsExact → v.isWritable = true → sizeOf v ≤ fuel →
    ∀ level rest, EndsNumeral rest → value fuel (prettyAt level rest v) = .ok (v, rest)
  elements : ∀ (v : Json) (vs : List Json), AreExact (v :: vs) → areWritable (v :: vs) = true →
    sizeOf (v :: vs) ≤ fuel → ∀ outer level rest,
      elements fuel (prettyAt level (prettyItems level (newline outer ++ ']' :: rest) vs) v) =
        .ok (v :: vs, rest)
  members : ∀ (name : Text) (v : Json) (ms : Members), AreExactMembers ((name, v) :: ms) →
    areWritableMembers ((name, v) :: ms) = true → sizeOf ((name, v) :: ms) ≤ fuel →
      ∀ outer level rest,
        members fuel (stringText name ++ ':' :: ' ' ::
            prettyAt level (prettyMembers level (newline outer ++ '\x7d' :: rest) ms) v) =
          .ok ((name, v) :: ms, rest)

section Step

variable {fuel : Nat} (h : ReadsBack fuel)
include h

theorem value_step (v : Json) (hv : v.IsExact) (hw : v.isWritable = true)
    (hsize : sizeOf v ≤ fuel + 1) (level : Nat) (rest : List Char) (hrest : EndsNumeral rest) :
    value (fuel + 1) (prettyAt level rest v) = .ok (v, rest) := by
  match v, hv, hw, hsize with
  | .null, _, _, _ => rw [prettyAt, value]
  | .bool true, _, _, _ => rw [prettyAt, value]
  | .bool false, _, _, _ => rw [prettyAt, value]
  | .int n, _, hw, _ =>
    rw [prettyAt]
    exact value_of_numeral (numeral_intText hw hrest) fuel
  | .str s, hv, _, _ =>
    rw [prettyAt]
    obtain ⟨body, hbody, hread⟩ := exists_body_of_stringText (stringText s ++ rest) rest hv
    rw [hbody] at hread ⊢
    rw [value, hread]
    rfl
  | .arr [], _, _, _ =>
    rw [prettyAt]
    exact value_array_eq_ok_iff.mpr ⟨[], .inl ⟨skipSpace_cons rfl rest, rfl⟩, rfl⟩
  | .arr (v :: vs), hv, hw, hsize =>
    rw [Json.arr.sizeOf_spec] at hsize
    have hread := h.elements v vs hv hw (by omega) level (level + 1) rest
    rw [prettyAt, List.cons_append, value_array_eq_ok_iff]
    refine ⟨v :: vs, .inr ?_, rfl⟩
    rw [skipSpace_newline, skipSpace_prettyAt _ _ hv.1, hread]
  | .obj [], _, _, _ =>
    rw [prettyAt]
    exact value_object_eq_ok_iff.mpr ⟨[], .inl ⟨skipSpace_cons rfl rest, rfl⟩, rfl⟩
  | .obj ((name, v) :: ms), hv, hw, hsize =>
    rw [Json.obj.sizeOf_spec] at hsize
    have hread := h.members name v ms hv.2 hw (by omega) level (level + 1) rest
    rw [prettyAt, List.cons_append, List.cons_append, value_object_eq_ok_iff]
    refine ⟨(name, v) :: ms, .inr ?_, by rw [settle_of_nodup hv.1]⟩
    rw [List.append_assoc, skipSpace_newline, skipSpace_stringText, hread]

theorem elements_step (v : Json) (vs : List Json) (hv : AreExact (v :: vs))
    (hw : areWritable (v :: vs) = true) (hsize : sizeOf (v :: vs) ≤ fuel + 1) (outer level : Nat)
    (rest : List Char) :
    elements (fuel + 1)
        (prettyAt level (prettyItems level (newline outer ++ ']' :: rest) vs) v) =
      .ok (v :: vs, rest) := by
  rw [List.cons.sizeOf_spec] at hsize
  rw [areWritable, Bool.and_eq_true] at hw
  have hends := endsNumeral_prettyItems level (endsNumeral_newline outer (']' :: rest)) vs
  have hfirst := h.value v hv.1 hw.1 (by omega) level _ hends
  refine elements_eq_ok_iff.mpr ⟨v, _, hfirst, ?_⟩
  cases vs with
  | nil => exact .inl ⟨by rw [prettyItems, skipSpace_newline, skipSpace_cons rfl], rfl⟩
  | cons w ws =>
    have hmore := h.elements w ws hv.2 hw.2 (by omega) outer level rest
    refine .inr ⟨_, w :: ws, by rw [prettyItems, List.cons_append, skipSpace_cons rfl], ?_, rfl⟩
    rw [skipSpace_newline, skipSpace_prettyAt _ _ hv.2.1, hmore]

theorem members_step (name : Text) (v : Json) (ms : Members)
    (hv : AreExactMembers ((name, v) :: ms)) (hw : areWritableMembers ((name, v) :: ms) = true)
    (hsize : sizeOf ((name, v) :: ms) ≤ fuel + 1) (outer level : Nat) (rest : List Char) :
    members (fuel + 1) (stringText name ++ ':' :: ' ' ::
        prettyAt level (prettyMembers level (newline outer ++ '\x7d' :: rest) ms) v) =
      .ok ((name, v) :: ms, rest) := by
  rw [List.cons.sizeOf_spec, Prod.mk.sizeOf_spec] at hsize
  rw [areWritableMembers, Bool.and_eq_true] at hw
  have hends := endsNumeral_prettyMembers level (endsNumeral_newline outer ('\x7d' :: rest)) ms
  have hfirst := h.value v hv.2.1 hw.1 (by omega) level _ hends
  generalize htail : prettyMembers level (newline outer ++ '\x7d' :: rest) ms = tail at hfirst ⊢
  obtain ⟨body, hbody, hread⟩ := exists_body_of_stringText
    (stringText name ++ ':' :: ' ' :: prettyAt level tail v)
    (':' :: ' ' :: prettyAt level tail v) hv.1
  refine members_eq_ok_iff.mpr ⟨body, name, _, _, v, tail, hbody, hread, skipSpace_cons rfl _, ?_, ?_⟩
  · have hspace : skipSpace (' ' :: prettyAt level tail v) = prettyAt level tail v :=
      skipSpace_prettyAt level tail hv.2.1
    rw [hspace, hfirst]
  · subst htail
    rcases ms with _ | ⟨⟨other, w⟩, more⟩
    · exact .inl ⟨by rw [prettyMembers, skipSpace_newline, skipSpace_cons rfl], rfl⟩
    · have hmore := h.members other w more hv.2.2 hw.2 (by omega) outer level rest
      refine .inr ⟨_, (other, w) :: more,
        by rw [prettyMembers, List.cons_append, List.cons_append, skipSpace_cons rfl], ?_, rfl⟩
      rw [List.append_assoc, skipSpace_newline, skipSpace_stringText, hmore]

end Step

/-- Values are read as they are written, whatever stands behind them. -/
theorem readsBack (fuel : Nat) : ReadsBack fuel := by
  induction fuel with
  | zero =>
    constructor
    · intro v hv hw hsize
      cases v <;> simp at hsize
    · intro v vs hv hw hsize
      simp at hsize
    · intro name v ms hv hw hsize
      simp at hsize
  | succ fuel ih => exact ⟨value_step ih, elements_step ih, members_step ih⟩

/-! ## Texts -/

theorem return_not_mem_unitEscape (unit : Nat) : '\r' ∉ unitEscape unit := by
  have hdigit : ∀ n, Nat.digitChar (n % 16) ≠ '\r' := by
    intro n heq
    have hvalue := hexValue?_digitChar (Nat.mod_lt n (by decide : 0 < 16))
    rw [heq] at hvalue
    cases hvalue
  rw [unitEscape, hexDigits_four]
  simp [Ne.symm (hdigit _)]

theorem return_not_mem_escapePoint (point : Nat) : '\r' ∉ escapePoint point := by
  have hescapes := escapes_escapePoint point
  generalize escapePoint point = written at hescapes
  cases hescapes with
  | short hd heq =>
    rw [List.mem_cons, List.mem_singleton, not_or]
    refine ⟨by decide, ?_⟩
    rintro rfl
    cases hd
  | plain hlow hhigh _ _ =>
    have hall : ∀ k : Fin 127, 32 ≤ k.val → '\r' ∉ [Char.ofNat k] := by decide
    exact hall ⟨point, by omega⟩ hlow
  | unit _ => exact return_not_mem_unitEscape point
  | pair _ =>
    rw [List.mem_append, not_or]
    exact ⟨return_not_mem_unitEscape _, return_not_mem_unitEscape _⟩

theorem return_not_mem_stringText (t : Text) : '\r' ∉ stringText t := by
  simp only [stringText, List.cons_append, List.mem_cons, List.mem_append, List.mem_flatMap,
    List.not_mem_nil, or_false, not_or, not_exists, not_and]
  exact ⟨by decide, fun p _ => return_not_mem_escapePoint p.toNat, by decide⟩

theorem return_not_mem_intText (n : Int) : '\r' ∉ intText n := by
  have hdigits : '\r' ∉ Nat.toDigits 10 n.natAbs := by
    intro hmem
    cases isDigit_of_mem_toDigits hmem
  unfold intText
  split
  · rw [List.mem_cons, not_or]
    exact ⟨by decide, hdigits⟩
  · exact hdigits

theorem return_not_mem_newline (level : Nat) : '\r' ∉ newline level := by
  simp [newline, List.mem_replicate]

mutual

/-- Nothing that is written has a carriage return in it. -/
theorem return_not_mem_prettyAt (level : Nat) {rest : List Char} (hrest : '\r' ∉ rest) :
    (v : Json) → v.IsExact → '\r' ∉ prettyAt level rest v
  | .null, _ => by simp [prettyAt, hrest]
  | .bool true, _ => by simp [prettyAt, hrest]
  | .bool false, _ => by simp [prettyAt, hrest]
  | .int n, _ => by simp [prettyAt, hrest, return_not_mem_intText]
  | .str s, _ => by simp [prettyAt, hrest, return_not_mem_stringText]
  | .arr [], _ => by simp [prettyAt, hrest]
  | .arr (v :: vs), h => by
    have hend : '\r' ∉ newline level ++ ']' :: rest := by
      simp [hrest, return_not_mem_newline]
    have htail := return_not_mem_prettyItems (level + 1) hend vs h.2
    have hfirst := return_not_mem_prettyAt (level + 1) htail v h.1
    simp [prettyAt, return_not_mem_newline, hfirst]
  | .obj [], _ => by simp [prettyAt, hrest]
  | .obj ((name, v) :: ms), h => by
    have hend : '\r' ∉ newline level ++ '\x7d' :: rest := by
      simp [hrest, return_not_mem_newline]
    have htail := return_not_mem_prettyMembers (level + 1) hend ms h.2.2.2
    have hfirst := return_not_mem_prettyAt (level + 1) htail v h.2.2.1
    simp [prettyAt, return_not_mem_newline, return_not_mem_stringText, hfirst]

theorem return_not_mem_prettyItems (level : Nat) {rest : List Char} (hrest : '\r' ∉ rest) :
    (items : List Json) → AreExact items → '\r' ∉ prettyItems level rest items
  | [], _ => by rwa [prettyItems]
  | v :: vs, h => by
    have htail := return_not_mem_prettyItems level hrest vs h.2
    have hfirst := return_not_mem_prettyAt level htail v h.1
    simp [prettyItems, return_not_mem_newline, hfirst]

theorem return_not_mem_prettyMembers (level : Nat) {rest : List Char} (hrest : '\r' ∉ rest) :
    (ms : Members) → AreExactMembers ms → '\r' ∉ prettyMembers level rest ms
  | [], _ => by rwa [prettyMembers]
  | (name, v) :: ms, h => by
    have htail := return_not_mem_prettyMembers level hrest ms h.2.2
    have hfirst := return_not_mem_prettyAt level htail v h.2.1
    simp [prettyMembers, return_not_mem_newline, return_not_mem_stringText, hfirst]

end

mutual

theorem prettyAt_append (level : Nat) (rest more : List Char) :
    (v : Json) → prettyAt level rest v ++ more = prettyAt level (rest ++ more) v
  | .null => by simp only [prettyAt, List.cons_append]
  | .bool true => by simp only [prettyAt, List.cons_append]
  | .bool false => by simp only [prettyAt, List.cons_append]
  | .int n => by simp only [prettyAt, List.append_assoc]
  | .float x => by simp only [prettyAt, List.append_assoc]
  | .str s => by simp only [prettyAt, List.append_assoc]
  | .arr [] => by simp only [prettyAt, List.cons_append]
  | .arr (v :: vs) => by
    simp only [prettyAt, List.cons_append, List.append_assoc, prettyAt_append _ _ more v,
      prettyItems_append _ _ more vs]
  | .obj [] => by simp only [prettyAt, List.cons_append]
  | .obj ((name, v) :: ms) => by
    simp only [prettyAt, List.cons_append, List.append_assoc, prettyAt_append _ _ more v,
      prettyMembers_append _ _ more ms]

theorem prettyItems_append (level : Nat) (rest more : List Char) :
    (items : List Json) →
      prettyItems level rest items ++ more = prettyItems level (rest ++ more) items
  | [] => by simp only [prettyItems]
  | v :: vs => by
    simp only [prettyItems, List.cons_append, List.append_assoc, prettyAt_append _ _ more v,
      prettyItems_append _ _ more vs]

theorem prettyMembers_append (level : Nat) (rest more : List Char) :
    (ms : Members) → prettyMembers level rest ms ++ more = prettyMembers level (rest ++ more) ms
  | [] => by simp only [prettyMembers]
  | (name, v) :: ms => by
    simp only [prettyMembers, List.cons_append, List.append_assoc, prettyAt_append _ _ more v,
      prettyMembers_append _ _ more ms]

end

/-- A written value is read back from its text, whatever space follows it. -/
theorem parse_prettyAt {v : Json} (hv : v.IsExact) (hw : v.isWritable = true) {rest : List Char}
    (hspace : ∀ c ∈ rest, c = '\n') : parse (String.ofList (prettyAt 0 rest v)) = .ok v := by
  have hrest : EndsNumeral rest := by
    intro c hc
    rw [hspace c (List.mem_of_mem_head? hc)]
    decide
  have hreturn : '\r' ∉ rest := fun hmem => absurd (hspace _ hmem) (by decide)
  have hread := (readsBack (sizeOf v)).value v hv hw (Nat.le_refl _) 0 rest hrest
  rw [← skipSpace_prettyAt 0 rest hv] at hread
  have hempty : skipSpace rest = [] := by
    have hall : ∀ c ∈ rest, isSpace c = true := fun c hc => by rw [hspace c hc]; rfl
    rw [skipSpace, ← List.append_nil rest, List.dropWhile_append_of_pos hall]
    rfl
  have hwhole := whole_unifyLines_of_value hread hempty
  rw [unifyLines_eq_self (return_not_mem_prettyAt 0 hreturn v hv)] at hwhole
  rwa [parse_eq_ok_iff, String.toList_ofList]

/-- A written value is read back from its text, with or without a line feed at the end. -/
theorem parse_pretty {v : Json} (hv : v.IsExact) (hw : v.isWritable = true) :
    parse v.pretty = .ok v ∧ parse (v.pretty ++ "\n") = .ok v := by
  have hline : v.pretty ++ "\n" = String.ofList (prettyAt 0 ['\n'] v) := by
    rw [pretty, ← List.nil_append ['\n'], ← prettyAt_append, String.ofList_append]
  rw [hline]
  exact ⟨parse_prettyAt hv hw (List.forall_mem_nil _), parse_prettyAt hv hw (by simp)⟩

end Json

end Lowering
