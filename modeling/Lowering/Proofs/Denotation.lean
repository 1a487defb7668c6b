import Lowering.Numeric.Numeral
import Lowering.Proofs.Pieces

/-!
# What a literal denotes

In the script language a literal denotes a sequence of UTF-16 code units. Its escapes are richer than
those that are resolved when a literal is read: an escape by number, a line end that is escaped so as
to vanish, and the escapes `b`, `v` and `f` are read as if the backslash were not there.

* `Literal.Escape`, `Literal.Denotes`: the grammar of literals with what they denote;
* `Literal.misread`: the escapes that are read as something else than they denote;
* `Literal.outcome_of_denotes`: what is read of a literal, against what it denotes;
* `Literal.literal_keeps_value_iff`: a literal is refused or read as what it denotes exactly if it
  has no such escape or holds a carriage return and a newline.
-/

namespace Lowering

/-! ## Code units -/

/-- The UTF-16 code units of the code point with a given number. -/
def CodePoint.unitsOf (n : Nat) : List Nat :=
  if n < 0x10000 then [n]
  else [0xD800 + (n - 0x10000) / 0x400, 0xDC00 + (n - 0x10000) % 0x400]

/-- The UTF-16 code units of a text; a surrogate is one by itself. -/
def Text.units (t : Text) : List Nat :=
  t.flatMap fun p => CodePoint.unitsOf p.toNat

theorem CodePoint.length_unitsOf (n : Nat) : 1 ≤ (unitsOf n).length ∧ (unitsOf n).length ≤ 2 := by
  unfold unitsOf
  split <;> simp

namespace Text

theorem units_cons (p : CodePoint) (t : Text) :
    units (p :: t) = CodePoint.unitsOf p.toNat ++ units t :=
  List.flatMap_cons

theorem units_append (s t : Text) : units (s ++ t) = units s ++ units t :=
  List.flatMap_append

theorem length_le_units (t : Text) : t.length ≤ (units t).length := by
  induction t with
  | nil => exact Nat.le_refl 0
  | cons p t ih =>
    have hp := (CodePoint.length_unitsOf p.toNat).1
    rw [units_cons, List.length_append, List.length_cons]
    omega

end Text

/-- Two sequences that are put together of parts agree only if the parts do, if no part of the
second one is longer. -/
theorem append_eq_append_iff_of_length_le {α : Type} {a b c d : List α}
    (hfirst : c.length ≤ a.length) (hsecond : d.length ≤ b.length) :
    a ++ b = c ++ d ↔ a = c ∧ b = d := by
  constructor
  · intro h
    have hlength := congrArg List.length h
    rw [List.length_append, List.length_append] at hlength
    exact List.append_inj h (by omega)
  · rintro ⟨rfl, rfl⟩
    rfl

/-- The number that hexadecimal digits stand for. -/
def Text.hexNumber? (digits : List Char) : Option Nat :=
  digits.foldlM (fun n c => (hexValue? c).map fun d => 16 * n + d) 0

namespace Literal

/-! ## The grammar of literals -/

/-- The letters that stand for control characters when they are escaped, with their numbers. -/
def controls : List (Char × Nat) :=
  [('b', 8), ('t', 9), ('n', 10), ('v', 11), ('f', 12), ('r', 13)]

/-- The code points that end a line of script. -/
def lineEnds : List CodePoint :=
  [.char '\n', .char '\r', .char '\u2028', .char '\u2029']

/-- The code points that do not stand for themselves when they are escaped. -/
def reserved : List CodePoint :=
  controls.map (fun control => .char control.1) ++ [.char '0', .char 'x', .char 'u'] ++ lineEnds

/-- What may follow a backslash, with the code units that the escape denotes. -/
inductive Escape : Text → List Nat → Prop where
  | control {letter : Char} {n : Nat} (h : (letter, n) ∈ controls) : Escape [.char letter] [n]
  | nul : Escape [.char '0'] [0]
  | byte {digits : List Char} {n : Nat} (hlength : digits.length = 2)
      (hn : Text.hexNumber? digits = some n) : Escape (.char 'x' :: digits.map .char) [n]
  | unit {digits : List Char} {n : Nat} (hlength : digits.length = 4)
      (hn : Text.hexNumber? digits = some n) : Escape (.char 'u' :: digits.map .char) [n]
  | point {digits : List Char} {n : Nat} (hdigits : digits ≠ [])
      (hn : Text.hexNumber? digits = some n) (hlt : n < 0x110000) :
    Escape (.char 'u' :: .char '{' :: (digits.map .char ++ [.char '}'])) (CodePoint.unitsOf n)
  | lineEnd {p : CodePoint} (h : p ∈ lineEnds) : Escape [p] []
  | lineEndPair : Escape [.char '\r', .char '\n'] []
  | itself {p : CodePoint} (h : p ∉ reserved) : Escape [p] (CodePoint.unitsOf p.toNat)

/-- A code point that may stand as it is in a literal. -/
structure IsCharacter (quote p : CodePoint) : Prop extends IsPlain quote p where
  ne_return : p ≠ .char '\r'

instance (quote p : CodePoint) : Decidable (IsCharacter quote p) :=
  decidable_of_iff (IsPlain quote p ∧ p ≠ .char '\r')
    ⟨fun h => ⟨h.1, h.2⟩, fun h => ⟨h.toIsPlain, h.ne_return⟩⟩

/-- What may follow the opening quote of a literal, with the code units that it denotes. An escaped
`0` has no digit behind it. -/
inductive DenotesBody (quote : CodePoint) : Text → List Nat → Prop where
  | close : DenotesBody quote [quote] []
  | plain {p : CodePoint} {rest : Text} {units : List Nat} (h : IsCharacter quote p)
      (hrest : DenotesBody quote rest units) :
    DenotesBody quote (p :: rest) (CodePoint.unitsOf p.toNat ++ units)
  | escape {spelled rest : Text} {resolved units : List Nat} (h : Escape spelled resolved)
      (hnul : spelled = [.char '0'] → ∀ c, rest.head? = some (.char c) → c.isDigit = false)
      (hrest : DenotesBody quote rest units) :
    DenotesBody quote (.char '\\' :: (spelled ++ rest)) (resolved ++ units)

/-- A source that is a literal denoting the given code units. -/
def Denotes (source : Text) (units : List Nat) : Prop :=
  ∃ quote rest, isQuote quote = true ∧ source = quote :: rest ∧ DenotesBody quote rest units

/-! ## Escapes -/

/-- The code points of a source that are escaped. -/
def escapedPoints : Text → List CodePoint
  | [] => []
  | [_] => []
  | p :: q :: rest =>
    if p = .char '\\' then q :: escapedPoints rest else escapedPoints (q :: rest)

/-- The escapes that are read as something else than they denote. -/
def misread : List CodePoint :=
  [.char 'b', .char 'v', .char 'f', .char 'x', .char 'u'] ++ lineEnds

theorem escapedPoints_escape (p : CodePoint) (rest : Text) :
    escapedPoints (.char '\\' :: p :: rest) = p :: escapedPoints rest := by
  rw [escapedPoints, if_pos rfl]

theorem escapedPoints_cons {p : CodePoint} (h : p ≠ .char '\\') (rest : Text) :
    escapedPoints (p :: rest) = escapedPoints rest := by
  cases rest with
  | nil => rfl
  | cons q rest => rw [escapedPoints, if_neg h]

/-- A carriage return in front of a newline. -/
def returnNewline : Text :=
  [.char '\r', .char '\n']

theorem returnNewline_infix_cons {p : CodePoint} {rest : Text}
    (h : p = .char '\r' → rest.head? ≠ some (.char '\n')) :
    returnNewline <:+: p :: rest ↔ returnNewline <:+: rest := by
  rw [List.infix_cons_iff]
  constructor
  · rintro (hfront | hinside)
    · obtain ⟨after, hafter⟩ := hfront
      obtain ⟨rfl, rfl⟩ := List.cons.inj hafter
      exact absurd rfl (h rfl)
    · exact hinside
  · exact .inr

/-! ## Escapes against their reading -/

theorem exists_hexValue?_of_foldlM {digits : List Char} {m n : Nat}
    (h : digits.foldlM (fun n c => (Text.hexValue? c).map fun d => 16 * n + d) m = some n) :
    ∀ c ∈ digits, ∃ d, Text.hexValue? c = some d := by
  induction digits generalizing m with
  | nil => exact List.forall_mem_nil _
  | cons c digits ih =>
    rw [List.foldlM_cons] at h
    obtain ⟨k, hk, hrest⟩ := Option.bind_eq_some_iff.mp h
    obtain ⟨d, hd, -⟩ := Option.map_eq_some_iff.mp hk
    exact List.forall_mem_cons.mpr ⟨⟨d, hd⟩, ih hrest⟩

theorem unescape_of_not_reserved {p : CodePoint} (h : p ∉ reserved) : unescape p = p := by
  unfold unescape
  split
  · exact absurd (by decide) h
  · exact absurd (by decide) h
  · exact absurd (by decide) h
  · exact absurd (by decide) h
  · rfl

section Reading

variable {quote : CodePoint} (hquote : isQuote quote = true)
include hquote

theorem isCharacter_of_hexValue? {c : Char} {d : Nat} (h : Text.hexValue? c = some d) :
    IsCharacter quote (.char c) := by
  have hnone : ∀ other ∈ ['\'', '"', '\\', '\n', '\r'], Text.hexValue? other = none := by
    simp only [List.forall_mem_cons]
    exact ⟨rfl, rfl, rfl, rfl, rfl, List.forall_mem_nil _⟩
  have hne : ∀ other ∈ ['\'', '"', '\\', '\n', '\r'], CodePoint.char c ≠ .char other := by
    rintro other hother ⟨⟩
    rw [hnone c hother] at h
    cases h
  refine ⟨⟨?_, hne _ (by decide), hne _ (by decide)⟩, hne _ (by decide)⟩
  rcases isQuote_iff.mp hquote with rfl | rfl
  · exact hne _ (by decide)
  · exact hne _ (by decide)

theorem isCharacter_of_hexNumber? {digits : List Char} {n : Nat}
    (h : Text.hexNumber? digits = some n) :
    ∀ p ∈ digits.map CodePoint.char, IsCharacter quote p := by
  intro p hp
  obtain ⟨c, hc, rfl⟩ := List.mem_map.mp hp
  obtain ⟨d, hd⟩ := exists_hexValue?_of_foldlM h c hc
  exact isCharacter_of_hexValue? hquote hd

end Reading

/-- An escape of the code points `p :: tail` that denotes `resolved`, against its reading: its first
code point is resolved or not, the others stay as they are. This is never shorter than what the
escape denotes, and the same exactly if the escape is none of the misread ones. -/
structure IsRead (quote p : CodePoint) (tail : Text) (resolved : List Nat) : Prop where
  plain : ∀ q ∈ tail, IsCharacter quote q
  single : p = .char '\r' → tail = []
  length_le : resolved.length ≤ (Text.units (unescape p :: tail)).length
  units_eq_iff : Text.units (unescape p :: tail) = resolved ↔ p ∉ misread

/-- An escape with digits has more code points than it denotes code units. -/
theorem isRead_of_length_lt {quote p : CodePoint} {tail : Text} {resolved : List Nat}
    (hp : p ∈ misread) (hreturn : p ≠ .char '\r')
    (hplain : ∀ q ∈ tail, IsCharacter quote q)
    (hlt : resolved.length < tail.length + 1) : IsRead quote p tail resolved := by
  have hle : (unescape p :: tail).length ≤ (Text.units (unescape p :: tail)).length :=
    Text.length_le_units _
  rw [List.length_cons] at hle
  refine ⟨hplain, fun h => absurd h hreturn, by omega, iff_of_false ?_ (not_not_intro hp)⟩
  intro heq
  rw [heq] at hle
  omega

theorem isRead_digits {quote p : CodePoint} (hquote : isQuote quote = true) (hp : p ∈ misread)
    (hreturn : p ≠ .char '\r') {digits : List Char} {n : Nat} (hdigits : 0 < digits.length)
    (hn : Text.hexNumber? digits = some n) : IsRead quote p (digits.map .char) [n] := by
  apply isRead_of_length_lt hp hreturn (isCharacter_of_hexNumber? hquote hn)
  rw [List.length_map, List.length_singleton]
  omega

theorem isRead_single {quote p : CodePoint} {resolved : List Nat}
    (hlength : resolved.length ≤ (Text.units [unescape p]).length)
    (hunits : Text.units [unescape p] = resolved ↔ p ∉ misread) : IsRead quote p [] resolved :=
  ⟨List.forall_mem_nil _, fun _ => rfl, hlength, hunits⟩

theorem Escape.isRead {quote : CodePoint} (hquote : isQuote quote = true) {spelled : Text}
    {resolved : List Nat} (h : Escape spelled resolved) :
    spelled = returnNewline ∨ ∃ p tail, spelled = p :: tail ∧ IsRead quote p tail resolved := by
  cases h with
  | control hcontrol =>
    have hall : ∀ control ∈ controls,
        [control.2].length ≤ (Text.units [unescape (.char control.1)]).length ∧
          (Text.units [unescape (.char control.1)] = [control.2] ↔
            CodePoint.char control.1 ∉ misread) := by decide
    obtain ⟨hlength, hunits⟩ := hall _ hcontrol
    exact .inr ⟨_, [], rfl, isRead_single hlength hunits⟩
  | nul => exact .inr ⟨_, [], rfl, isRead_single (by decide) (by decide)⟩
  | @byte digits n hlength hn =>
    have hdigits : 0 < digits.length := by omega
    exact .inr ⟨_, _, rfl, isRead_digits hquote (by decide) (by decide) hdigits hn⟩
  | @unit digits n hlength hn =>
    have hdigits : 0 < digits.length := by omega
    exact .inr ⟨_, _, rfl, isRead_digits hquote (by decide) (by decide) hdigits hn⟩
  | @point digits n hdigits hn =>
    refine .inr ⟨_, _, rfl, ?_⟩
    apply isRead_of_length_lt (by decide) (by decide)
    · have hbrace : ∀ brace ∈ [CodePoint.char '{', .char '}'], IsCharacter quote brace := by
        rcases isQuote_iff.mp hquote with rfl | rfl <;> decide
      rw [List.forall_mem_cons, List.forall_mem_append, List.forall_mem_singleton]
      exact ⟨hbrace _ (by decide), isCharacter_of_hexNumber? hquote hn, hbrace _ (by decide)⟩
    · have hunits := (CodePoint.length_unitsOf n).2
      have hpos := List.length_pos_iff.mpr hdigits
      rw [List.length_cons, List.length_append, List.length_map, List.length_singleton]
      omega
  | lineEnd hp =>
    have hall : ∀ p ∈ lineEnds, Text.units [unescape p] = [] ↔ p ∉ misread := by decide
    exact .inr ⟨_, [], rfl, isRead_single (Nat.zero_le _) (hall _ hp)⟩
  | lineEndPair => exact .inl rfl
  | @itself p hp =>
    have hunits : Text.units [unescape p] = CodePoint.unitsOf p.toNat := by
      rw [unescape_of_not_reserved hp]
      exact List.append_nil _
    have hmisread : p ∉ misread := by
      have hsubset : ∀ q ∈ misread, q ∈ reserved := by decide
      exact fun hmem => hp (hsubset p hmem)
    have hlength := Nat.le_of_eq (congrArg List.length hunits.symm)
    exact .inr ⟨p, [], rfl, isRead_single hlength (iff_of_true hunits hmisread)⟩

section Tail

variable {quote : CodePoint} {tail : Text}
  (h : ∀ q ∈ tail, IsCharacter quote q) (rest : Text)
include h

theorem body?_tail : body? quote (tail ++ rest) = (body? quote rest).map (tail ++ ·) := by
  induction tail with
  | nil => simp
  | cons q tail ih =>
    obtain ⟨hq, htail⟩ := List.forall_mem_cons.mp h
    rw [List.cons_append, body?_plain hq.toIsPlain, ih htail, Option.map_map]
    rfl

theorem escapedPoints_tail : escapedPoints (tail ++ rest) = escapedPoints rest := by
  induction tail with
  | nil => rfl
  | cons q tail ih =>
    obtain ⟨hq, htail⟩ := List.forall_mem_cons.mp h
    rw [List.cons_append, escapedPoints_cons hq.ne_slash, ih htail]

theorem returnNewline_infix_tail : returnNewline <:+: tail ++ rest ↔ returnNewline <:+: rest := by
  induction tail with
  | nil => rfl
  | cons q tail ih =>
    obtain ⟨hq, htail⟩ := List.forall_mem_cons.mp h
    rw [List.cons_append, returnNewline_infix_cons fun heq => absurd heq hq.ne_return, ih htail]

end Tail

/-! ## Literals against their reading -/

/-- What is read of a source that denotes `units`. It is refused if a carriage return and a newline
stand in it; otherwise a text is read that is no shorter, and that is the one denoted exactly if no
escape is misread. -/
def Outcome (source : Text) (units : List Nat) : Option Text → Prop
  | none => returnNewline <:+: source
  | some text =>
    ¬returnNewline <:+: source ∧ units.length ≤ (Text.units text).length ∧
      (Text.units text = units ↔ ∀ p ∈ escapedPoints source, p ∉ misread)

/-- A part of a literal that is read by itself, in front of the rest. -/
theorem Outcome.append (part read : Text) (escaped : List CodePoint) {rest : Text}
    {resolved units : List Nat} {outcome : Option Text}
    (hbreak : returnNewline <:+: part ++ rest ↔ returnNewline <:+: rest)
    (hescaped : escapedPoints (part ++ rest) = escaped ++ escapedPoints rest)
    (hlength : resolved.length ≤ (Text.units read).length)
    (hread : Text.units read = resolved ↔ ∀ p ∈ escaped, p ∉ misread)
    (h : Outcome rest units outcome) :
    Outcome (part ++ rest) (resolved ++ units) (outcome.map (read ++ ·)) := by
  cases outcome with
  | none => exact hbreak.mpr h
  | some text =>
    obtain ⟨hunbroken, hle, hiff⟩ := h
    refine ⟨fun hbroken => hunbroken (hbreak.mp hbroken), ?_, ?_⟩
    · rw [Text.units_append, List.length_append, List.length_append]
      omega
    · rw [Text.units_append, append_eq_append_iff_of_length_le hlength hle, hread, hiff, hescaped,
        List.forall_mem_append]

theorem DenotesBody.exists_inner {quote : CodePoint} {source : Text} {units : List Nat}
    (h : DenotesBody quote source units) : ∃ inner, source = inner ++ [quote] := by
  induction h with
  | close => exact ⟨[], rfl⟩
  | @plain p _ _ _ _ ih =>
    obtain ⟨inner, rfl⟩ := ih
    exact ⟨p :: inner, rfl⟩
  | @escape spelled _ _ _ _ _ _ ih =>
    obtain ⟨inner, rfl⟩ := ih
    exact ⟨.char '\\' :: (spelled ++ inner), by simp⟩

section Body

variable {quote : CodePoint} (hquote : isQuote quote = true)
include hquote

theorem DenotesBody.head?_ne_newline {source : Text} {units : List Nat}
    (h : DenotesBody quote source units) : source.head? ≠ some (.char '\n') := by
  intro hhead
  cases h with
  | close =>
    cases hhead
    cases hquote
  | plain hplain => exact hplain.ne_newline (Option.some.inj hhead)
  | escape => cases hhead

theorem outcome_of_denotesBody {source : Text} {units : List Nat}
    (h : DenotesBody quote source units) : Outcome source units (body? quote source) := by
  induction h with
  | close =>
    rw [body?_quote (ne_slash_of_isQuote hquote), if_pos rfl]
    refine ⟨?_, Nat.le_refl 0, iff_of_true rfl (List.forall_mem_nil _)⟩
    intro hbroken
    exact absurd hbroken.length_le (by simp [returnNewline])
  | @plain p rest units hplain hrest ih =>
    rw [body?_plain hplain.toIsPlain]
    refine Outcome.append [p] [p] [] ?_ ?_ ?_ ?_ ih
    · exact returnNewline_infix_cons fun heq => absurd heq hplain.ne_return
    · exact escapedPoints_cons hplain.ne_slash rest
    · exact Nat.le_of_eq (congrArg List.length (List.append_nil _).symm)
    · exact iff_of_true (List.append_nil _) (List.forall_mem_nil _)
  | @escape spelled rest resolved units hescape _ hrest ih =>
    rcases hescape.isRead hquote with rfl | ⟨p, tail, rfl, hread⟩
    · -- The carriage return is read as escaped, and the newline behind it ends the reading.
      have hnone : body? quote (.char '\\' :: (returnNewline ++ rest)) = none := by
        show body? quote (.char '\\' :: .char '\r' :: .char '\n' :: rest) = none
        rw [body?_escaped, body?_newline (ne_newline_of_isQuote hquote)]
        rfl
      rw [hnone]
      exact ⟨[.char '\\'], rest, rfl⟩
    · have hbody : body? quote (.char '\\' :: (p :: tail ++ rest)) =
          (body? quote rest).map (unescape p :: tail ++ ·) := by
        rw [List.cons_append, body?_escaped, body?_tail hread.plain, Option.map_map]
        rfl
      rw [hbody]
      refine Outcome.append (.char '\\' :: p :: tail) (unescape p :: tail) [p] ?_ ?_
        hread.length_le ?_ ih
      · have hnext : p = .char '\r' → (tail ++ rest).head? ≠ some (.char '\n') := by
          intro hp
          rw [hread.single hp]
          exact hrest.head?_ne_newline hquote
        have hslash : CodePoint.char '\\' ≠ .char '\r' := by decide
        rw [List.cons_append, List.cons_append,
          returnNewline_infix_cons fun heq => absurd heq hslash, returnNewline_infix_cons hnext,
          returnNewline_infix_tail hread.plain]
      · rw [List.cons_append, List.cons_append, escapedPoints_escape,
          escapedPoints_tail hread.plain]
        rfl
      · rw [hread.units_eq_iff, List.forall_mem_singleton]

end Body

theorem outcome_of_denotes {source : Text} {units : List Nat} (h : Denotes source units) :
    Outcome source units (value? source) := by
  obtain ⟨quote, rest, hquote, rfl, hbody⟩ := h
  have hreturn : quote ≠ .char '\r' := by
    rintro rfl
    cases hquote
  have hplain : returnNewline <:+: quote :: rest ↔ returnNewline <:+: rest :=
    returnNewline_infix_cons fun heq => absurd heq hreturn
  have hescaped : escapedPoints (quote :: rest) = escapedPoints rest :=
    escapedPoints_cons (ne_slash_of_isQuote hquote) rest
  have houtcome : Outcome ([quote] ++ rest) ([] ++ units) ((body? quote rest).map ([] ++ ·)) :=
    .append [quote] [] [] hplain hescaped (Nat.le_refl 0)
      (iff_of_true rfl (List.forall_mem_nil _)) (outcome_of_denotesBody hquote hbody)
  rw [value?_cons, if_pos hquote]
  simpa using houtcome

/-- A literal is refused or read as what it denotes exactly if it has no misread escape or holds a
carriage return and a newline. -/
theorem read_or_refused_iff {source : Text} {units : List Nat} (h : Denotes source units) :
    (value? source = none ∨ ∃ text, value? source = some text ∧ Text.units text = units) ↔
      returnNewline <:+: source ∨ ∀ p ∈ escapedPoints source, p ∉ misread := by
  have houtcome := outcome_of_denotes h
  cases hvalue : value? source with
  | none =>
    rw [hvalue] at houtcome
    exact iff_of_true (.inl rfl) (.inl houtcome)
  | some text =>
    rw [hvalue] at houtcome
    obtain ⟨hunbroken, -, hiff⟩ := houtcome
    rw [← hiff]
    simp [hunbroken]

/-! ## Attributes -/

theorem Piece.value_eq_quote_iff {quote : CodePoint} (piece : Piece quote) :
    piece.value = .char '"' ↔ .char '"' ∈ piece.spelling := by
  cases piece with
  | plain p h =>
    rw [spelling, value, List.mem_singleton, eq_comm]
  | escaped p =>
    rw [spelling, value, List.mem_cons, List.mem_singleton, or_iff_right (by decide)]
    unfold unescape
    split <;> simp [eq_comm]

theorem Complete.quote_mem_value_iff (l : Complete) :
    .char '"' ∈ l.value ↔ .char '"' ∈ l.source.tail.dropLast := by
  have hinner : l.source.tail.dropLast = l.inner := List.dropLast_concat
  rw [hinner, inner, value, List.mem_map, List.mem_flatMap]
  simp only [Piece.value_eq_quote_iff]

/-- A literal as an attribute value becomes a string attribute with the value that it denotes, or an
expression that is the literal itself, exactly if it is refused or read as what it denotes, or holds
a double quote between its own. -/
theorem lowered_as_denoted_iff {source : Text} {units : List Nat} (h : Denotes source units)
    (name : Text) :
    ((∃ text, Text.units text = units ∧
        lowerAttribute name (.source source) = { name := name, value := some text }) ∨
      lowerAttribute name (.source source) =
        { name := name, value := some source, isExpression := true }) ↔
      (value? source = none ∨ ∃ text, value? source = some text ∧ Text.units text = units) ∨
        .char '"' ∈ source.tail.dropLast := by
  cases hvalue : value? source with
  | none =>
    obtain ⟨quote, rest, hquote, rfl, hbody⟩ := h
    obtain ⟨inner, rfl⟩ := hbody.exists_inner
    have hplain : plainText? (quote :: (inner ++ [quote])) = none := by
      rw [plainText?, hvalue, Option.filter_none]
    have hlowered : lowerAttribute name (.source (quote :: (inner ++ [quote]))) =
        attributeOf name _ (plainText? (quote :: (inner ++ [quote]))) :=
      lowerAttribute_of_quote hquote (trim_of_quotes hquote inner)
    rw [hlowered, hplain]
    exact iff_of_true (.inr rfl) (.inl (.inl rfl))
  | some text =>
    obtain ⟨l, rfl, rfl⟩ := value?_eq_some_iff.mp hvalue
    rw [lowerAttribute_source, ← l.quote_mem_value_iff]
    by_cases hmem : CodePoint.char '"' ∈ l.value
    · rw [if_pos hmem]
      exact iff_of_true (.inr rfl) (.inr hmem)
    · rw [if_neg hmem]
      simp [hmem, eq_comm]

/-- A source that is a literal is refused or read as what it denotes, exactly if none of its escapes
is misread or it holds a carriage return and a newline; then it becomes a string attribute with the
value that it denotes, or an expression that is the literal itself. An attribute turns out right also
where a double quote between its own quotes keeps the literal from being shown as a text. -/
theorem literal_keeps_value_iff (source : Text) (units : List Nat) (h : Denotes source units)
    (name : Text) :
    ((value? source = none ∨ ∃ text, value? source = some text ∧ Text.units text = units) ↔
      returnNewline <:+: source ∨ ∀ p ∈ escapedPoints source, p ∉ misread) ∧
      (((∃ text, Text.units text = units ∧
          lowerAttribute name (.source source) = { name := name, value := some text }) ∨
        lowerAttribute name (.source source) =
          { name := name, value := some source, isExpression := true }) ↔
        returnNewline <:+: source ∨ (∀ p ∈ escapedPoints source, p ∉ misread) ∨
          .char '"' ∈ source.tail.dropLast) := by
  refine ⟨read_or_refused_iff h, ?_⟩
  rw [lowered_as_denoted_iff h name, read_or_refused_iff h, or_assoc]

/-- Two literals that keep their value: one with an escaped backslash in front of `x41` and an
escaped quote at its end, which is read, and one that goes on behind a carriage return and a newline,
which is refused. -/
theorem literal_keeps_value_slashes :
    Denotes "'\\\\x41\\''" (Text.units "\\x41'") ∧
      (value? "'\\\\x41\\''" = none ∨ ∃ text, value? "'\\\\x41\\''" = some text ∧
        Text.units text = Text.units "\\x41'") ∧
      Denotes "\"a\\\r\nb\"" (Text.units "ab") ∧
      (value? "\"a\\\r\nb\"" = none ∨ ∃ text, value? "\"a\\\r\nb\"" = some text ∧
        Text.units text = Text.units "ab") := by
  have hslashes : Denotes "'\\\\x41\\''" (Text.units "\\x41'") := by
    have hquote : DenotesBody (.char '\'') "\\''" (Text.units "'") :=
      .escape (.itself (p := .char '\'') (by decide)) (fun h => by cases h) .close
    have hplain : DenotesBody (.char '\'') "x41\\''" (Text.units "x41'") :=
      .plain (by decide) (.plain (by decide) (.plain (by decide) hquote))
    exact ⟨.char '\'', _, rfl, rfl,
      .escape (.itself (p := .char '\\') (by decide)) (fun h => by cases h) hplain⟩
  have hlines : Denotes "\"a\\\r\nb\"" (Text.units "ab") := by
    have hplain : DenotesBody (.char '"') "b\"" (Text.units "b") := .plain (by decide) .close
    exact ⟨.char '"', _, rfl, rfl,
      .plain (by decide) (.escape .lineEndPair (fun h => by cases h) hplain)⟩
  have hbroken : returnNewline <:+: Text.ofString "\"a\\\r\nb\"" := ⟨"\"a\\", "b\"", rfl⟩
  refine ⟨hslashes, ?_, hlines, ?_⟩
  · exact (literal_keeps_value_iff _ _ hslashes "title").1.mpr (.inr (by decide))
  · exact (literal_keeps_value_iff _ _ hlines "title").1.mpr (.inl hbroken)

/-- An escape by number denotes a letter, but is read as its digits. -/
theorem hexEscape_loses_value :
    Denotes "'\\x41'" (Text.units "A") ∧
      ¬(value? "'\\x41'" = none ∨ ∃ text, value? "'\\x41'" = some text ∧
        Text.units text = Text.units "A") ∧
      lowerAttribute "title" (.source "'\\x41'") = { name := "title", value := some "x41" } := by
  have hnumber : Text.hexNumber? ['4', '1'] = some 0x41 := by decide
  have hread : value? "'\\x41'" = some "x41" := by decide
  refine ⟨?_, ?_, by decide⟩
  · exact ⟨.char '\'', _, rfl, rfl, .escape (.byte rfl hnumber) (fun h => by cases h) .close⟩
  · rw [hread]
    rintro (hnone | ⟨text, ⟨⟩, hunits⟩)
    · cases hnone
    · exact absurd hunits (by decide)

end Literal

end Lowering
