import Mathlib.Data.List.Forall2
import Lowering.Lower.Attributes
import Lowering.Proofs.Numerals

/-!
# Pieces of a literal

A complete literal is a quote, pieces, and the same quote again. A piece is a code point that stands
for itself or an escaped one, and no piece starts with the closing quote: so a source is cut into
pieces in one way only, and a literal ends where its closing quote stands.

* `Literal.body?`: reading in one pass, which comes to the same by `Literal.body?_eq`;
* `Literal.Complete`: the complete literals, with their source and value;
* `Literal.value?_eq_some_iff`: these are the sources that are read, with that value;
* `Literal.value?_source_append`: nothing may stand behind a complete literal;
* `Literal.literal_stands_alone`: so a literal with anything behind it is an expression;
* `Literal.Quotes`: the ways to write a text as a literal;
* `Literal.quotes_read_back`: however it is written, the text is read back.
-/

namespace Lowering

namespace Literal

/-! ## Reading in one pass -/

/-- The value of a literal after its opening quote, if the closing quote comes last: escapes are
resolved on the way to the quote. -/
def body? (quote : CodePoint) : Text → Option Text
  | [] => none
  | [.char '\\'] => none
  | .char '\\' :: p :: rest => (body? quote rest).map (unescape p :: ·)
  | p :: rest =>
    if p = quote then if rest.isEmpty then some [] else none
    else if p = .char '\n' then none
    else (body? quote rest).map (p :: ·)

/-! ## Pieces -/

/-- A code point that may stand as it is between quotes `quote`. -/
structure IsPlain (quote p : CodePoint) : Prop where
  ne_quote : p ≠ quote
  ne_slash : p ≠ .char '\\'
  ne_newline : p ≠ .char '\n'

instance (quote p : CodePoint) : Decidable (IsPlain quote p) :=
  decidable_of_iff (p ≠ quote ∧ p ≠ .char '\\' ∧ p ≠ .char '\n')
    ⟨fun h => ⟨h.1, h.2.1, h.2.2⟩, fun h => ⟨h.ne_quote, h.ne_slash, h.ne_newline⟩⟩

/-- A piece of a literal in quotes `quote`. -/
inductive Piece (quote : CodePoint) where
  | plain (p : CodePoint) (h : IsPlain quote p)
  | escaped (p : CodePoint)

namespace Piece

variable {quote : CodePoint}

/-- The source of a piece. -/
def spelling : Piece quote → Text
  | plain p _ => [p]
  | escaped p => [.char '\\', p]

/-- The code point that a piece stands for. -/
def value : Piece quote → CodePoint
  | plain p _ => p
  | escaped p => unescape p

end Piece

section Body

variable {quote : CodePoint}

theorem body?_plain {p : CodePoint} (h : IsPlain quote p) (rest : Text) :
    body? quote (p :: rest) = (body? quote rest).map (p :: ·) := by
  obtain ⟨hquote, hslash, hline⟩ := h
  rw [body?]
  · rw [if_neg hquote, if_neg hline]
  · intro heq
    exact absurd heq hslash
  · intro _ _ heq
    exact absurd heq hslash

theorem body?_escaped (p : CodePoint) (rest : Text) :
    body? quote (.char '\\' :: p :: rest) = (body? quote rest).map (unescape p :: ·) := by
  rw [body?]

theorem body?_quote (hq : quote ≠ .char '\\') (rest : Text) :
    body? quote (quote :: rest) = if rest = [] then some [] else none := by
  rw [body?]
  · rw [if_pos rfl]
    cases rest <;> rfl
  · intro heq
    exact absurd heq hq
  · intro _ _ heq
    exact absurd heq hq

theorem body?_newline (hq : quote ≠ .char '\n') (rest : Text) :
    body? quote (.char '\n' :: rest) = none := by
  rw [body?]
  · rw [if_neg hq.symm, if_pos rfl]
  · intro heq
    cases heq
  · intro _ _ heq
    cases heq

theorem ne_nil_of_completes {t : Text} (h : completes quote t = true) : t ≠ [] := by
  rintro rfl
  cases h

theorem resolve_cons {p : CodePoint} (h : p ≠ .char '\\') (rest : Text) :
    resolve (p :: rest) = p :: resolve rest := by
  rw [resolve]
  intro _ _ heq
  exact absurd heq h

/-- Escapes may as well be resolved after a source is accepted. -/
theorem body?_eq (quote : CodePoint) (t : Text) :
    body? quote t = if completes quote t then some (resolve t.dropLast) else none := by
  have hslash : ∀ {p : CodePoint} {rest : Text}, (p = .char '\\' → rest = [] → False) →
      (∀ next more, p = .char '\\' → rest = next :: more → False) → p ≠ .char '\\' := by
    intro p rest hsingle hescape hp
    cases rest with
    | nil => exact hsingle hp rfl
    | cons next more => exact hescape next more hp rfl
  fun_induction completes quote t with
  | case1 => rfl
  | case2 => rfl
  | case3 p rest ih =>
    rw [body?_escaped, ih]
    split
    · rename_i h
      rw [List.dropLast_cons_of_ne_nil (List.cons_ne_nil _ _),
        List.dropLast_cons_of_ne_nil (ne_nil_of_completes h), resolve]
      rfl
    · rfl
  | case4 rest hsingle hescape =>
    rw [body?_quote (hslash hsingle hescape)]
    cases rest <;> rfl
  | case5 p rest hsingle hescape hquote ih =>
    by_cases hline : p = .char '\n'
    · subst hline
      exact body?_newline (Ne.symm hquote) rest
    · have hp := hslash hsingle hescape
      rw [body?_plain ⟨hquote, hp, hline⟩, ih, bne_iff_ne.mpr hline, Bool.true_and]
      split
      · rename_i h
        rw [List.dropLast_cons_of_ne_nil (ne_nil_of_completes h), resolve_cons hp]
        rfl
      · rfl

theorem value?_cons (rest : Text) :
    value? (quote :: rest) = if isQuote quote then body? quote rest else none := by
  rw [value?, isComplete, body?_eq]
  cases isQuote quote <;> rfl

theorem body?_piece (piece : Piece quote) (rest : Text) :
    body? quote (piece.spelling ++ rest) = (body? quote rest).map (piece.value :: ·) := by
  cases piece with
  | plain p h => exact body?_plain h rest
  | escaped p => exact body?_escaped p rest

theorem body?_pieces (pieces : List (Piece quote)) (rest : Text) :
    body? quote (pieces.flatMap Piece.spelling ++ rest) =
      (body? quote rest).map (pieces.map Piece.value ++ ·) := by
  induction pieces with
  | nil => simp
  | cons piece pieces ih =>
    rw [List.flatMap_cons, List.append_assoc, body?_piece, ih, Option.map_map]
    rfl

/-- A source that is read can be cut into pieces: each step of the reading takes one off. -/
theorem exists_pieces_of_body? :
    {source value : Text} → body? quote source = some value →
      ∃ pieces : List (Piece quote), pieces.flatMap Piece.spelling ++ [quote] = source ∧
        pieces.map Piece.value = value
  | [], _, h => by cases h
  | p :: rest, value, h => by
    by_cases hslash : p = .char '\\'
    · subst hslash
      cases rest with
      | nil => cases h
      | cons next rest =>
        rw [body?_escaped] at h
        obtain ⟨more, hmore, rfl⟩ := Option.map_eq_some_iff.mp h
        obtain ⟨pieces, rfl, rfl⟩ := exists_pieces_of_body? hmore
        exact ⟨.escaped next :: pieces, rfl, rfl⟩
    by_cases hquote : p = quote
    · subst hquote
      rw [body?_quote hslash] at h
      obtain ⟨rfl, hvalue⟩ := Option.ite_none_right_eq_some.mp h
      exact ⟨[], rfl, Option.some.inj hvalue⟩
    by_cases hline : p = .char '\n'
    · subst hline
      rw [body?_newline (Ne.symm hquote)] at h
      cases h
    · have hplain : IsPlain quote p := ⟨hquote, hslash, hline⟩
      rw [body?_plain hplain] at h
      obtain ⟨more, hmore, rfl⟩ := Option.map_eq_some_iff.mp h
      obtain ⟨pieces, rfl, rfl⟩ := exists_pieces_of_body? hmore
      exact ⟨.plain p hplain :: pieces, rfl, rfl⟩

end Body

/-! ## Complete literals -/

/-- A complete literal. -/
structure Complete where
  quote : CodePoint
  isQuote : isQuote quote = true
  pieces : List (Piece quote)

theorem isQuote_iff {p : CodePoint} : isQuote p = true ↔ p = .char '\'' ∨ p = .char '"' := by
  rw [isQuote, Bool.or_eq_true, beq_iff_eq, beq_iff_eq]

theorem ne_slash_of_isQuote {p : CodePoint} (h : isQuote p = true) : p ≠ .char '\\' := by
  rcases isQuote_iff.mp h with rfl | rfl <;> decide

theorem ne_newline_of_isQuote {p : CodePoint} (h : isQuote p = true) : p ≠ .char '\n' := by
  rcases isQuote_iff.mp h with rfl | rfl <;> decide

theorem not_isBlank_of_isQuote {p : CodePoint} (h : isQuote p = true) : Text.isBlank p = false := by
  rcases isQuote_iff.mp h with rfl | rfl <;> decide

namespace Complete

/-- The code points between the quotes. -/
def inner (l : Complete) : Text :=
  l.pieces.flatMap Piece.spelling

/-- The source of a literal. -/
def source (l : Complete) : Text :=
  l.quote :: l.inner ++ [l.quote]

/-- The text that a literal stands for. -/
def value (l : Complete) : Text :=
  l.pieces.map Piece.value

end Complete

/-- A complete literal is read, and nothing may stand behind it. -/
theorem value?_source_append (l : Complete) (t : Text) :
    value? (l.source ++ t) = if t = [] then some l.value else none := by
  have hclose : body? l.quote (l.quote :: t) = if t = [] then some [] else none :=
    body?_quote (ne_slash_of_isQuote l.isQuote) t
  have hsplit : l.source ++ t = l.quote :: (l.pieces.flatMap Piece.spelling ++ l.quote :: t) := by
    simp [Complete.source, Complete.inner]
  rw [hsplit, value?_cons, if_pos l.isQuote, body?_pieces, hclose]
  split
  · exact congrArg some (List.append_nil _)
  · rfl

theorem value?_source (l : Complete) : value? l.source = some l.value := by
  have h := value?_source_append l []
  rwa [List.append_nil, if_pos rfl] at h

/-- The sources that are read are those of the complete literals. -/
theorem value?_eq_some_iff {source value : Text} :
    value? source = some value ↔ ∃ l : Complete, l.source = source ∧ l.value = value := by
  constructor
  · intro h
    cases source with
    | nil => cases h
    | cons q rest =>
      rw [value?_cons] at h
      split at h
      · rename_i hq
        obtain ⟨pieces, rfl, rfl⟩ := exists_pieces_of_body? h
        exact ⟨⟨q, hq, pieces⟩, rfl, rfl⟩
      · cases h
  · rintro ⟨l, rfl, rfl⟩
    exact value?_source l

theorem exists_complete_of_isSome {source : Text} (h : (value? source).isSome = true) :
    ∃ l : Complete, l.source = source := by
  obtain ⟨value, hvalue⟩ := Option.isSome_iff_exists.mp h
  obtain ⟨l, hsource, -⟩ := value?_eq_some_iff.mp hvalue
  exact ⟨l, hsource⟩

/-! ## Literals as attribute values -/

theorem trim_of_quotes {quote : CodePoint} (hquote : isQuote quote = true) (inner : Text) :
    Text.trim (quote :: inner ++ [quote]) = quote :: inner ++ [quote] := by
  have hblank : Text.isBlank quote = false := not_isBlank_of_isQuote hquote
  have hlast : (quote :: inner ++ [quote]).getLast? = some quote := List.getLast?_concat
  have h : Text.trimList Text.isBlank ([] ++ (quote :: inner ++ [quote]) ++ []) =
      quote :: inner ++ [quote] := by
    apply Text.trimList_append (List.forall_mem_nil _) (List.forall_mem_nil _)
    · exact List.cons_ne_nil _ _
    · rintro p ⟨⟩
      exact hblank
    · rw [hlast]
      rintro p ⟨⟩
      exact hblank
  rwa [List.nil_append, List.append_nil] at h

theorem Complete.trim_source (l : Complete) : Text.trim l.source = l.source :=
  trim_of_quotes l.isQuote l.inner

theorem plainText?_source (l : Complete) :
    plainText? l.source = if .char '"' ∈ l.value then none else some l.value := by
  rw [plainText?, value?_source]
  by_cases h : CodePoint.char '"' ∈ l.value
  · rw [if_pos h, Option.filter_some_neg (by simpa using h)]
  · rw [if_neg h, Option.filter_some_pos (by simpa using h)]

theorem plainText?_source_append (l : Complete) {t : Text} (ht : t ≠ []) :
    plainText? (l.source ++ t) = none := by
  rw [plainText?, value?_source_append, if_neg ht, Option.filter_none]

/-- The attribute of a source: the text that can be shown for it, or the source as an expression. -/
def attributeOf (name source : Text) : Option Text → Attribute
  | some text => { name := name, value := some text }
  | none => { name := name, value := some source, isExpression := true }

section Attributes

variable {name : Text} {value : AttributeValue}

/-- A value that starts with a quote is none of the true ones. -/
theorem isTrue_eq_false_of_quote {quote : CodePoint} {rest : Text} (hquote : isQuote quote = true)
    (h : Text.trim value.spelling = quote :: rest) : value.isTrue = false := by
  cases htrue : value.isTrue with
  | false => rfl
  | true =>
    have hletter : (Text.trim value.spelling).head?.any isQuote = false := by
      cases value with
      | source s =>
        rw [beq_iff_eq.mp htrue]
        decide
      | flag b =>
        rw [show b = true from htrue]
        decide
    rw [h, List.head?_cons, Option.any_some, hquote] at hletter
    cases hletter

theorem lowerAttribute_of_quote {quote : CodePoint} {rest : Text} (hquote : isQuote quote = true)
    (h : Text.trim value.spelling = quote :: rest) :
    lowerAttribute name value = attributeOf name (quote :: rest) (plainText? (quote :: rest)) := by
  rw [lowerAttribute, isTrue_eq_false_of_quote hquote h, ← h]
  exact if_neg Bool.false_ne_true

theorem lowerAttribute_source (l : Complete) :
    lowerAttribute name (.source l.source) =
      if .char '"' ∈ l.value then { name := name, value := some l.source, isExpression := true }
      else { name := name, value := some l.value } := by
  have h : lowerAttribute name (.source l.source) =
      attributeOf name l.source (plainText? l.source) :=
    lowerAttribute_of_quote l.isQuote l.trim_source
  rw [h, plainText?_source, apply_ite (attributeOf name l.source)]
  rfl

theorem lowerAttribute_source_append {l : Complete} {t : Text} (ht : t ≠ [])
    (h : Text.trim value.spelling = l.source ++ t) :
    lowerAttribute name value =
      { name := name, value := some (l.source ++ t), isExpression := true } := by
  have hnone : plainText? (l.source ++ t) = none := plainText?_source_append l ht
  calc
    lowerAttribute name value = attributeOf name (l.source ++ t) (plainText? (l.source ++ t)) :=
      lowerAttribute_of_quote l.isQuote h
    _ = attributeOf name (l.source ++ t) none := by rw [hnone]

theorem allTexts_map_some (texts : List Text) : allTexts (texts.map some) = some texts := by
  induction texts with
  | nil => rfl
  | cons text texts ih =>
    rw [List.map_cons, allTexts, ih]
    rfl

theorem allTexts_of_mem_none {options : List (Option Text)} (h : none ∈ options) :
    allTexts options = none := by
  induction options with
  | nil => cases h
  | cons option options ih =>
    cases option with
    | none => rfl
    | some text =>
      rw [allTexts, ih (by simpa using h)]
      rfl

theorem mergeClasses_of_texts {values : List AttributeValue} {texts : List Text}
    (h : (values.map fun v => Text.trim v.spelling).map plainText? = texts.map some) :
    mergeClasses name values = { name := name, value := some (Text.joinWith " " texts) } := by
  simp only [mergeClasses, h, allTexts_map_some]

theorem mergeClasses_of_none {values : List AttributeValue} (hvalue : value ∈ values)
    (h : plainText? (Text.trim value.spelling) = none) :
    mergeClasses name values =
      { name := name
        value := some ("[" ++ Text.joinWith ", " (values.map fun v => Text.trim v.spelling) ++
          "].join(\" \")")
        isExpression := true } := by
  have hmem : none ∈ (values.map fun v => Text.trim v.spelling).map plainText? := by
    rw [← h]
    exact List.mem_map_of_mem (List.mem_map_of_mem hvalue)
  simp only [mergeClasses, allTexts_of_mem_none hmem]

end Attributes

/-- If a source is read as a literal, no proper prefix of it is and nothing that goes on behind it.
An attribute value of this kind stays as it is, as an expression by itself and among the values that
are joined to one class attribute. -/
theorem literal_stands_alone (s : Text) (h : (value? s).isSome = true) :
    (∀ t, t ≠ [] → value? (s ++ t) = none) ∧
      (∀ p, p <+: s → p ≠ s → value? p = none) ∧
      ∀ (value : AttributeValue) (t name : Text), t ≠ [] → Text.trim value.spelling = s ++ t →
        lowerAttribute name value =
            { name := name, value := some (s ++ t), isExpression := true } ∧
          ∀ before after : List AttributeValue,
            mergeClasses name (before ++ value :: after) =
              { name := name
                value := some ("[" ++ Text.joinWith ", "
                  ((before.map fun v => Text.trim v.spelling) ++ (s ++ t) ::
                    after.map fun v => Text.trim v.spelling) ++ "].join(\" \")")
                isExpression := true } := by
  obtain ⟨l, rfl⟩ := exists_complete_of_isSome h
  refine ⟨?_, ?_, ?_⟩
  · intro t ht
    rw [value?_source_append, if_neg ht]
  · rintro p ⟨t, hp⟩ hne
    -- Were the prefix read, then nothing could stand between it and the end of the literal.
    cases hvalue : value? p with
    | none => rfl
    | some value =>
      obtain ⟨k, rfl, -⟩ := value?_eq_some_iff.mp hvalue
      have ht : t ≠ [] := by
        rintro rfl
        exact hne ((List.append_nil _).symm.trans hp)
      rw [← hp, value?_source_append, if_neg ht] at h
      cases h
  · intro value t name ht htrim
    refine ⟨lowerAttribute_source_append ht htrim, ?_⟩
    intro before after
    have hmem : value ∈ before ++ value :: after := List.mem_append_right _ List.mem_cons_self
    have hnone : plainText? (Text.trim value.spelling) = none := by
      rw [htrim]
      exact plainText?_source_append l ht
    rw [mergeClasses_of_none hmem hnone, List.map_append, List.map_cons, htrim]

/-- A sum of two literals between blanks. The first one ends with an escaped quote, and a quote of
its kind comes last, but the second one is no part of it. -/
theorem literal_stands_alone_sum :
    (value? "'a\\''").isSome = true ∧ value? "'a\\'' + 'b'" = none ∧ value? "'a\\'" = none ∧
      lowerAttribute "title" (.source " 'a\\'' + 'b'\n") =
        { name := "title", value := some "'a\\'' + 'b'", isExpression := true } ∧
      mergeClasses "className" [.source "'c'", .source " 'a\\'' + 'b'\n", .flag true] =
        { name := "className"
          value := some "['c', 'a\\'' + 'b', True].join(\" \")"
          isExpression := true } := by
  have hread : (value? "'a\\''").isSome = true := by decide
  have hmore : Text.ofString " + 'b'" ≠ [] := by decide
  obtain ⟨happend, hfront, hvalue⟩ := literal_stands_alone _ hread
  have hsum := fun name => hvalue (.source " 'a\\'' + 'b'\n") " + 'b'" name hmore rfl
  refine ⟨hread, happend _ hmore, hfront _ ⟨"'", rfl⟩ (by decide), (hsum _).1, ?_⟩
  exact (hsum _).2 [.source "'c'"] [.flag true]

/-! ## Writing a text as a literal -/

/-- The ways to write a code point between quotes `quote`. A tab, a carriage return and a NUL may be
escaped or not. -/
inductive Writes (quote : CodePoint) : CodePoint → Text → Prop where
  | slash : Writes quote (.char '\\') [.char '\\', .char '\\']
  | quote : Writes quote quote [.char '\\', quote]
  | newline : Writes quote (.char '\n') [.char '\\', .char 'n']
  | tab : Writes quote (.char '\t') [.char '\\', .char 't']
  | carriageReturn : Writes quote (.char '\r') [.char '\\', .char 'r']
  | nul : Writes quote (.char (Char.ofNat 0)) [.char '\\', .char '0']
  | plain {p : CodePoint} (h : IsPlain quote p) : Writes quote p [p]

/-- The literals that a text is written as in quotes `quote`: each code point in one of its ways, one
after the other. -/
def Quotes (quote : CodePoint) (s literal : Text) : Prop :=
  ∃ parts, List.Forall₂ (Writes quote) s parts ∧ literal = quote :: parts.flatten ++ [quote]

/-- The literals that a text is written as in quotes of either kind. -/
def IsQuoted (s literal : Text) : Prop :=
  ∃ quote, isQuote quote = true ∧ Quotes quote s literal

theorem Writes.exists_piece {quote p : CodePoint} {part : Text} (hquote : isQuote quote = true)
    (h : Writes quote p part) : ∃ piece : Piece quote, piece.spelling = part ∧ piece.value = p := by
  cases h with
  | slash | newline | tab | carriageReturn | nul => exact ⟨.escaped _, rfl, rfl⟩
  | quote =>
    refine ⟨.escaped quote, rfl, ?_⟩
    rcases isQuote_iff.mp hquote with rfl | rfl <;> rfl
  | plain hplain => exact ⟨.plain p hplain, rfl, rfl⟩

theorem exists_pieces_of_writes {quote : CodePoint} {s : Text} {parts : List Text}
    (hquote : isQuote quote = true) (h : List.Forall₂ (Writes quote) s parts) :
    ∃ pieces : List (Piece quote), pieces.map Piece.spelling = parts ∧
      pieces.map Piece.value = s := by
  induction h with
  | nil => exact ⟨[], rfl, rfl⟩
  | cons hfirst _ ih =>
    obtain ⟨piece, rfl, rfl⟩ := hfirst.exists_piece hquote
    obtain ⟨pieces, rfl, rfl⟩ := ih
    exact ⟨piece :: pieces, rfl, rfl⟩

theorem Quotes.exists_complete {quote : CodePoint} {s literal : Text}
    (hquote : isQuote quote = true) (h : Quotes quote s literal) :
    ∃ l : Complete, l.source = literal ∧ l.value = s := by
  obtain ⟨parts, hparts, rfl⟩ := h
  obtain ⟨pieces, rfl, rfl⟩ := exists_pieces_of_writes hquote hparts
  refine ⟨⟨quote, hquote, pieces⟩, ?_, rfl⟩
  rw [Complete.source, Complete.inner, List.flatMap_def]

theorem IsQuoted.exists_complete {s literal : Text} (h : IsQuoted s literal) :
    ∃ l : Complete, l.source = literal ∧ l.value = s := by
  obtain ⟨quote, hquote, h⟩ := h
  exact h.exists_complete hquote

theorem trim_of_isQuoted {texts literals : List Text} (h : List.Forall₂ IsQuoted texts literals) :
    ((literals.map AttributeValue.source).map fun v => Text.trim v.spelling) = literals := by
  induction h with
  | nil => rfl
  | cons hfirst _ ih =>
    obtain ⟨l, rfl, -⟩ := hfirst.exists_complete
    rw [List.map_cons, List.map_cons, ih]
    exact congrArg (· :: _) l.trim_source

theorem plainText?_of_isQuoted {texts literals : List Text}
    (h : List.Forall₂ IsQuoted texts literals) :
    literals.map plainText? = texts.map fun s => if .char '"' ∈ s then none else some s := by
  induction h with
  | nil => rfl
  | cons hfirst _ ih =>
    obtain ⟨l, rfl, rfl⟩ := hfirst.exists_complete
    rw [List.map_cons, List.map_cons, ih, plainText?_source]

/-- Class values that are literals are joined as texts, or as literals if a text holds a double
quote. -/
theorem mergeClasses_of_isQuoted {texts literals : List Text} (name : Text)
    (h : List.Forall₂ IsQuoted texts literals) :
    mergeClasses name (literals.map .source) =
      if ∃ s ∈ texts, .char '"' ∈ s then
        { name := name
          value := some ("[" ++ Text.joinWith ", " literals ++ "].join(\" \")")
          isExpression := true }
      else { name := name, value := some (Text.joinWith " " texts) } := by
  have htrim := trim_of_isQuoted h
  have hplain := plainText?_of_isQuoted h
  split
  · rename_i hquote
    obtain ⟨s, hs, hmem⟩ := hquote
    have hnone : none ∈ literals.map plainText? := by
      rw [hplain]
      exact List.mem_map.mpr ⟨s, hs, if_pos hmem⟩
    obtain ⟨literal, hliteral, hnone⟩ := List.mem_map.mp hnone
    rw [← htrim] at hliteral
    obtain ⟨value, hvalue, rfl⟩ := List.mem_map.mp hliteral
    rw [mergeClasses_of_none hvalue hnone, htrim]
  · rename_i hquote
    apply mergeClasses_of_texts
    rw [htrim, hplain]
    apply List.map_congr_left
    intro s hs
    exact if_neg fun hmem => hquote ⟨s, hs, hmem⟩

/-- However a text is written as a literal, it is read back. As an attribute value it becomes a
string attribute, unless it holds a double quote: then the literal stays as it is. Several class
values are joined in the same way, whatever quotes each of them is written in. -/
theorem quotes_read_back (quote : CodePoint) (s literal : Text) (hquote : isQuote quote = true)
    (h : Quotes quote s literal) (name : Text) :
    value? literal = some s ∧
      lowerAttribute name (.source literal) =
        (if .char '"' ∈ s then { name := name, value := some literal, isExpression := true }
        else { name := name, value := some s }) ∧
      ∀ texts literals, List.Forall₂ IsQuoted texts literals →
        mergeClasses name ((literal :: literals).map .source) =
          if ∃ t ∈ s :: texts, .char '"' ∈ t then
            { name := name
              value := some ("[" ++ Text.joinWith ", " (literal :: literals) ++ "].join(\" \")")
              isExpression := true }
          else { name := name, value := some (Text.joinWith " " (s :: texts)) } := by
  obtain ⟨l, rfl, rfl⟩ := h.exists_complete hquote
  refine ⟨value?_source l, lowerAttribute_source l, ?_⟩
  intro texts literals hothers
  exact mergeClasses_of_isQuoted name (.cons ⟨quote, hquote, h⟩ hothers)

/-- A backslash in front of an `n`, both quotes and a tab, in single quotes and with the tab left
as it is; then a text without a double quote, in double quotes. -/
theorem quotes_read_back_slashes :
    Quotes (.char '\'') "\\n'\"\t" "'\\\\n\\'\"\t'" ∧ IsQuoted "a\n" "\"a\\n\"" ∧
      value? "'\\\\n\\'\"\t'" = some "\\n'\"\t" ∧
      mergeClasses "className" [.source "'\\\\n\\'\"\t'", .source "\"a\\n\""] =
        { name := "className"
          value := some "['\\\\n\\'\"\t', \"a\\n\"].join(\" \")"
          isExpression := true } := by
  have hslashes : Quotes (.char '\'') "\\n'\"\t" "'\\\\n\\'\"\t'" :=
    ⟨["\\\\", "n", "\\'", "\"", "\t"],
      .cons .slash (.cons (.plain (by decide)) (.cons .quote (.cons (.plain (by decide))
        (.cons (.plain (by decide)) .nil)))), rfl⟩
  have hnewline : IsQuoted "a\n" "\"a\\n\"" :=
    ⟨.char '"', rfl, ["a", "\\n"], .cons (.plain (by decide)) (.cons .newline .nil), rfl⟩
  obtain ⟨hread, -, hmerged⟩ := quotes_read_back _ _ _ rfl hslashes "className"
  exact ⟨hslashes, hnewline, hread, hmerged ["a\n"] ["\"a\\n\""] (.cons hnewline .nil)⟩

end Literal

end Lowering
