import Lowering.Proofs.AttributeLists
import Lowering.Proofs.Equations

/-!
# Dialects of scripts

A quoted attribute value has two readers. The `type` of a script tag loses one quote at each end, and
nothing else is looked at; on an element a value is read as a literal, with its escapes. They agree
on the literals without a backslash, and on no others: an escape takes two code points and stands
for one.

* `Literal.stripQuotes_source`: without its quotes, a literal is what stands between them;
* `Literal.stripQuotes_eq_iff`: this is the text that the literal stands for exactly if it holds no
  backslash;
* `Attribute.shown?`: the text that an attribute shows;
* `dialect_is_shown_text`: the dialect of a script tag is the text that an element shows for the
  same `type` attribute.
-/

namespace Lowering

namespace Literal

/-! ## Literals without their quotes -/

theorem dropQuote_cons {p : CodePoint} (h : isQuote p = true) (rest : Text) :
    dropQuote (p :: rest) = rest :=
  if_pos h

/-- A quote goes at each end, and what stands between them may itself start or end with quotes. -/
theorem stripQuotes_of_quotes {first last : CodePoint} (hfirst : isQuote first = true)
    (hlast : isQuote last = true) (inner : Text) :
    stripQuotes (first :: inner ++ [last]) = inner := by
  have hreverse : (inner ++ [last]).reverse = last :: inner.reverse := List.reverse_concat
  rw [stripQuotes, List.cons_append, dropQuote_cons hfirst, hreverse, dropQuote_cons hlast,
    List.reverse_reverse]

theorem stripQuotes_source (l : Complete) : stripQuotes l.source = l.inner :=
  stripQuotes_of_quotes l.isQuote l.isQuote l.inner

section Pieces

variable {quote : CodePoint}

theorem Piece.length_spelling_pos (piece : Piece quote) : 1 ≤ piece.spelling.length := by
  cases piece <;> simp [spelling]

theorem length_le_spelling (pieces : List (Piece quote)) :
    pieces.length ≤ (pieces.flatMap Piece.spelling).length := by
  induction pieces with
  | nil => exact Nat.le_refl 0
  | cons piece pieces ih =>
    have hpiece := piece.length_spelling_pos
    rw [List.flatMap_cons, List.length_append, List.length_cons]
    omega

/-- Pieces stand for what is written exactly if none of them is escaped: the first escaped one makes
the source longer, and no piece behind it is shorter than what it stands for. -/
theorem spelling_eq_value_iff (pieces : List (Piece quote)) :
    pieces.flatMap Piece.spelling = pieces.map Piece.value ↔
      .char '\\' ∉ pieces.flatMap Piece.spelling := by
  induction pieces with
  | nil => exact iff_of_true rfl List.not_mem_nil
  | cons piece pieces ih =>
    rw [List.flatMap_cons, List.map_cons]
    cases piece with
    | plain p h =>
      have hcons : Piece.spelling (.plain p h) ++ pieces.flatMap Piece.spelling =
          p :: pieces.flatMap Piece.spelling := rfl
      rw [hcons, Piece.value, List.cons_eq_cons, and_iff_right rfl, ih, List.mem_cons,
        or_iff_right (Ne.symm h.ne_slash)]
    | escaped p =>
      refine iff_of_false ?_ (not_not_intro List.mem_cons_self)
      intro heq
      have hle := length_le_spelling pieces
      have hlength := congrArg List.length heq
      simp only [Piece.spelling, List.length_append, List.length_cons, List.length_nil,
        List.length_map] at hlength
      omega

end Pieces

theorem Complete.slash_mem_source_iff (l : Complete) :
    .char '\\' ∈ l.source ↔ .char '\\' ∈ l.inner := by
  have hquote : CodePoint.char '\\' ≠ l.quote := Ne.symm (ne_slash_of_isQuote l.isQuote)
  rw [source, List.cons_append, List.mem_cons, or_iff_right hquote, List.mem_append,
    List.mem_singleton, or_iff_left hquote]

/-- The two readers of a literal agree exactly if it holds no backslash. -/
theorem stripQuotes_eq_iff {source text : Text} (h : value? source = some text) :
    stripQuotes source = text ↔ .char '\\' ∉ source := by
  obtain ⟨l, rfl, rfl⟩ := value?_eq_some_iff.mp h
  rw [stripQuotes_source, l.slash_mem_source_iff]
  exact spelling_eq_value_iff l.pieces

example : stripQuotes "'text\\/x'" = "text\\/x" ∧ value? "'text\\/x'" = some "text/x" := by decide

end Literal

/-! ## Shown texts -/

/-- The text that an attribute shows: a string as it is, and an expression that is a literal by the
text it stands for. -/
def Attribute.shown? (a : Attribute) : Option Text :=
  if a.isExpression then a.value.bind Literal.value? else a.value

/-- A literal is shown as the text that it stands for, also where a double quote in the text makes
the attribute an expression. -/
theorem shown?_lowerAttribute {source text : Text} (h : Literal.value? source = some text)
    (name : Text) : (lowerAttribute name (.source source)).shown? = some text := by
  obtain ⟨l, rfl, rfl⟩ := Literal.value?_eq_some_iff.mp h
  rw [Literal.lowerAttribute_source]
  split
  · exact h
  · rfl

/-- An attribute that is no class attribute is lowered by itself, whatever stands around it. -/
theorem lowerAttribute_mem_lowerAttributes {attributes : List TagAttribute} {a : TagAttribute}
    (config : Config) (h : a ∈ attributes) (hclass : a.name ≠ classAttribute) :
    lowerAttribute (config.rename a.name) a.value ∈ lowerAttributes config attributes := by
  obtain ⟨b, hb, rfl | ⟨-, haclass⟩⟩ := exists_mem_firstClassOnly h
  · rw [lowerAttributes_eq]
    exact List.mem_map.mpr ⟨_, hb, if_neg hclass⟩
  · exact absurd haclass hclass

/-! ## Dialects -/

/-- The two readers of a literal agree exactly if it holds no backslash. So the dialect that a script
tag is recognized by is the text that an element shows for the same `type` attribute, and the tag is
refused if this text is neither dialect. The element shows it also with a backslash. -/
theorem dialect_is_shown_text (source text : Text) (hread : Literal.value? source = some text) :
    (Literal.stripQuotes source = text ↔ .char '\\' ∉ source) ∧
      ∀ (config : Config) (attributes : List TagAttribute) (a : TagAttribute),
        attributes.find? (fun b => b.name == dialectAttribute) = some a →
        a.value = .source source →
          (∀ (reader : ScriptReader) (mark : Mark) (tag : Tag) (body : Option Block),
            tag.attributes = attributes → tag.IsElement config →
              ∃ output, (Node.tag mark tag body).outputs (.standard config reader) = [output] ∧
                lowerAttribute (config.rename a.name) a.value ∈ output.attributes ∧
                (lowerAttribute (config.rename a.name) a.value).shown? = some text) ∧
          (.char '\\' ∉ source → (∀ b ∈ attributes, b.name ≠ sourceAttribute) →
            scriptDialect config attributes =
              if text = config.primaryDialect ∨ text = config.templateDialect then .ok text
              else .error (.unknownDialect config.primaryDialect config.templateDialect)) := by
  have hagree := Literal.stripQuotes_eq_iff hread
  refine ⟨hagree, ?_⟩
  intro config attributes a hfind hvalue
  constructor
  · rintro reader mark tag body rfl helement
    have hname : a.name = dialectAttribute := by simpa using List.find?_some hfind
    have hclass : a.name ≠ classAttribute := by
      rw [hname]
      decide
    refine ⟨_, (Node.outputs_tag config reader mark tag body).trans (if_pos helement), ?_, ?_⟩
    · exact lowerAttribute_mem_lowerAttributes config (List.mem_of_find?_eq_some hfind) hclass
    · rw [hvalue]
      exact shown?_lowerAttribute hread _
  · intro hslash hinside
    have hdialect : Literal.stripQuotes a.value.spelling = text := by
      rw [hvalue]
      exact hagree.mpr hslash
    have hexternal : ¬(attributes.any fun b => b.name == sourceAttribute) = true := by
      simpa using hinside
    rw [scriptDialect, if_neg hexternal, hfind]
    simp only [hdialect]

/-- A dialect whose name stands in double quotes, so that its element shows an expression, and one
whose name is empty. -/
theorem dialect_is_shown_text_quoted :
    let config : Config := { primaryDialect := "\"ts\"", templateDialect := "" }
    let attributes : List TagAttribute :=
      [⟨"class", .source "'a'", true⟩, ⟨"type", .source "'\"ts\"'", true⟩,
        ⟨"type", .source "''", true⟩]
    Literal.value? "'\"ts\"'" = some "\"ts\"" ∧ Literal.stripQuotes "'\"ts\"'" = "\"ts\"" ∧
      scriptDialect config attributes = .ok "\"ts\"" ∧
      (∃ output, (Node.tag {} { name := "p", attributes := attributes } none).outputs
          (.standard config (.fixed (.statements []))) = [output] ∧
        { name := "type", value := some "'\"ts\"'", isExpression := true } ∈ output.attributes) ∧
      Literal.stripQuotes "''" = "" ∧ scriptDialect config (attributes.drop 2) = .ok "" := by
  intro config attributes
  have hquoted : Literal.value? "'\"ts\"'" = some "\"ts\"" := by decide
  have hempty : Literal.value? "''" = some "" := by decide
  obtain ⟨hstrip, hfirst⟩ := dialect_is_shown_text _ _ hquoted
  obtain ⟨hstripEmpty, hlast⟩ := dialect_is_shown_text _ _ hempty
  obtain ⟨helement, hscript⟩ := hfirst config attributes _ rfl rfl
  obtain ⟨-, hscriptEmpty⟩ := hlast config (attributes.drop 2) _ rfl rfl
  obtain ⟨output, houtput, hmem, -⟩ := helement (.fixed (.statements [])) {}
    { name := "p", attributes := attributes } none rfl (by decide)
  refine ⟨hquoted, hstrip.mpr (by decide), ?_, ⟨output, houtput, hmem⟩,
    hstripEmpty.mpr (by decide), ?_⟩
  · exact (hscript (by decide) (by decide)).trans (if_pos (.inl rfl))
  · exact (hscriptEmpty (by decide) (by decide)).trans (if_pos (.inr rfl))

end Lowering
