import Mathlib.Data.List.TakeDrop
import Lowering.Output.Render
import Lowering.Proofs.Pieces

/-!
# Lists of attributes

The attributes of a tag are lowered in order, and its class attributes become one at the place of
the first. So each lowered attribute carries one value of the tag, or all its class values.

* `carriers`: the attributes that are lowered, each with the values that it carries;
* `lowerAttributes_eq_map`: the lowered list has one attribute for each of them;
* `Attribute.IsClosed`: a string attribute ends at the quote that closes it;
* `lowerAttributes_merges_in_order`: order, names, number and quotes of the lowered list;
* `shownAttributes`: the attributes that show those of a tag, said without the order of steps;
* `OnlyBareFlags`: the truth values of a tag all become bare attributes;
* `flags_read_as_literals_iff`: exactly then they mean what the literals `true` and `false` mean.
-/

namespace Lowering

/-! ## Order -/

/-- Attributes without the class attributes behind the first one. -/
def firstClassOnly : List TagAttribute → List TagAttribute
  | [] => []
  | a :: rest =>
    if a.name = classAttribute then a :: rest.filter fun b => b.name ≠ classAttribute
    else a :: firstClassOnly rest

/-- An attribute before it is lowered, with all the values that it carries. -/
structure Carrier where
  name : Text
  values : List AttributeValue

/-- The attribute `a` among attributes: a class attribute carries all class values. -/
def carrierOf (attributes : List TagAttribute) (a : TagAttribute) : Carrier where
  name := a.name
  values := if a.name = classAttribute then classValues attributes else [a.value]

/-- The attributes that are lowered. -/
def carriers (attributes : List TagAttribute) : List Carrier :=
  (firstClassOnly attributes).map (carrierOf attributes)

/-- Lowers an attribute with the values that it carries. -/
def Carrier.lower (config : Config) (c : Carrier) : Attribute :=
  lowerClasses (config.rename c.name) c.values

section Order

variable (config : Config)

theorem lowerRest_none (attributes : List TagAttribute) :
    lowerRest config none attributes =
      (attributes.filter fun a => a.name ≠ classAttribute).map fun a =>
        lowerAttribute (config.rename a.name) a.value := by
  induction attributes with
  | nil => rfl
  | cons a rest ih =>
    by_cases h : a.name = classAttribute
    · rw [lowerRest, if_neg (not_not.mpr h), ih, List.filter_cons_of_neg (by simpa using h)]
    · rw [lowerRest, if_pos h, ih, List.filter_cons_of_pos (by simpa using h), List.map_cons]

theorem lowerRest_some (values : List AttributeValue) (attributes : List TagAttribute) :
    lowerRest config (some values) attributes =
      (firstClassOnly attributes).map fun a =>
        if a.name = classAttribute then lowerClasses (config.rename a.name) values
        else lowerAttribute (config.rename a.name) a.value := by
  induction attributes with
  | nil => rfl
  | cons a rest ih =>
    by_cases h : a.name = classAttribute
    · rw [lowerRest, if_neg (not_not.mpr h), firstClassOnly, if_pos h, List.map_cons, if_pos h,
        lowerRest_none]
      congr 1
      apply List.map_congr_left
      intro b hb
      rw [if_neg (by simpa using List.of_mem_filter hb)]
    · rw [lowerRest, if_pos h, ih, firstClassOnly, if_neg h, List.map_cons, if_neg h]

theorem lowerAttributes_eq (attributes : List TagAttribute) :
    lowerAttributes config attributes =
      (firstClassOnly attributes).map fun a =>
        if a.name = classAttribute then lowerClasses (config.rename a.name) (classValues attributes)
        else lowerAttribute (config.rename a.name) a.value :=
  lowerRest_some config (classValues attributes) attributes

/-- Each carrier is lowered by itself. -/
theorem lowerAttributes_eq_map (attributes : List TagAttribute) :
    lowerAttributes config attributes = (carriers attributes).map (Carrier.lower config) := by
  rw [lowerAttributes_eq, carriers, List.map_map]
  apply List.map_congr_left
  intro a _
  by_cases h : a.name = classAttribute
  · rw [if_pos h, Function.comp_apply, Carrier.lower, carrierOf, if_pos h]
  · rw [if_neg h, Function.comp_apply, Carrier.lower, carrierOf, if_neg h]
    rfl

end Order

theorem length_firstClassOnly (attributes : List TagAttribute) :
    (firstClassOnly attributes).length =
      attributes.countP (fun a => a.name ≠ classAttribute) +
        if ∃ a ∈ attributes, a.name = classAttribute then 1 else 0 := by
  induction attributes with
  | nil => simp [firstClassOnly]
  | cons a rest ih =>
    by_cases h : a.name = classAttribute
    · rw [firstClassOnly, if_pos h, List.length_cons, ← List.countP_eq_length_filter,
        List.countP_cons_of_neg (by simpa using h), if_pos ⟨a, List.mem_cons_self, h⟩]
    · have hrest : (∃ b ∈ a :: rest, b.name = classAttribute) ↔
          ∃ b ∈ rest, b.name = classAttribute := by
        rw [List.exists_mem_cons_iff, or_iff_right h]
      rw [firstClassOnly, if_neg h, List.length_cons, ih,
        List.countP_cons_of_pos (by simpa using h), if_congr hrest rfl rfl]
      omega

/-- The name that replacements give to a name: the last one for it counts, and without one it stays
as it is. -/
def IsRenamed (renames : List (Text × Text)) (name new : Text) : Prop :=
  (∃ before after, renames = before ++ (name, new) :: after ∧ ∀ pair ∈ after, pair.1 ≠ name) ∨
    (∀ pair ∈ renames, pair.1 ≠ name) ∧ new = name

theorem isRenamed_rename (config : Config) (name : Text) :
    IsRenamed config.renames name (config.rename name) := by
  cases h : config.renames.reverse.lookup name with
  | none =>
    have hnew : config.rename name = name := by rw [Config.rename, h, Option.getD_none]
    refine .inr ⟨?_, hnew⟩
    intro pair hpair heq
    have hne := List.lookup_eq_none_iff.mp h pair (List.mem_reverse.mpr hpair)
    exact bne_iff_ne.mp hne heq.symm
  | some new =>
    have hnew : config.rename name = new := by rw [Config.rename, h, Option.getD_some]
    rw [hnew]
    obtain ⟨after, before, hsplit, hafter⟩ := List.lookup_eq_some_iff.mp h
    refine .inl ⟨before.reverse, after.reverse, ?_, ?_⟩
    · rw [← List.reverse_reverse config.renames, hsplit]
      simp
    · intro pair hpair heq
      have hne := hafter pair (List.mem_reverse.mp hpair)
      exact bne_iff_ne.mp hne heq.symm

/-! ## Quotes -/

/-- An attribute that can be read off its rendering: a bare one is no expression, and a string holds
no double quote. -/
structure Attribute.IsClosed (a : Attribute) : Prop where
  bare : a.value = none → a.isExpression = false
  string : ∀ value, a.value = some value → a.isExpression = false → .char '"' ∉ value

section Quotes

variable (name : Text)

theorem isClosed_bare : ({ name := name } : Attribute).IsClosed where
  bare _ := rfl
  string := nofun

theorem isClosed_expression (value : Text) :
    ({ name := name, value := some value, isExpression := true } : Attribute).IsClosed where
  bare := nofun
  string := nofun

theorem isClosed_string {value : Text} (h : .char '"' ∉ value) :
    ({ name := name, value := some value } : Attribute).IsClosed where
  bare := nofun
  string := by
    rintro _ ⟨⟩ -
    exact h

theorem quote_notMem_plainText? {source text : Text} (h : plainText? source = some text) :
    .char '"' ∉ text := by
  rw [plainText?, Option.filter_eq_some_iff] at h
  simpa using h.2

theorem isClosed_lowerAttribute (value : AttributeValue) :
    (lowerAttribute name value).IsClosed := by
  unfold lowerAttribute
  split
  · exact isClosed_bare name
  · dsimp only
    split
    · rename_i text htext
      exact isClosed_string name (quote_notMem_plainText? htext)
    · exact isClosed_expression name _

theorem eq_map_some_of_allTexts {options : List (Option Text)} {texts : List Text}
    (h : allTexts options = some texts) : options = texts.map some := by
  induction options generalizing texts with
  | nil =>
    cases h
    rfl
  | cons option rest ih =>
    cases option with
    | none => cases h
    | some text =>
      obtain ⟨others, hothers, rfl⟩ := Option.map_eq_some_iff.mp h
      rw [ih hothers, List.map_cons]

theorem notMem_joinWith {p : CodePoint} {separator : Text} (hseparator : p ∉ separator)
    {texts : List Text} (h : ∀ text ∈ texts, p ∉ text) : p ∉ Text.joinWith separator texts := by
  induction texts with
  | nil => exact List.not_mem_nil
  | cons text rest ih =>
    rw [List.forall_mem_cons] at h
    cases rest with
    | nil => exact h.1
    | cons next rest =>
      rw [Text.joinWith_cons_cons, List.mem_append, List.mem_append]
      rintro ((hp | hp) | hp)
      · exact h.1 hp
      · exact hseparator hp
      · exact ih h.2 hp

theorem isClosed_mergeClasses (values : List AttributeValue) :
    (mergeClasses name values).IsClosed := by
  unfold mergeClasses
  dsimp only
  split
  · rename_i texts htexts
    refine isClosed_string name (notMem_joinWith (by decide) ?_)
    intro text htext
    have hmem : some text ∈ (values.map fun v => Text.trim v.spelling).map plainText? := by
      rw [eq_map_some_of_allTexts htexts]
      exact List.mem_map_of_mem htext
    obtain ⟨source, -, hsource⟩ := List.mem_map.mp hmem
    exact quote_notMem_plainText? hsource
  · exact isClosed_expression name _

theorem isClosed_lowerClasses (values : List AttributeValue) :
    (lowerClasses name values).IsClosed := by
  unfold lowerClasses
  split
  · exact isClosed_lowerAttribute name _
  · exact isClosed_mergeClasses name _

theorem isClosed_lowerAttributes (config : Config) (attributes : List TagAttribute) :
    ∀ a ∈ lowerAttributes config attributes, a.IsClosed := by
  rw [lowerAttributes_eq_map, List.forall_mem_map]
  intro c _
  exact isClosed_lowerClasses _ c.values

end Quotes

theorem Attribute.render_string {a : Attribute} {value : Text} (hvalue : a.value = some value)
    (hstring : a.isExpression = false) : a.render = a.name ++ "=\"" ++ value ++ "\"" := by
  rw [Attribute.render, hvalue, hstring]
  rfl

/-- Behind the quote that opens a string attribute, its value lasts until the next quote, whatever
follows the attribute. -/
theorem Attribute.IsClosed.span_render {a : Attribute} (h : a.IsClosed) {value : Text}
    (hvalue : a.value = some value) (hstring : a.isExpression = false) (rest : Text) :
    ((a.render ++ rest).drop (a.name ++ "=\"").length).span (· ≠ .char '"') =
      (value, .char '"' :: rest) := by
  have hrender : a.render ++ rest = a.name ++ "=\"" ++ (value ++ .char '"' :: rest) := by
    rw [Attribute.render_string hvalue hstring, List.append_assoc, List.append_assoc]
    rfl
  have hquote : ∀ p ∈ value, decide (p ≠ .char '"') = true := by
    intro p hp
    have hne : p ≠ .char '"' := fun heq => h.string value hvalue hstring (heq ▸ hp)
    simpa using hne
  rw [hrender, List.drop_left, List.span_eq_takeWhile_dropWhile,
    List.takeWhile_append_of_pos hquote, List.dropWhile_append_of_pos hquote]
  simp

/-- The lowered list is the list of attributes without the class attributes behind the first one.
Every other attribute is lowered under its new name, at its place. The class attribute stands for
all class values in order: one is lowered like any other value, several are merged. Bare attributes
are no expressions, and a string ends at the quote that closes it. -/
theorem lowerAttributes_merges_in_order (config : Config) (attributes : List TagAttribute) :
    lowerAttributes config attributes =
        (firstClassOnly attributes).map (fun a =>
          if a.name ≠ classAttribute then lowerAttribute (config.rename a.name) a.value
          else match classValues attributes with
            | [value] => lowerAttribute (config.rename a.name) value
            | values => mergeClasses (config.rename a.name) values) ∧
      (∀ name, IsRenamed config.renames name (config.rename name)) ∧
      (lowerAttributes config attributes).length =
        attributes.countP (fun a => a.name ≠ classAttribute) +
          (if ∃ a ∈ attributes, a.name = classAttribute then 1 else 0) ∧
      ∀ a ∈ lowerAttributes config attributes,
        (a.value = none → a.isExpression = false) ∧
          ∀ value, a.value = some value → a.isExpression = false →
            .char '"' ∉ value ∧ a.render = a.name ++ "=\"" ++ value ++ "\"" ∧
              ∀ rest, ((a.render ++ rest).drop (a.name ++ "=\"").length).span (· ≠ .char '"') =
                (value, .char '"' :: rest) := by
  refine ⟨?_, isRenamed_rename config, ?_, ?_⟩
  · rw [lowerAttributes_eq]
    apply List.map_congr_left
    intro a _
    rw [ite_not]
    rcases classValues attributes with _ | ⟨value, _ | ⟨next, rest⟩⟩ <;> rfl
  · rw [lowerAttributes_eq, List.length_map, length_firstClassOnly]
  · intro a ha
    have hclosed : a.IsClosed := isClosed_lowerAttributes config attributes a ha
    refine ⟨hclosed.bare, ?_⟩
    intro value hvalue hstring
    exact ⟨hclosed.string value hvalue hstring, Attribute.render_string hvalue hstring,
      hclosed.span_render hvalue hstring⟩

/-- Classes around an identifier, one of them with a blank in its literal; the replacements rename
`class` twice. -/
theorem lowerAttributes_merges_scattered :
    let config : Config :=
      { renames := [("class", "className"), ("for", "htmlFor"), ("class", "css")] }
    let attributes : List TagAttribute :=
      [⟨"for", .source "'x'", true⟩, ⟨"class", .source "'a'", true⟩, ⟨"id", .source "main", true⟩,
        ⟨"class", .source " \"b c\" ", true⟩, ⟨"hidden", .flag true, true⟩]
    lowerAttributes config attributes =
        [{ name := "htmlFor", value := some "x" }, { name := "css", value := some "a b c" },
          { name := "id", value := some "main", isExpression := true }, { name := "hidden" }] ∧
      IsRenamed config.renames "class" "css" ∧
      ((Text.ofString "css=\"a b c\" id=\"").drop 5).span (· ≠ .char '"') =
        (Text.ofString "a b c", Text.ofString "\" id=\"") := by
  intro config attributes
  obtain ⟨hlist, hrename, -, hclosed⟩ := lowerAttributes_merges_in_order config attributes
  have hlowered : lowerAttributes config attributes =
      [{ name := "htmlFor", value := some "x" }, { name := "css", value := some "a b c" },
        { name := "id", value := some "main", isExpression := true }, { name := "hidden" }] :=
    hlist.trans (by decide +kernel)
  refine ⟨hlowered, hrename "class", ?_⟩
  have hmem : { name := "css", value := some "a b c" } ∈ lowerAttributes config attributes := by
    rw [hlowered]
    exact .tail _ (.head _)
  exact ((hclosed _ hmem).2 "a b c" rfl rfl).2.2 " id=\""

/-! ## What attributes show -/

/-- The expression that is made of sources. -/
def expressionText : List Text → Text
  | [source] => source
  | sources => "[" ++ Text.joinWith ", " sources ++ "].join(\" \")"

/-- The attribute that shows values under a name: a bare one for a single true value, a string if
each of them is a literal that a string can show, and an expression otherwise. -/
def attributeShowing (name : Text) (values : List AttributeValue) : Attribute :=
  let sources := values.map fun v => Text.trim v.spelling
  if values.length = 1 ∧ ∀ v ∈ values, v.isTrue = true then { name := name }
  else if ∀ s ∈ sources, (plainText? s).isSome = true then
    { name := name, value := some (Text.joinWith " " (sources.filterMap plainText?)) }
  else { name := name, value := some (expressionText sources), isExpression := true }

/-- The attributes that show those of a tag. -/
def shownAttributes (config : Config) (attributes : List TagAttribute) : List Attribute :=
  (carriers attributes).map fun c => attributeShowing (config.rename c.name) c.values

section Shown

variable {name : Text} {values : List AttributeValue}

theorem lowerClasses_of_none (hbare : ∀ v, values = [v] → v.isTrue = false) {v : AttributeValue}
    (hv : v ∈ values) (hnone : plainText? (Text.trim v.spelling) = none) :
    lowerClasses name values =
      { name := name
        value := some (expressionText (values.map fun v => Text.trim v.spelling))
        isExpression := true } := by
  rcases values with _ | ⟨first, _ | ⟨second, rest⟩⟩
  · cases hv
  · obtain rfl := List.mem_singleton.mp hv
    rw [lowerClasses, lowerAttribute, hbare v rfl, if_neg Bool.false_ne_true]
    simp only [hnone]
    rfl
  · exact Literal.mergeClasses_of_none hv hnone

theorem map_eq_map_some_filterMap {f : Text → Option Text} {sources : List Text}
    (h : ∀ s ∈ sources, (f s).isSome = true) :
    sources.map f = (sources.filterMap f).map some := by
  induction sources with
  | nil => rfl
  | cons s rest ih =>
    obtain ⟨hs, hrest⟩ := List.forall_mem_cons.mp h
    obtain ⟨text, htext⟩ := Option.isSome_iff_exists.mp hs
    rw [List.map_cons, List.filterMap_cons_some htext, List.map_cons, htext, ih hrest]

theorem lowerClasses_of_texts (hbare : ∀ v, values = [v] → v.isTrue = false)
    (h : ∀ s ∈ values.map fun v => Text.trim v.spelling, (plainText? s).isSome = true) :
    lowerClasses name values =
      { name := name
        value := some (Text.joinWith " "
          ((values.map fun v => Text.trim v.spelling).filterMap plainText?)) } := by
  rcases values with _ | ⟨first, _ | ⟨second, rest⟩⟩
  · rfl
  · obtain ⟨text, htext⟩ := Option.isSome_iff_exists.mp (h _ (List.mem_singleton.mpr rfl))
    rw [lowerClasses, lowerAttribute, hbare first rfl, if_neg Bool.false_ne_true]
    simp [htext]
  · exact Literal.mergeClasses_of_texts (map_eq_map_some_filterMap h)

theorem lowerClasses_eq_attributeShowing (name : Text) (values : List AttributeValue) :
    lowerClasses name values = attributeShowing name values := by
  unfold attributeShowing
  dsimp only
  split
  · rename_i htrue
    obtain ⟨v, rfl⟩ := List.length_eq_one_iff.mp htrue.1
    exact if_pos (htrue.2 v (List.mem_singleton.mpr rfl))
  · rename_i htrue
    have hbare : ∀ v, values = [v] → v.isTrue = false := by
      rintro v rfl
      simpa using htrue
    split
    · rename_i htexts
      exact lowerClasses_of_texts hbare htexts
    · rename_i htexts
      rw [List.forall_mem_map, not_forall₂] at htexts
      obtain ⟨v, hv, hnone⟩ := htexts
      exact lowerClasses_of_none hbare hv (Option.not_isSome_iff_eq_none.mp hnone)

/-- What is lowered shows the attributes of the tag. -/
theorem lowerAttributes_eq_shownAttributes (config : Config) (attributes : List TagAttribute) :
    lowerAttributes config attributes = shownAttributes config attributes := by
  rw [lowerAttributes_eq_map, shownAttributes]
  exact List.map_congr_left fun c _ => lowerClasses_eq_attributeShowing _ _

end Shown

/-! ## Truth values -/

/-- A value with a truth value written as a literal. -/
def AttributeValue.literal : AttributeValue → AttributeValue
  | .flag true => .source "true"
  | .flag false => .source "false"
  | .source s => .source s

/-- An attribute with a truth value written as a literal. -/
def TagAttribute.literal (a : TagAttribute) : TagAttribute :=
  { a with value := a.value.literal }

/-- Values among which a truth value is spelled out: only a true one by itself is not. -/
def SpellsFlag (values : List AttributeValue) : Prop :=
  values ≠ [.flag true] ∧ ∃ b, .flag b ∈ values

section Values

variable {name : Text} {values : List AttributeValue}

theorem map_literal_of_no_flag (h : ∀ b, .flag b ∉ values) :
    values.map AttributeValue.literal = values := by
  have heach : ∀ v ∈ values, v.literal = id v := by
    intro v hv
    cases v with
    | source s => rfl
    | flag b => exact absurd hv (h b)
  rw [List.map_congr_left heach, List.map_id]

theorem joinWith_map_inj {separator : Text} {f g : AttributeValue → Text}
    (hlength : ∀ v, (f v).length = (g v).length)
    (h : Text.joinWith separator (values.map f) = Text.joinWith separator (values.map g)) :
    ∀ v ∈ values, f v = g v := by
  induction values with
  | nil => exact List.forall_mem_nil _
  | cons v rest ih =>
    cases rest with
    | nil =>
      rw [List.forall_mem_singleton]
      exact h
    | cons next rest =>
      simp only [List.map_cons, Text.joinWith_cons_cons, List.append_assoc] at h ih
      obtain ⟨hv, hrest⟩ := List.append_inj h (hlength v)
      exact List.forall_mem_cons.mpr ⟨hv, ih (List.append_cancel_left hrest)⟩

theorem expressionText_map_inj {f g : AttributeValue → Text}
    (hlength : ∀ v, (f v).length = (g v).length)
    (h : expressionText (values.map f) = expressionText (values.map g)) :
    ∀ v ∈ values, f v = g v := by
  rcases values with _ | ⟨first, _ | ⟨second, rest⟩⟩
  · exact List.forall_mem_nil _
  · rw [List.forall_mem_singleton]
    exact h
  · apply joinWith_map_inj hlength
    exact List.append_cancel_left (List.append_cancel_right h)

theorem length_trim_literal (v : AttributeValue) :
    (Text.trim v.literal.spelling).length = (Text.trim v.spelling).length := by
  cases v with
  | source s => rfl
  | flag b => cases b <;> decide

theorem trim_literal_ne (b : Bool) :
    Text.trim (AttributeValue.flag b).literal.spelling ≠
      Text.trim (AttributeValue.flag b).spelling := by
  cases b <;> decide

theorem lowerClasses_of_spellsFlag (h : SpellsFlag values) :
    lowerClasses name values =
      { name := name
        value := some (expressionText (values.map fun v => Text.trim v.spelling))
        isExpression := true } := by
  obtain ⟨hne, b, hb⟩ := h
  refine lowerClasses_of_none ?_ hb (by cases b <;> decide)
  rintro v rfl
  obtain rfl := List.mem_singleton.mp hb
  cases b with
  | false => rfl
  | true => exact absurd rfl hne

theorem lowerClasses_literal_of_spellsFlag (h : SpellsFlag values) :
    lowerClasses name (values.map AttributeValue.literal) =
      { name := name
        value := some (expressionText (values.map fun v => Text.trim v.literal.spelling))
        isExpression := true } := by
  obtain ⟨hne, b, hb⟩ := h
  have hbare : ∀ v, values.map AttributeValue.literal = [v] → v.isTrue = false := by
    intro v hv
    obtain ⟨u, rfl, rfl⟩ := List.map_eq_singleton_iff.mp hv
    obtain rfl := List.mem_singleton.mp hb
    cases b with
    | false => rfl
    | true => exact absurd rfl hne
  have hnone : plainText? (Text.trim (AttributeValue.flag b).literal.spelling) = none := by
    cases b <;> decide
  rw [lowerClasses_of_none hbare (List.mem_map_of_mem hb) hnone, List.map_map]
  rfl

/-- Writing truth values as literals changes exactly the attributes that spell one out. -/
theorem lowerClasses_literal_iff :
    lowerClasses name (values.map AttributeValue.literal) = lowerClasses name values ↔
      ¬ SpellsFlag values := by
  constructor
  · intro heq h
    rw [lowerClasses_of_spellsFlag h, lowerClasses_literal_of_spellsFlag h] at heq
    have htext := Option.some.inj (congrArg Attribute.value heq)
    obtain ⟨-, b, hb⟩ := h
    exact trim_literal_ne b (expressionText_map_inj length_trim_literal htext _ hb)
  · intro h
    by_cases hvalues : values = [.flag true]
    · rw [hvalues]
      rfl
    · rw [map_literal_of_no_flag]
      exact fun b hb => h ⟨hvalues, b, hb⟩

/-- An expression holds no other spelling of a truth value than the literal exactly if no truth
value is spelled out in it. -/
theorem spelling_of_isExpression_iff :
    ((lowerClasses name values).isExpression = true →
        ∀ v ∈ values, v.spelling = v.literal.spelling) ↔
      ¬ SpellsFlag values := by
  constructor
  · intro hspelled h
    have hexpression : (lowerClasses name values).isExpression = true := by
      rw [lowerClasses_of_spellsFlag h]
    obtain ⟨-, b, hb⟩ := h
    exact trim_literal_ne b (congrArg Text.trim (hspelled hexpression _ hb).symm)
  · intro h hexpression v hv
    cases v with
    | source s => rfl
    | flag b =>
      have hvalues : values = [.flag true] := by
        by_contra hne
        exact h ⟨hne, b, hv⟩
      rw [hvalues] at hexpression
      cases hexpression

end Values

/-- The truth values of a tag all become bare attributes: none is false, and the class attribute
with a true one is the only class attribute. -/
structure OnlyBareFlags (attributes : List TagAttribute) : Prop where
  no_false : ∀ a ∈ attributes, a.value ≠ .flag false
  no_merged : ∀ a ∈ attributes, a.name = classAttribute → a.value = .flag true →
    (classValues attributes).length = 1

theorem firstClassOnly_map_literal (attributes : List TagAttribute) :
    firstClassOnly (attributes.map TagAttribute.literal) =
      (firstClassOnly attributes).map TagAttribute.literal := by
  induction attributes with
  | nil => rfl
  | cons a rest ih =>
    have hname : a.literal.name = a.name := rfl
    rw [List.map_cons, firstClassOnly, firstClassOnly, hname, List.filter_map, ih,
      apply_ite (List.map TagAttribute.literal)]
    rfl

theorem classValues_map_literal (attributes : List TagAttribute) :
    classValues (attributes.map TagAttribute.literal) =
      (classValues attributes).map AttributeValue.literal := by
  rw [classValues, classValues, List.filter_map, List.map_map, List.map_map]
  rfl

theorem carriers_map_literal (attributes : List TagAttribute) :
    carriers (attributes.map TagAttribute.literal) =
      (carriers attributes).map fun c => ⟨c.name, c.values.map AttributeValue.literal⟩ := by
  rw [carriers, carriers, firstClassOnly_map_literal, List.map_map, List.map_map]
  apply List.map_congr_left
  intro a _
  have hname : a.literal.name = a.name := rfl
  rw [Function.comp_apply, Function.comp_apply, carrierOf, carrierOf, hname,
    classValues_map_literal, apply_ite (List.map AttributeValue.literal)]
  rfl

theorem exists_mem_firstClassOnly {attributes : List TagAttribute} {a : TagAttribute}
    (h : a ∈ attributes) :
    ∃ b ∈ firstClassOnly attributes,
      b = a ∨ b.name = classAttribute ∧ a.name = classAttribute := by
  induction attributes with
  | nil => cases h
  | cons first rest ih =>
    rw [firstClassOnly]
    by_cases hfirst : first.name = classAttribute
    · rw [if_pos hfirst]
      by_cases ha : a.name = classAttribute
      · exact ⟨first, List.mem_cons_self, .inr ⟨hfirst, ha⟩⟩
      · have hrest : a ∈ rest := (List.mem_cons.mp h).resolve_left (by rintro rfl; exact ha hfirst)
        refine ⟨a, List.mem_cons_of_mem _ (List.mem_filter.mpr ⟨hrest, ?_⟩), .inl rfl⟩
        simpa using ha
    · rw [if_neg hfirst]
      rcases List.mem_cons.mp h with rfl | hrest
      · exact ⟨a, List.mem_cons_self, .inl rfl⟩
      · obtain ⟨b, hb, hba⟩ := ih hrest
        exact ⟨b, List.mem_cons_of_mem _ hb, hba⟩

theorem firstClassOnly_subset (attributes : List TagAttribute) :
    firstClassOnly attributes ⊆ attributes := by
  induction attributes with
  | nil => exact List.Subset.refl _
  | cons first rest ih =>
    rw [firstClassOnly]
    split
    · exact List.cons_subset_cons first List.filter_sublist.subset
    · exact List.cons_subset_cons first ih

theorem values_carrierOf_of_class (attributes : List TagAttribute) {a : TagAttribute}
    (h : a.name = classAttribute) : (carrierOf attributes a).values = classValues attributes :=
  if_pos h

theorem values_carrierOf_of_ne (attributes : List TagAttribute) {a : TagAttribute}
    (h : a.name ≠ classAttribute) : (carrierOf attributes a).values = [a.value] :=
  if_neg h

/-- The class attributes that are left out have the values of the one that stays. -/
theorem forall_mem_carriers {attributes : List TagAttribute} {P : List AttributeValue → Prop} :
    (∀ c ∈ carriers attributes, P c.values) ↔
      ∀ a ∈ attributes, P (carrierOf attributes a).values := by
  rw [carriers, List.forall_mem_map]
  constructor
  · intro h a ha
    obtain ⟨b, hb, rfl | ⟨hbclass, haclass⟩⟩ := exists_mem_firstClassOnly ha
    · exact h b hb
    · rw [values_carrierOf_of_class attributes haclass,
        ← values_carrierOf_of_class attributes hbclass]
      exact h b hb
  · intro h a ha
    exact h a (firstClassOnly_subset attributes ha)

theorem mem_classValues {attributes : List TagAttribute} {v : AttributeValue} :
    v ∈ classValues attributes ↔ ∃ a ∈ attributes, a.name = classAttribute ∧ a.value = v := by
  simp only [classValues, List.mem_map, List.mem_filter, beq_iff_eq, and_assoc]

theorem value_mem_carrierOf {attributes : List TagAttribute} {a : TagAttribute}
    (h : a ∈ attributes) : a.value ∈ (carrierOf attributes a).values := by
  by_cases hclass : a.name = classAttribute
  · rw [values_carrierOf_of_class attributes hclass]
    exact mem_classValues.mpr ⟨a, h, hclass, rfl⟩
  · rw [values_carrierOf_of_ne attributes hclass]
    exact List.mem_singleton_self a.value

theorem OnlyBareFlags.not_spellsFlag {attributes : List TagAttribute} (h : OnlyBareFlags attributes)
    {a : TagAttribute} (ha : a ∈ attributes) :
    ¬ SpellsFlag (carrierOf attributes a).values := by
  rintro ⟨hne, b, hb⟩
  by_cases hclass : a.name = classAttribute
  · rw [values_carrierOf_of_class attributes hclass] at hne hb
    obtain ⟨other, hother, hname, hvalue⟩ := mem_classValues.mp hb
    cases b with
    | false => exact h.no_false other hother hvalue
    | true =>
      obtain ⟨v, hv⟩ := List.length_eq_one_iff.mp (h.no_merged other hother hname hvalue)
      rw [hv, List.mem_singleton] at hb
      exact hne (by rw [hv, hb])
  · rw [values_carrierOf_of_ne attributes hclass] at hne hb
    have hvalue := List.mem_singleton.mp hb
    cases b with
    | false => exact h.no_false a ha hvalue.symm
    | true => exact hne (by rw [hvalue])

theorem onlyBareFlags_iff {attributes : List TagAttribute} :
    OnlyBareFlags attributes ↔ ∀ c ∈ carriers attributes, ¬ SpellsFlag c.values := by
  refine Iff.trans ?_ (forall_mem_carriers (P := fun values => ¬ SpellsFlag values)).symm
  refine ⟨fun h a ha => h.not_spellsFlag ha, fun h => ⟨?_, ?_⟩⟩
  · intro a ha hvalue
    have hmem : .flag false ∈ (carrierOf attributes a).values := hvalue ▸ value_mem_carrierOf ha
    refine h a ha ⟨?_, false, hmem⟩
    intro heq
    rw [heq, List.mem_singleton] at hmem
    cases hmem
  · intro a ha hclass hvalue
    by_contra hlength
    refine h a ha ⟨?_, true, hvalue ▸ value_mem_carrierOf ha⟩
    intro heq
    rw [values_carrierOf_of_class attributes hclass] at heq
    exact hlength (congrArg List.length heq)

/-- Writing the truth values of a tag as literals leaves its lowered attributes as they are exactly
if they all become bare attributes. Exactly then no expression among the lowered attributes holds a
truth value in another spelling than that of the literal. -/
theorem flags_read_as_literals_iff (config : Config) (attributes : List TagAttribute) :
    (lowerAttributes config (attributes.map TagAttribute.literal) =
        lowerAttributes config attributes ↔ OnlyBareFlags attributes) ∧
      (List.Forall₂ (fun (c : Carrier) (a : Attribute) =>
          a.isExpression = true → ∀ v ∈ c.values, v.spelling = v.literal.spelling)
        (carriers attributes) (lowerAttributes config attributes) ↔ OnlyBareFlags attributes) := by
  rw [lowerAttributes_eq_map, lowerAttributes_eq_map, carriers_map_literal, List.map_map,
    List.map_inj_left, onlyBareFlags_iff, List.forall₂_map_right_iff, List.forall₂_same]
  constructor
  · apply forall₂_congr
    intro c _
    exact lowerClasses_literal_iff
  · apply forall₂_congr
    intro c _
    exact spelling_of_isExpression_iff

/-- A false attribute, and a true class among others: each is spelled out, but not as a literal. -/
theorem flags_spelled_out :
    let checked : List TagAttribute := [⟨"checked", .flag false, true⟩]
    let classes : List TagAttribute := [⟨"class", .flag true, true⟩, ⟨"class", .source "'a'", true⟩]
    (lowerAttributes {} checked =
        [{ name := "checked", value := some "False", isExpression := true }] ∧
      lowerAttributes {} (checked.map TagAttribute.literal) =
        [{ name := "checked", value := some "false", isExpression := true }] ∧
      lowerAttributes {} (checked.map TagAttribute.literal) ≠ lowerAttributes {} checked) ∧
    lowerAttributes {} classes =
        [{ name := "className", value := some "[True, 'a'].join(\" \")", isExpression := true }] ∧
      lowerAttributes {} (classes.map TagAttribute.literal) =
        [{ name := "className", value := some "[true, 'a'].join(\" \")", isExpression := true }] ∧
      lowerAttributes {} (classes.map TagAttribute.literal) ≠ lowerAttributes {} classes := by
  decide +kernel

end Lowering
