import Lowering.Proofs.Fields

/-!
# The grammar of template documents

Which JSON values are template documents, told without loading them. A document is an object that
names its kind and has the fields of that kind; the documents in it stand in slots, which differ in
whether they take null and a conditional besides a block.

* `Document.HasFields`: the fields of each kind; `Document.slots`: its slots;
* `Document.Conforms`: the grammar;
* `Document.exists_load_iff`: the values that load are those of the grammar.
-/

namespace Lowering

theorem NodeKind.ofName?_eq_some_iff {name : Text} {kind : NodeKind} :
    NodeKind.ofName? name = some kind ↔ name = kind.name := by
  constructor
  · intro h
    have hfound := List.find?_some (p := fun kind : NodeKind => (kind.name : Text) == name) h
    exact (eq_of_beq hfound).symm
  · rintro rfl
    cases kind <;> rfl

namespace Document

/-! ## Fields and slots -/

/-- A document that gives the name of that kind. -/
def IsOfKind (v : Json) (kind : NodeKind) : Prop :=
  v.member? "type" = some (.str kind.name)

/-- The fields of every document. -/
def IsMarked (v : Json) : Prop :=
  MayHave v "line" (OrNull IsInteger) ∧ MayHave v "column" (OrNull IsInteger) ∧
    MayHave v "filename" (OrNull IsString)

/-- An attribute of a tag. -/
def IsTagAttribute (v : Json) : Prop :=
  IsObject v ∧ Has v "name" IsString ∧ MayHave v "val" (fun w => IsString w ∨ IsBoolean w) ∧
    MayHaveAs v "mustEscape" "must_escape" IsBoolean

/-- An attribute block of a tag. -/
def IsAttributeBlock (v : Json) : Prop :=
  IsString v ∨ IsObject v ∧ MayHave v "val" IsString

/-- The fields of a kind, apart from those that hold documents. -/
def HasFields : NodeKind → Json → Prop
  | .block, _ => True
  | .tag, v =>
    Has v "name" IsString ∧ MayHave v "attrs" (IsListOf IsTagAttribute) ∧
      MayHaveAs v "attributeBlocks" "attribute_blocks" (IsListOf IsAttributeBlock) ∧
      MayHaveAs v "selfClosing" "self_closing" IsBoolean
  | .code, v =>
    MayHave v "val" IsString ∧ MayHave v "buffer" IsBoolean ∧
      MayHaveAs v "mustEscape" "must_escape" IsBoolean ∧
      MayHaveAs v "isInline" "is_inline" IsBoolean
  | .text, v => MayHave v "val" IsString
  | .branch, v => Has v "expr" IsString
  | .switch, v => Has v "expr" IsString
  | .conditional, v => Has v "test" IsString
  | .each, v =>
    Has v "obj" IsString ∧ Has v "val" IsString ∧ MayHave v "key" (OrNull IsString)

/-- What a field that holds a document takes, if it is there. -/
inductive Slot where
  /-- A block. -/
  | block
  /-- A block or null. -/
  | blockOrNull
  /-- A block, a conditional or null. -/
  | branchOrNull
deriving DecidableEq

/-- The fields of a kind that hold one document each. -/
def slots : NodeKind → List (String × Slot)
  | .block | .text => []
  | .tag | .code | .branch => [("block", .blockOrNull)]
  | .switch => [("block", .block)]
  | .conditional => [("consequent", .block), ("alternate", .branchOrNull)]
  | .each => [("block", .block), ("alternate", .blockOrNull)]

mutual

/-- The JSON values that are template documents. -/
inductive Conforms : Json → Prop where
  | block {v : Json} (hkind : IsOfKind v .block) (hmark : IsMarked v)
      (hnodes : ∀ w, v.member? "nodes" = some w → AreNodes w) : Conforms v
  | node {v : Json} {kind : NodeKind} (hkind : IsOfKind v kind) (hne : kind ≠ .block)
      (hmark : IsMarked v) (hfields : HasFields kind v)
      (hslots : ∀ s ∈ slots kind, ∀ w, v.member? s.1 = some w → Fills s.2 w) : Conforms v
  | other {v : Json} {name : Text} (hname : v.member? "type" = some (.str name))
      (hother : ∀ kind : NodeKind, name ≠ kind.name) (hmark : IsMarked v) : Conforms v

/-- The nodes of a block: documents in an array, or something empty. -/
inductive AreNodes : Json → Prop where
  | items {items : List Json} (h : ∀ w ∈ items, Conforms w) : AreNodes (.arr items)
  | emptyString : AreNodes (.str [])
  | emptyObject : AreNodes (.obj [])

/-- A value in a slot. -/
inductive Fills : Slot → Json → Prop where
  | null {slot : Slot} (h : slot ≠ .block) : Fills slot .null
  | block {slot : Slot} {w : Json} (hkind : IsOfKind w .block) (h : Conforms w) : Fills slot w
  | chain {w : Json} (hkind : IsOfKind w .conditional) (h : Conforms w) : Fills .branchOrNull w

end

/-! ## Names of kinds -/

theorem typeName?_eq_some_iff {v : Json} {name : Text} :
    typeName? v = some name ↔ v.member? "type" = some (.str name) := by
  unfold typeName?
  cases v.member? "type" with
  | none => simp
  | some w => cases w <;> simp

theorem isOfKind_of_ofName? {v : Json} {name : Text} {kind : NodeKind}
    (hname : v.member? "type" = some (.str name)) (hkind : NodeKind.ofName? name = some kind) :
    IsOfKind v kind := by
  rw [IsOfKind, ← NodeKind.ofName?_eq_some_iff.mp hkind]
  exact hname

theorem kind?_eq_some_iff {v : Json} {kind : NodeKind} : kind? v = some kind ↔ IsOfKind v kind := by
  rw [kind?, Option.bind_eq_some_iff]
  constructor
  · rintro ⟨name, hname, hkind⟩
    exact isOfKind_of_ofName? (typeName?_eq_some_iff.mp hname) hkind
  · intro h
    exact ⟨kind.name, typeName?_eq_some_iff.mpr h, NodeKind.ofName?_eq_some_iff.mpr rfl⟩

theorem IsOfKind.unique {v : Json} {kind kind' : NodeKind} (h : IsOfKind v kind)
    (h' : IsOfKind v kind') : kind = kind' := by
  rw [← kind?_eq_some_iff] at h h'
  exact Option.some.inj (h.symm.trans h')

theorem exists_obj_of_member? {v w : Json} {name : Text} (h : v.member? name = some w) :
    ∃ members, v = .obj members := by
  cases v with
  | obj members => exact ⟨members, rfl⟩
  | _ => cases h

/-! ## Own fields -/

theorem isValid_mark_iff {members : Members} : (mark members).IsValid ↔ IsMarked (.obj members) := by
  simp only [mark, Checked.isValid_seq_iff, Checked.isValid_map_iff, Field.isValid_optional_iff,
    Field.isValid_integer_iff, Field.isValid_string_iff, and_assoc, IsMarked]

theorem isValid_attributeValue_iff {v : Json} :
    (attributeValue v).IsValid ↔ IsString v ∨ IsBoolean v := by
  by_cases hs : IsString v
  · obtain ⟨s, rfl⟩ := hs
    exact ⟨fun _ => .inl ⟨s, rfl⟩, fun _ => ⟨_, rfl⟩⟩
  · rw [attributeValue, ← Field.isValid_boolean_iff]
    · simp only [hs, false_or]
      cases Field.boolean v <;> simp
    · exact fun s h => hs ⟨s, h⟩

theorem isValid_tagAttribute_members {members : Members} : (tagAttribute members).IsValid ↔
    Has (.obj members) "name" IsString ∧
      MayHave (.obj members) "val" (fun w => IsString w ∨ IsBoolean w) ∧
      MayHaveAs (.obj members) "mustEscape" "must_escape" IsBoolean := by
  simp only [tagAttribute, Checked.isValid_seq_iff, Checked.isValid_map_iff,
    Field.isValid_required_iff, Field.isValid_withDefault_iff, Field.isValid_aliased_iff,
    Field.isValid_string_iff, Field.isValid_boolean_iff, isValid_attributeValue_iff, and_assoc]

theorem isValid_tagAttribute_iff {v : Json} :
    (Field.recordOf "TagAttribute" tagAttribute v).IsValid ↔ IsTagAttribute v := by
  rw [Field.isValid_recordOf_iff]
  constructor
  · rintro ⟨members, rfl, h⟩
    exact ⟨⟨members, rfl⟩, isValid_tagAttribute_members.mp h⟩
  · rintro ⟨⟨members, rfl⟩, h⟩
    exact ⟨members, rfl, isValid_tagAttribute_members.mpr h⟩

theorem isValid_attributeBlock_iff {v : Json} :
    (attributeBlock v).IsValid ↔ IsAttributeBlock v := by
  cases v with
  | obj members =>
    have hval : (attributeBlock (.obj members)).IsValid ↔ MayHave (.obj members) "val" IsString := by
      rw [attributeBlock, Field.isValid_string_iff, Field.entry?_eq_member?, MayHave]
      cases (Json.obj members).member? "val" <;> simp [IsString]
    simp [hval, IsAttributeBlock, IsString, IsObject]
  | _ => simp [attributeBlock, IsAttributeBlock, IsString, IsObject]

/-! ## Slots -/

/-- What a slot asks of a value by itself. -/
def Slot.Admits : Slot → Json → Prop
  | .block, w => IsOfKind w .block
  | .blockOrNull, w => w = .null ∨ IsOfKind w .block
  | .branchOrNull, w => w = .null ∨ IsOfKind w .block ∨ IsOfKind w .conditional

theorem fills_iff {slot : Slot} {w : Json} :
    Fills slot w ↔ slot.Admits w ∧ (w ≠ .null → Conforms w) := by
  constructor
  · intro h
    cases h with
    | null h =>
      refine ⟨?_, fun h => absurd rfl h⟩
      cases slot with
      | block => exact absurd rfl h
      | blockOrNull => exact .inl rfl
      | branchOrNull => exact .inl rfl
    | block hkind h =>
      refine ⟨?_, fun _ => h⟩
      cases slot with
      | block => exact hkind
      | blockOrNull => exact .inr hkind
      | branchOrNull => exact .inr (.inl hkind)
    | chain hkind h => exact ⟨.inr (.inr hkind), fun _ => h⟩
  · rintro ⟨ha, hw⟩
    have hne : ∀ {kind : NodeKind}, IsOfKind w kind → Conforms w := by
      intro kind hkind
      apply hw
      rintro rfl
      cases hkind
    cases slot with
    | block => exact .block ha (hne ha)
    | blockOrNull =>
      rcases ha with rfl | hkind
      · exact .null (by decide)
      · exact .block hkind (hne hkind)
    | branchOrNull =>
      rcases ha with rfl | hkind | hkind
      · exact .null (by decide)
      · exact .block hkind (hne hkind)
      · exact .chain hkind (hne hkind)

/-- A document that stands for the one in a field. -/
def sampleIn (v : Json) (field : String) : Option Node :=
  (child? v field).map fun w => sample (kind? w)

theorem child?_eq_some_iff {v w : Json} {field : String} :
    child? v field = some w ↔ v.member? field = some w ∧ w ≠ .null := by
  unfold child?
  cases v.member? field with
  | none => simp
  | some u =>
    cases u with
    | null =>
      simp only [Option.some.injEq]
      constructor
      · intro h
        cases h
      · rintro ⟨rfl, h⟩
        exact absurd rfl h
    | _ =>
      simp only [Option.some.injEq]
      constructor
      · rintro rfl
        exact ⟨rfl, nofun⟩
      · exact fun h => h.1

/-- A check of a slot holds if it takes null where the slot does, and the samples of the kinds that
the slot admits. -/
theorem isValid_slot_iff {α : Type} {check : Option Node → Checked α} {v : Json} {field : String}
    {slot : Slot} (hnone : v.member? field = none → (check none).IsValid)
    (hnull : v.member? field = some .null → ((check none).IsValid ↔ slot.Admits .null))
    (hsome : ∀ w, w ≠ .null → ((check (some (sample (kind? w)))).IsValid ↔ slot.Admits w)) :
    (check (sampleIn v field)).IsValid ↔ MayHave v field slot.Admits := by
  unfold MayHave
  cases hm : v.member? field with
  | none =>
    have hchild : child? v field = none := by rw [child?, hm]
    simp only [sampleIn, hchild, Option.map_none, hnone hm, true_iff]
    intro w hw
    cases hw
  | some w =>
    simp only [Option.some.injEq, forall_eq']
    by_cases hw : w = .null
    · subst hw
      have hchild : child? v field = none := by rw [child?, hm]
      simpa only [sampleIn, hchild, Option.map_none] using hnull hm
    · have hchild : child? v field = some w := child?_eq_some_iff.mpr ⟨hm, hw⟩
      simpa only [sampleIn, hchild, Option.map_some] using hsome w hw

theorem isOfKind_iff_of_kind? {w : Json} {kind : NodeKind} {k : Option NodeKind} (h : kind? w = k) :
    IsOfKind w kind ↔ k = some kind := by
  rw [← kind?_eq_some_iff, h]

theorem isValid_block?_iff {v : Json} {field : String} :
    (block? field (sampleIn v field)).IsValid ↔ MayHave v field Slot.blockOrNull.Admits := by
  apply isValid_slot_iff
  · exact fun _ => ⟨_, rfl⟩
  · exact fun _ => ⟨fun _ => .inl rfl, fun _ => ⟨_, rfl⟩⟩
  · intro w hw
    rw [Slot.Admits, isOfKind_iff_of_kind? rfl]
    cases kind? w with
    | none => simp [sample, block?, notBlock, hw]
    | some kind => cases kind <;> simp [sample, block?, notBlock, hw]

theorem isValid_alternate?_iff {v : Json} {field : String} :
    (alternate? field (sampleIn v field)).IsValid ↔ MayHave v field Slot.branchOrNull.Admits := by
  apply isValid_slot_iff
  · exact fun _ => ⟨_, rfl⟩
  · exact fun _ => ⟨fun _ => .inl rfl, fun _ => ⟨_, rfl⟩⟩
  · intro w hw
    rw [Slot.Admits, isOfKind_iff_of_kind? rfl, isOfKind_iff_of_kind? rfl]
    cases kind? w with
    | none => simp [sample, alternate?, hw]
    | some kind => cases kind <;> simp [sample, alternate?, hw]

theorem isValid_block_iff {members : Members} {field : String} :
    (block field members (sampleIn (.obj members) field)).IsValid ↔
      MayHave (.obj members) field Slot.block.Admits := by
  apply isValid_slot_iff
  · intro hnone
    simp [block, Field.entry?_eq_member?, hnone]
  · intro hnull
    have hno : ¬Slot.block.Admits .null := nofun
    simp [block, Field.entry?_eq_member?, hnull, notBlock, hno]
  · intro w hw
    rw [Slot.Admits, isOfKind_iff_of_kind? rfl]
    cases kind? w with
    | none => simp [sample, block, notBlock]
    | some kind => cases kind <;> simp [sample, block, notBlock]

theorem childFields_eq (kind : NodeKind) : childFields kind = (slots kind).map Prod.fst := by
  cases kind <;> rfl

/-- The checks of a document by itself are its fields and what its slots ask. -/
theorem isValid_checkFields_iff {kind : NodeKind} {members : Members} :
    (checkFields kind members (sampleAt kind (.obj members) 0)
        (sampleAt kind (.obj members) 1)).IsValid ↔
      IsMarked (.obj members) ∧ HasFields kind (.obj members) ∧
        ∀ s ∈ slots kind, MayHave (.obj members) s.1 s.2.Admits := by
  have hsample : ∀ (index : Nat) (field : String), (childFields kind)[index]? = some field →
      sampleAt kind (.obj members) index = sampleIn (.obj members) field := by
    intro index field h
    rw [sampleAt, h]
    rfl
  cases kind with
  | block => simp [checkFields, blockNode, isValid_mark_iff, HasFields, slots]
  | text => simp [checkFields, textNode, isValid_mark_iff, HasFields, slots]
  | tag =>
    rw [hsample 0 "block" rfl]
    simp only [checkFields, tagNode, Checked.isValid_seq_iff, Checked.isValid_map_iff,
      isValid_mark_iff, Field.isValid_required_iff, Field.isValid_withDefault_iff,
      Field.isValid_aliased_iff, Field.isValid_listOf_iff, Field.isValid_string_iff,
      Field.isValid_boolean_iff, isValid_tagAttribute_iff, isValid_attributeBlock_iff,
      isValid_block?_iff, HasFields, slots, List.forall_mem_singleton]
    constructor
    · rintro ⟨⟨⟨⟨⟨hmark, hname⟩, hattributes⟩, hblocks⟩, hbody⟩, hclosing⟩
      exact ⟨hmark, ⟨hname, hattributes, hblocks, hclosing⟩, hbody⟩
    · rintro ⟨hmark, ⟨hname, hattributes, hblocks, hclosing⟩, hbody⟩
      exact ⟨⟨⟨⟨⟨hmark, hname⟩, hattributes⟩, hblocks⟩, hbody⟩, hclosing⟩
  | code =>
    rw [hsample 0 "block" rfl]
    simp [checkFields, codeNode, isValid_mark_iff, HasFields, slots, isValid_block?_iff, and_assoc]
  | branch =>
    rw [hsample 0 "block" rfl]
    simp [checkFields, branchNode, isValid_mark_iff, HasFields, slots, isValid_block?_iff, and_assoc]
  | switch =>
    rw [hsample 0 "block" rfl]
    simp [checkFields, switchNode, isValid_mark_iff, HasFields, slots, isValid_block_iff, and_assoc]
  | conditional =>
    rw [hsample 0 "consequent" rfl, hsample 1 "alternate" rfl]
    simp [checkFields, conditionalNode, isValid_mark_iff, HasFields, slots, isValid_block_iff,
      isValid_alternate?_iff, and_assoc]
  | each =>
    rw [hsample 0 "block" rfl, hsample 1 "alternate" rfl]
    simp [checkFields, eachNode, isValid_mark_iff, HasFields, slots, isValid_block_iff,
      isValid_block?_iff, and_assoc]

/-! ## One document -/

theorem conforms_block_iff {v : Json} (h : IsOfKind v .block) :
    Conforms v ↔ IsMarked v ∧ ∀ w, v.member? "nodes" = some w → AreNodes w := by
  constructor
  · intro hv
    cases hv with
    | block _ hmark hnodes => exact ⟨hmark, hnodes⟩
    | node hkind hne => exact absurd (hkind.unique h) hne
    | other hname hother =>
      rw [IsOfKind, hname] at h
      cases h
      exact absurd rfl (hother .block)
  · rintro ⟨hmark, hnodes⟩
    exact .block h hmark hnodes

theorem conforms_node_iff {v : Json} {kind : NodeKind} (h : IsOfKind v kind) (hne : kind ≠ .block) :
    Conforms v ↔ IsMarked v ∧ HasFields kind v ∧ ∀ s ∈ slots kind, MayHave v s.1 (Fills s.2) := by
  constructor
  · intro hv
    cases hv with
    | block hkind => exact absurd (h.unique hkind) hne
    | node hkind _ hmark hfields hslots =>
      cases h.unique hkind
      exact ⟨hmark, hfields, hslots⟩
    | other hname hother =>
      rw [IsOfKind, hname] at h
      cases h
      exact absurd rfl (hother kind)
  · rintro ⟨hmark, hfields, hslots⟩
    exact .node h hne hmark hfields hslots

theorem conforms_other_iff {v : Json} {name : Text} (h : v.member? "type" = some (.str name))
    (hother : ∀ kind : NodeKind, name ≠ kind.name) : Conforms v ↔ IsMarked v := by
  have hno : ∀ kind, ¬IsOfKind v kind := by
    intro kind hkind
    rw [IsOfKind, h] at hkind
    cases hkind
    exact hother kind rfl
  constructor
  · intro hv
    cases hv with
    | block hkind => exact absurd hkind (hno _)
    | node hkind => exact absurd hkind (hno _)
    | other _ _ hmark => exact hmark
  · exact .other h hother

theorem Conforms.exists_typeName? {v : Json} (h : Conforms v) : ∃ name, typeName? v = some name := by
  cases h with
  | block hkind => exact ⟨_, typeName?_eq_some_iff.mpr hkind⟩
  | node hkind => exact ⟨_, typeName?_eq_some_iff.mpr hkind⟩
  | other hname => exact ⟨_, typeName?_eq_some_iff.mpr hname⟩

/-- What enumerates no documents conforms only if it enumerates nothing. -/
theorem areNodes_iff {w : Json} :
    AreNodes w ↔ ∃ items, elements? w = some items ∧ ∀ d ∈ items, Conforms d := by
  have hstr : ∀ s : Text, ¬Conforms (.str s) := by
    intro s h
    obtain ⟨name, hname⟩ := h.exists_typeName?
    cases hname
  constructor
  · intro h
    cases h with
    | items h => exact ⟨_, rfl, h⟩
    | emptyString => exact ⟨[], rfl, nofun⟩
    | emptyObject => exact ⟨[], rfl, nofun⟩
  · rintro ⟨items, hitems, h⟩
    cases w with
    | arr values =>
      cases hitems
      exact .items h
    | str s =>
      cases hitems
      cases s with
      | nil => exact .emptyString
      | cons p rest => exact absurd (h _ List.mem_cons_self) (hstr _)
    | obj members =>
      cases hitems
      cases members with
      | nil => exact .emptyObject
      | cons m rest => exact absurd (h _ List.mem_cons_self) (hstr _)
    | _ => cases hitems

theorem conforms_step_block {v : Json} (h : IsOfKind v .block) :
    Conforms v ↔ (∀ w ∈ within v, Conforms w) ∧ unenumerable? v = none ∧ IsMarked v := by
  have hkind : kind? v = some .block := kind?_eq_some_iff.mpr h
  rw [conforms_block_iff h]
  simp only [within, unenumerable?, hkind]
  cases v.member? "nodes" with
  | none => simp
  | some nodes =>
    simp only [Option.some.injEq, forall_eq', areNodes_iff, Option.bind_some]
    cases elements? nodes with
    | none => simp
    | some items => simp [and_comm]

theorem conforms_step_node {v : Json} {kind : NodeKind} (h : IsOfKind v kind) (hne : kind ≠ .block) :
    Conforms v ↔ (∀ w ∈ within v, Conforms w) ∧ IsMarked v ∧ HasFields kind v ∧
      ∀ s ∈ slots kind, MayHave v s.1 s.2.Admits := by
  have hwithin : (∀ w ∈ within v, Conforms w) ↔
      ∀ s ∈ slots kind, ∀ w, v.member? s.1 = some w → w ≠ .null → Conforms w := by
    rw [within_of_ne_block (kind?_eq_some_iff.mpr h) hne, childFields_eq]
    constructor
    · intro hall s hs w hw hnull
      refine hall w (List.mem_filterMap.mpr ⟨s.1, List.mem_map.mpr ⟨s, hs, rfl⟩, ?_⟩)
      exact child?_eq_some_iff.mpr ⟨hw, hnull⟩
    · intro hall w hw
      obtain ⟨field, hfield, hchild⟩ := List.mem_filterMap.mp hw
      obtain ⟨s, hs, rfl⟩ := List.mem_map.mp hfield
      obtain ⟨hmember, hnull⟩ := child?_eq_some_iff.mp hchild
      exact hall s hs w hmember hnull
  rw [conforms_node_iff h hne, hwithin]
  constructor
  · rintro ⟨hmark, hfields, hslots⟩
    refine ⟨?_, hmark, hfields, ?_⟩
    · exact fun s hs w hw => (fills_iff.mp (hslots s hs w hw)).2
    · exact fun s hs w hw => (fills_iff.mp (hslots s hs w hw)).1
  · rintro ⟨hall, hmark, hfields, hadmits⟩
    exact ⟨hmark, hfields, fun s hs w hw => fills_iff.mpr ⟨hadmits s hs w hw, hall s hs w hw⟩⟩

/-- A document conforms if the documents directly in it do and nothing is wrong with it by itself. -/
theorem conforms_step (v : Json) :
    Conforms v ↔ (∀ w ∈ within v, Conforms w) ∧ ownFailure? v = none := by
  cases ht : typeName? v with
  | none =>
    have hno : ¬Conforms v := by
      intro h
      obtain ⟨name, hname⟩ := h.exists_typeName?
      rw [ht] at hname
      cases hname
    simp [hno, ownFailure?, ht]
  | some name =>
    have hname := typeName?_eq_some_iff.mp ht
    obtain ⟨members, rfl⟩ := exists_obj_of_member? hname
    cases hk : NodeKind.ofName? name with
    | none =>
      have hother : ∀ kind : NodeKind, name ≠ kind.name := by
        intro kind h
        rw [NodeKind.ofName?_eq_some_iff.mpr h] at hk
        cases hk
      have hwithin : within (.obj members) = [] := by simp [within, kind?, ht, hk]
      rw [conforms_other_iff hname hother, hwithin]
      simp [ownFailure?, ht, hk, otherNode, membersOf, Checked.failure?_eq_none_iff,
        isValid_mark_iff]
    | some kind =>
      have hkind : IsOfKind (.obj members) kind := isOfKind_of_ofName? hname hk
      have hown : ownFailure? (.obj members) = none ↔
          unenumerable? (.obj members) = none ∧ IsMarked (.obj members) ∧
            HasFields kind (.obj members) ∧
            ∀ s ∈ slots kind, MayHave (.obj members) s.1 s.2.Admits := by
        simp only [ownFailure?, ht, hk]
        rw [← isValid_checkFields_iff, ← Checked.failure?_eq_none_iff]
        cases unenumerable? (.obj members) with
        | some nodes => simp
        | none => simp [membersOf]
      rw [hown]
      by_cases hb : kind = .block
      · subst hb
        rw [conforms_step_block hkind]
        simp [HasFields, slots]
      · rw [conforms_step_node hkind hb, unenumerable?_of_ne_block (kind?_eq_some_iff.mpr hkind) hb]
        simp

/-! ## All documents -/

theorem failureOf_eq_none_iff {x : Except LoadError Node} : failureOf x = none ↔ ∃ n, x = .ok n := by
  cases x <;> simp [failureOf]

theorem loads_step (v : Json) :
    (∃ n, load v = .ok n) ↔ (∀ w ∈ within v, ∃ n, load w = .ok n) ∧ ownFailure? v = none := by
  simp only [← failureOf_eq_none_iff]
  rw [failure_step, Option.or_eq_none_iff, List.findSome?_eq_none_iff]

/-- The JSON values that load are the template documents. -/
theorem exists_load_iff (v : Json) : (∃ n, load v = .ok n) ↔ Conforms v := by
  induction v using induct with
  | step v ih =>
    rw [loads_step, conforms_step]
    have hwithin : (∀ w ∈ within v, ∃ n, load w = .ok n) ↔ ∀ w ∈ within v, Conforms w :=
      forall₂_congr ih
    rw [hwithin]

end Document

end Lowering
