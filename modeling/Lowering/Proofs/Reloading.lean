import Lowering.Proofs.Grammar

/-!
# Documents written back

A loaded tree can be written as a document again: every node with all its fields, and null for what
it does not have. Loading what was written gives the same tree.

* `Node.document`: a tree as a document, with the fields that go by two names under either of them;
* `Document.load_node`, `Document.load_block`, `Document.load_other`: loading, one document at a time;
* `Document.load_document_of_load`: a tree that was loaded is loaded again from what it is written as.
-/

namespace Lowering

theorem Text.ofString_inj {s t : String} : Text.ofString s = Text.ofString t ↔ s = t := by
  constructor
  · intro h
    have hstring := congrArg Text.toString? h
    rw [Text.toString?_ofString, Text.toString?_ofString] at hstring
    exact Option.some.inj hstring
  · rintro rfl
    rfl

theorem Text.ofString_beq (s t : String) : (Text.ofString s == Text.ofString t) = (s == t) := by
  rw [Bool.eq_iff_iff, beq_iff_eq, beq_iff_eq, Text.ofString_inj]

/-! ## Writing -/

/-- Which of its two names a field is written under. -/
inductive Naming where
  | first
  | second

/-- The name of a field that goes by two names. -/
def Naming.pick : Naming → String → String → String
  | .first, name, _ => name
  | .second, _, name => name

/-- A value, or null for none. -/
def Json.nullable {α : Type} (f : α → Json) : Option α → Json
  | none => .null
  | some a => f a

/-- The members of a document: its kind, its mark and the fields of its own. -/
def Mark.members (m : Mark) (kind : Text) (own : Members) : Members :=
  ("type", .str kind) :: ("line", .nullable .int m.line) :: ("column", .nullable .int m.column) ::
    ("filename", .nullable .str m.filename) :: own

/-- The document with these members. -/
def Mark.document (m : Mark) (kind : Text) (own : Members) : Json :=
  .obj (m.members kind own)

/-- The value of a tag attribute. -/
def AttributeValue.json : AttributeValue → Json
  | .source s => .str s
  | .flag b => .bool b

/-- An attribute of a tag. -/
def TagAttribute.document (naming : Naming) (a : TagAttribute) : Json :=
  .obj [("name", .str a.name), ("val", a.value.json),
    (naming.pick "mustEscape" "must_escape", .bool a.mustEscape)]

mutual

/-- A node as a document. -/
def Node.document (naming : Naming) : Node → Json
  | .block b => b.document naming
  | .tag mark tag body =>
    mark.document NodeKind.tag.name
      [("name", .str tag.name), ("attrs", .arr (tag.attributes.map (·.document naming))),
        (naming.pick "attributeBlocks" "attribute_blocks", .arr (tag.attributeBlocks.map .str)),
        ("block", bodyDocument naming body),
        (naming.pick "selfClosing" "self_closing", .bool tag.selfClosing)]
  | .code mark code body =>
    mark.document NodeKind.code.name
      [("val", .str code.value), ("buffer", .bool code.buffer),
        (naming.pick "mustEscape" "must_escape", .bool code.mustEscape),
        (naming.pick "isInline" "is_inline", .bool code.isInline),
        ("block", bodyDocument naming body)]
  | .text mark value => mark.document NodeKind.text.name [("val", .str value)]
  | .branch mark test body =>
    mark.document NodeKind.branch.name [("expr", .str test), ("block", bodyDocument naming body)]
  | .switch mark subject body =>
    mark.document NodeKind.switch.name [("expr", .str subject), ("block", body.document naming)]
  | .conditional c => c.document naming
  | .each mark loop body alternate =>
    mark.document NodeKind.each.name
      [("obj", .str loop.collection), ("val", .str loop.element),
        ("key", .nullable .str loop.key), ("block", body.document naming),
        ("alternate", bodyDocument naming alternate)]
  | .other mark kind => mark.document kind []

/-- A block as a document. -/
def Block.document (naming : Naming) : Block → Json
  | .mk mark nodes => mark.document NodeKind.block.name [("nodes", .arr (documents naming nodes))]

/-- A conditional as a document. -/
def Conditional.document (naming : Naming) : Conditional → Json
  | .mk mark test consequent alternate =>
    mark.document NodeKind.conditional.name
      [("test", .str test), ("consequent", consequent.document naming),
        ("alternate", alternateDocument naming alternate)]

/-- A block that may be missing. -/
def bodyDocument (naming : Naming) : Option Block → Json
  | none => .null
  | some b => b.document naming

/-- What a conditional takes else, which may be missing. -/
def alternateDocument (naming : Naming) : Option Alternate → Json
  | none => .null
  | some (.block b) => b.document naming
  | some (.chain c) => c.document naming

/-- Nodes as documents. -/
def documents (naming : Naming) : List Node → List Json
  | [] => []
  | n :: rest => n.document naming :: documents naming rest

end

theorem Node.document_block (naming : Naming) (b : Block) :
    (Node.block b).document naming = b.document naming := rfl

/-- What a conditional takes else, as a node. -/
def Alternate.node : Alternate → Node
  | .block b => .block b
  | .chain c => .conditional c

theorem forall_mem_some {α : Type} {P : α → Prop} {a : α} (h : P a) : ∀ b ∈ some a, P b := by
  intro b hb
  cases hb
  exact h

theorem forall_mem_none {α : Type} {P : α → Prop} : ∀ b ∈ (none : Option α), P b := by
  intro b hb
  cases hb

theorem Checked.ensures_seq_of {α β : Type} {P : β → Prop} {R : α → Prop} {f : Checked (α → β)}
    {x : Checked α} (hx : x.Ensures R) (hf : f.Ensures fun g => ∀ a, R a → P (g a)) :
    (f <*> x).Ensures P := by
  cases f with
  | invalid issues => cases x <;> trivial
  | valid g =>
    cases x with
    | valid a => exact hf a hx
    | invalid issues => trivial

namespace Document

/-! ## Loading one document -/

theorem exists_of_bind_eq_ok {α β : Type} {x : Except LoadError α} {f : α → Except LoadError β}
    {b : β} (h : x >>= f = .ok b) : ∃ a, x = .ok a ∧ f a = .ok b := by
  cases x with
  | error e => cases h
  | ok a => exact ⟨a, rfl, h⟩

/-- What the document in a field loads to. -/
def loadChild (v : Json) (field : Option String) : Except LoadError (Option Node) :=
  match field.bind (child? v) with
  | none => .ok none
  | some w => (load w).map some

theorem assemble_of_kind {members : Members} {kind : NodeKind} (h : IsOfKind (.obj members) kind)
    (parts : List (Text × Part)) : assemble members parts = assembleKind kind members parts := by
  have hk : NodeKind.ofName? kind.name = some kind := NodeKind.ofName?_eq_some_iff.mpr rfl
  rw [assemble_eq, typeName?_eq_some_iff.mpr h]
  simp only [hk]

/-- Loading a document other than a block: its children in order, then its own fields. -/
theorem load_node {members : Members} {kind : NodeKind} (h : IsOfKind (.obj members) kind)
    (hne : kind ≠ .block) :
    load (.obj members) =
      loadChild (.obj members) (childFields kind)[0]? >>= fun first =>
      loadChild (.obj members) (childFields kind)[1]? >>= fun second =>
        (Loading.ofChecked (.invalid kind) (checkFields kind members first second)).result := by
  have hchild : ∀ field : String, (child field members (readParts members)).result =
      loadChild (.obj members) (some field) := fun field => result_child field members
  rw [load, Document.read, assemble_of_kind h]
  cases kind with
  | block => exact absurd rfl hne
  | text => rfl
  | conditional | each =>
    simp only [assembleKind, Loading.result_bind, hchild]
    rfl
  | tag | code | branch | switch =>
    simp only [assembleKind, Loading.result_bind, hchild]
    rfl

theorem load_block {members : Members} (h : IsOfKind (.obj members) .block) :
    load (.obj members) =
      (match (Json.obj members).member? "nodes" with
      | none => .ok []
      | some w => (readNodes w).result) >>= fun nodes =>
        (Loading.ofChecked (.invalid .block) (blockNode members nodes)).result := by
  rw [load, Document.read, assemble_of_kind h, assembleKind, Loading.result_bind, children,
    entry?_readParts, Field.entry?_eq_member?]
  cases (Json.obj members).member? "nodes" <;> rfl

theorem load_other {members : Members} {name : Text}
    (h : (Json.obj members).member? "type" = some (.str name))
    (hname : NodeKind.ofName? name = none) :
    load (.obj members) = (Loading.ofChecked .invalidOther (otherNode name members)).result := by
  rw [load, Document.read, assemble_eq, typeName?_eq_some_iff.mpr h]
  simp only [hname, assembleOther, Loading.result_bind]
  rfl

theorem exists_load_of_mem_readAll {items : List Json} {nodes : List Node}
    (h : (readAll items).result = .ok nodes) : ∀ n ∈ nodes, ∃ w ∈ items, load w = .ok n := by
  induction items generalizing nodes with
  | nil =>
    rw [readAll] at h
    cases h
    exact List.forall_mem_nil _
  | cons w rest ih =>
    rw [readAll, Loading.result_bind, ← load] at h
    cases hw : load w with
    | error e =>
      rw [hw] at h
      cases h
    | ok n =>
      rw [hw] at h
      cases hrest : (readAll rest).result with
      | error e =>
        simp only [bind, Except.bind, hrest] at h
        cases h
      | ok others =>
        simp only [bind, Except.bind, hrest] at h
        cases h
        intro m hm
        rcases List.mem_cons.mp hm with rfl | hm
        · exact ⟨w, List.mem_cons_self, hw⟩
        · obtain ⟨u, hu, hload⟩ := ih hrest m hm
          exact ⟨u, List.mem_cons_of_mem w hu, hload⟩

theorem exists_load_of_mem_readNodes {w : Json} {nodes : List Node}
    (h : (readNodes w).result = .ok nodes) :
    ∃ items, elements? w = some items ∧ ∀ n ∈ nodes, ∃ d ∈ items, load d = .ok n := by
  cases w with
  | arr items =>
    rw [readNodes] at h
    exact ⟨items, rfl, exists_load_of_mem_readAll h⟩
  | str s =>
    cases s with
    | nil =>
      cases h
      exact ⟨[], rfl, List.forall_mem_nil _⟩
    | cons p rest => cases h
  | obj members =>
    cases members with
    | nil =>
      cases h
      exact ⟨[], rfl, List.forall_mem_nil _⟩
    | cons m rest => cases h
  | null | bool | int | float => cases h

/-! ## Reading what was written -/

theorem typeName_document (m : Mark) (kind : Text) (own : Members) :
    (m.document kind own).member? "type" = some (.str kind) := by
  simp [Mark.document, Mark.members, Json.member?]

theorem mark_document (m : Mark) (kind : Text) (own : Members) :
    mark (m.members kind own) = .valid m := by
  obtain ⟨line, column, filename⟩ := m
  cases line <;> cases column <;> cases filename <;>
    simp [mark, Mark.members, Field.optional, Text.entry?, List.lookup_cons, Text.ofString_beq,
      Json.nullable, Checked.under, Checked.map, Field.integer, Field.string]

theorem listFrom_map {α β : Type} {check : α → Checked β} {write : β → α}
    (h : ∀ b, check (write b) = .valid b) (start : Nat) (items : List β) :
    Checked.listFrom check start (items.map write) = .valid items := by
  induction items generalizing start with
  | nil => rfl
  | cons b rest ih =>
    rw [List.map_cons, Checked.listFrom, h, ih]
    rfl

theorem attributeValue_json (a : AttributeValue) : attributeValue a.json = .valid a := by
  cases a <;> rfl

theorem recordOf_document (naming : Naming) (a : TagAttribute) :
    Field.recordOf "TagAttribute" tagAttribute (a.document naming) = .valid a := by
  cases naming <;>
    simp [Field.recordOf, TagAttribute.document, tagAttribute, Field.required, Field.withDefault,
      Field.aliased, Text.entry?, List.lookup_cons, Text.ofString_beq, Naming.pick, Field.string,
      Field.boolean, Checked.under, attributeValue_json]

theorem entry?_members {name : String} (h : name ∉ ["type", "line", "column", "filename"])
    (m : Mark) (kind : Text) (own : Members) :
    Text.entry? name (m.members kind own) = Text.entry? name own := by
  simp only [List.mem_cons, List.not_mem_nil, or_false, not_or, ← beq_eq_false_iff_ne] at h
  obtain ⟨htype, hline, hcolumn, hfilename⟩ := h
  simp only [Mark.members, Text.entry?, List.lookup_cons, Text.ofString_beq, htype, hline, hcolumn,
    hfilename]

theorem member?_members {name : String} (h : name ∉ ["type", "line", "column", "filename"])
    (m : Mark) (kind : Text) (own : Members) :
    (Json.obj (m.members kind own)).member? name = Text.entry? name own :=
  entry?_members h m kind own

theorem loadChild_of_load {v w : Json} {field : String} {n : Node} (h : v.member? field = some w)
    (hw : load w = .ok n) : loadChild v (some field) = .ok (some n) := by
  have hnull : w ≠ .null := by
    rintro rfl
    cases hw
  have hchild : child? v field = some w := child?_eq_some_iff.mpr ⟨h, hnull⟩
  simp only [loadChild, Option.bind_some, hchild, hw]
  rfl

theorem loadChild_of_null {v : Json} {field : String} (h : v.member? field = some .null) :
    loadChild v (some field) = .ok none := by
  have hchild : child? v field = none := by rw [child?, h]
  simp only [loadChild, Option.bind_some, hchild]

/-- A tree that loads from what it is written as. -/
def Reloads (naming : Naming) (n : Node) : Prop :=
  load (n.document naming) = .ok n

variable {naming : Naming} {mark : Mark}

theorem loadChild_body {v : Json} {field : String} {body : Option Block}
    (h : v.member? field = some (bodyDocument naming body))
    (hbody : ∀ b ∈ body, Reloads naming (.block b)) :
    loadChild v (some field) = .ok (body.map .block) := by
  cases body with
  | none => exact loadChild_of_null h
  | some b => exact loadChild_of_load h (hbody b rfl)

theorem loadChild_alternate {v : Json} {field : String} {alternate : Option Alternate}
    (h : v.member? field = some (alternateDocument naming alternate))
    (halternate : ∀ a ∈ alternate, Reloads naming a.node) :
    loadChild v (some field) = .ok (alternate.map Alternate.node) := by
  cases alternate with
  | none => exact loadChild_of_null h
  | some a =>
    cases a with
    | block b => exact loadChild_of_load h (halternate _ rfl)
    | chain c => exact loadChild_of_load h (halternate _ rfl)

theorem block?_map (field : String) (body : Option Block) :
    block? field (body.map .block) = .valid body := by
  cases body <;> rfl

theorem alternate?_map (field : String) (alternate : Option Alternate) :
    alternate? field (alternate.map Alternate.node) = .valid alternate := by
  cases alternate with
  | none => rfl
  | some a => cases a <;> rfl

theorem isOfKind_document (mark : Mark) (kind : NodeKind) (own : Members) :
    IsOfKind (.obj (mark.members kind.name own)) kind :=
  typeName_document mark kind.name own

/-- A document loads to what its fields make of what is in it. -/
theorem load_of_children {members : Members} {kind : NodeKind} {first second : Option Node}
    {n : Node} (h : IsOfKind (.obj members) kind) (hne : kind ≠ .block)
    (hfirst : loadChild (.obj members) (childFields kind)[0]? = .ok first)
    (hsecond : loadChild (.obj members) (childFields kind)[1]? = .ok second)
    (hfields : checkFields kind members first second = .valid n) : load (.obj members) = .ok n := by
  rw [load_node h hne, hfirst, hsecond]
  simp only [bind, Except.bind, hfields]
  rfl

theorem reloads_text (value : Text) : Reloads naming (.text mark value) := by
  refine load_of_children (isOfKind_document mark .text _) (by decide) rfl rfl ?_
  simp (disch := decide) only [checkFields, textNode, mark_document, Field.withDefault,
    entry?_members]
  simp [Text.entry?, Field.string, Checked.under]

theorem reloads_tag {tag : Tag} {body : Option Block} (h : ∀ b ∈ body, Reloads naming (.block b)) :
    Reloads naming (.tag mark tag body) := by
  have hattributes := listFrom_map (recordOf_document naming) 0 tag.attributes
  have hstring : ∀ s : Text, attributeBlock (.str s) = .valid s := fun _ => rfl
  have hblocks := listFrom_map hstring 0 tag.attributeBlocks
  refine load_of_children (isOfKind_document mark .tag _) (by decide) (loadChild_body ?_ h) rfl ?_
  · rw [member?_members (by decide)]
    cases naming <;> simp [Text.entry?, List.lookup_cons, Text.ofString_beq, Naming.pick]
  · simp (disch := decide) only [checkFields, tagNode, mark_document, Field.required,
      Field.withDefault, Field.aliased, entry?_members, block?_map]
    cases naming <;>
      simp [Text.entry?, List.lookup_cons, Text.ofString_beq, Naming.pick, Field.string,
        Field.boolean, Field.listOf, Checked.under, hattributes, hblocks]

theorem reloads_code {code : Code} {body : Option Block}
    (h : ∀ b ∈ body, Reloads naming (.block b)) : Reloads naming (.code mark code body) := by
  refine load_of_children (isOfKind_document mark .code _) (by decide) (loadChild_body ?_ h) rfl ?_
  · rw [member?_members (by decide)]
    cases naming <;> simp [Text.entry?, List.lookup_cons, Text.ofString_beq, Naming.pick]
  · simp (disch := decide) only [checkFields, codeNode, mark_document, Field.withDefault,
      Field.aliased, entry?_members, block?_map]
    cases naming <;>
      simp [Text.entry?, List.lookup_cons, Text.ofString_beq, Naming.pick, Field.string,
        Field.boolean, Checked.under]

theorem reloads_branch {test : Text} {body : Option Block}
    (h : ∀ b ∈ body, Reloads naming (.block b)) : Reloads naming (.branch mark test body) := by
  refine load_of_children (isOfKind_document mark .branch _) (by decide) (loadChild_body ?_ h) rfl ?_
  · rw [member?_members (by decide)]
    simp [Text.entry?, List.lookup_cons, Text.ofString_beq]
  · simp (disch := decide) only [checkFields, branchNode, mark_document, Field.required,
      entry?_members, block?_map]
    simp [Text.entry?, Field.string, Checked.under]

theorem reloads_switch {subject : Text} {body : Block} (h : Reloads naming (.block body)) :
    Reloads naming (.switch mark subject body) := by
  refine load_of_children (isOfKind_document mark .switch _) (by decide) (loadChild_of_load ?_ h)
    rfl ?_
  · rw [member?_members (by decide)]
    simp [Text.entry?, List.lookup_cons, Text.ofString_beq, Node.document_block]
  · simp (disch := decide) only [checkFields, switchNode, mark_document, Field.required,
      entry?_members, block]
    simp [Text.entry?, Field.string, Checked.under]

theorem reloads_conditional {test : Text} {consequent : Block} {alternate : Option Alternate}
    (hc : Reloads naming (.block consequent)) (ha : ∀ a ∈ alternate, Reloads naming a.node) :
    Reloads naming (.conditional (.mk mark test consequent alternate)) := by
  refine load_of_children (isOfKind_document mark .conditional _) (by decide)
    (loadChild_of_load ?_ hc) (loadChild_alternate ?_ ha) ?_
  · rw [member?_members (by decide)]
    simp [Text.entry?, List.lookup_cons, Text.ofString_beq, Node.document_block]
  · rw [member?_members (by decide)]
    simp [Text.entry?, List.lookup_cons, Text.ofString_beq]
  · simp (disch := decide) only [checkFields, conditionalNode, mark_document, Field.required,
      entry?_members, block, alternate?_map]
    simp [Text.entry?, Field.string, Checked.under]

theorem reloads_each {loop : Loop} {body : Block} {alternate : Option Block}
    (hb : Reloads naming (.block body)) (ha : ∀ b ∈ alternate, Reloads naming (.block b)) :
    Reloads naming (.each mark loop body alternate) := by
  have hkey : ∀ members : Members, Text.entry? "key" members = some (.nullable .str loop.key) →
      Field.optional "key" Field.string members = .valid loop.key := by
    intro members h
    rw [Field.optional, h]
    cases loop.key <;> rfl
  refine load_of_children (isOfKind_document mark .each _) (by decide)
    (loadChild_of_load ?_ hb) (loadChild_body ?_ ha) ?_
  · rw [member?_members (by decide)]
    simp [Text.entry?, List.lookup_cons, Text.ofString_beq, Node.document_block]
  · rw [member?_members (by decide)]
    simp [Text.entry?, List.lookup_cons, Text.ofString_beq]
  · have hfield := hkey (mark.members NodeKind.each.name
      [("obj", .str loop.collection), ("val", .str loop.element),
        ("key", .nullable .str loop.key), ("block", body.document naming),
        ("alternate", bodyDocument naming alternate)])
      (by simp [Mark.members, Text.entry?, List.lookup_cons, Text.ofString_beq])
    simp (disch := decide) only [checkFields, eachNode, mark_document, hfield, Field.required,
      entry?_members, block, block?_map]
    simp [Text.entry?, List.lookup_cons, Text.ofString_beq, Field.string, Checked.under]

theorem reloads_other {kind : Text} (h : NodeKind.ofName? kind = none) :
    Reloads naming (.other mark kind) := by
  rw [Reloads, Node.document, Mark.document, load_other (typeName_document mark kind []) h, otherNode,
    mark_document]
  rfl

theorem readAll_documents {nodes : List Node} (h : ∀ n ∈ nodes, Reloads naming n) :
    (readAll (documents naming nodes)).result = .ok nodes := by
  induction nodes with
  | nil => rw [documents, readAll, Loading.result_pure]
  | cons n rest ih =>
    obtain ⟨hn, hrest⟩ := List.forall_mem_cons.mp h
    rw [documents, readAll, Loading.result_bind, ← load, hn]
    simp only [bind, Except.bind, ih hrest]
    rfl

theorem reloads_block {nodes : List Node} (h : ∀ n ∈ nodes, Reloads naming n) :
    Reloads naming (.block (.mk mark nodes)) := by
  have hnodes : (Json.obj (mark.members NodeKind.block.name
      [("nodes", .arr (documents naming nodes))])).member? "nodes" =
        some (.arr (documents naming nodes)) := by
    rw [member?_members (by decide)]
    simp [Text.entry?]
  rw [Reloads, Node.document, Block.document, Mark.document,
    load_block (isOfKind_document mark .block _), hnodes]
  simp only [readNodes, readAll_documents h, bind, Except.bind, blockNode, mark_document]
  rfl

/-! ## What loaded trees are made of -/

section Parts

variable {P : Node → Prop} {n : Option Node} (hn : ∀ m ∈ n, P m)
include hn

theorem ensures_block? (field : String) :
    (block? field n).Ensures fun body => ∀ b ∈ body, P (.block b) := by
  cases n with
  | none => exact forall_mem_none
  | some n =>
    cases n with
    | block b => exact forall_mem_some (hn _ rfl)
    | _ => trivial

theorem ensures_block (hempty : P (.block .empty)) (field : String) (members : Members) :
    (block field members n).Ensures fun body => P (.block body) := by
  cases n with
  | none =>
    rw [block]
    cases Text.entry? field members with
    | none => exact hempty
    | some w => trivial
  | some n =>
    cases n with
    | block b => exact hn _ rfl
    | _ => trivial

theorem ensures_alternate? (field : String) :
    (alternate? field n).Ensures fun alternate => ∀ a ∈ alternate, P a.node := by
  cases n with
  | none => exact forall_mem_none
  | some n =>
    cases n with
    | block b => exact forall_mem_some (hn _ rfl)
    | conditional chain => exact forall_mem_some (hn _ rfl)
    | _ => trivial

end Parts

theorem reloads_empty : Reloads naming (.block .empty) :=
  reloads_block nofun

/-- A node that was put together from trees that load again loads again. -/
theorem reloads_checkFields {kind : NodeKind} (hne : kind ≠ .block) (members : Members)
    {first second : Option Node} (hfirst : ∀ n ∈ first, Reloads naming n)
    (hsecond : ∀ n ∈ second, Reloads naming n) :
    (checkFields kind members first second).Ensures (Reloads naming) := by
  have hblock := ensures_block hfirst reloads_empty
  cases kind with
  | block => exact absurd rfl hne
  | text =>
    refine Checked.ensures_seq (Checked.ensures_map ?_ _) _
    intro mark value
    exact reloads_text value
  | tag =>
    refine Checked.ensures_seq (Checked.ensures_seq_of (ensures_block? hfirst "block")
      (Checked.ensures_seq (Checked.ensures_seq (Checked.ensures_seq
        (Checked.ensures_map ?_ _) _) _) _)) _
    intro mark name attributes attributeBlocks body hb selfClosing
    exact reloads_tag hb
  | code =>
    refine Checked.ensures_seq_of (ensures_block? hfirst "block") (Checked.ensures_seq
      (Checked.ensures_seq (Checked.ensures_seq (Checked.ensures_seq
        (Checked.ensures_map ?_ _) _) _) _) _)
    intro mark value buffer mustEscape isInline body hb
    exact reloads_code hb
  | branch =>
    refine Checked.ensures_seq_of (ensures_block? hfirst "block")
      (Checked.ensures_seq (Checked.ensures_map ?_ _) _)
    intro mark test body hb
    exact reloads_branch hb
  | switch =>
    refine Checked.ensures_seq_of (hblock "block" members)
      (Checked.ensures_seq (Checked.ensures_map ?_ _) _)
    intro mark subject body hb
    exact reloads_switch hb
  | conditional =>
    refine Checked.ensures_seq_of (ensures_alternate? hsecond "alternate")
      (Checked.ensures_seq_of (hblock "consequent" members)
        (Checked.ensures_seq (Checked.ensures_map ?_ _) _))
    intro mark test consequent hc alternate ha
    exact reloads_conditional hc ha
  | each =>
    refine Checked.ensures_seq_of (ensures_block? hsecond "alternate")
      (Checked.ensures_seq_of (hblock "block" members)
        (Checked.ensures_seq (Checked.ensures_seq (Checked.ensures_seq
          (Checked.ensures_map ?_ _) _) _) _))
    intro mark collection element key body hb alternate ha
    exact reloads_each hb ha

/-- What a document in a field loads to is what a document directly in the one around it loads to. -/
theorem exists_within_of_loadChild {v : Json} {kind : NodeKind} (hkind : kind? v = some kind)
    (hne : kind ≠ .block) {index : Nat} {child : Option Node}
    (h : loadChild v (childFields kind)[index]? = .ok child) :
    ∀ n ∈ child, ∃ w ∈ within v, load w = .ok n := by
  rintro n rfl
  rw [within_of_ne_block hkind hne]
  unfold loadChild at h
  cases hf : (childFields kind)[index]? with
  | none =>
    rw [hf] at h
    cases h
  | some field =>
    rw [hf, Option.bind_some] at h
    cases hc : child? v field with
    | none =>
      rw [hc] at h
      cases h
    | some w =>
      simp only [hc] at h
      refine ⟨w, List.mem_filterMap.mpr ⟨field, List.mem_of_getElem? hf, hc⟩, ?_⟩
      cases hw : load w with
      | error e =>
        rw [hw] at h
        cases h
      | ok m =>
        rw [hw] at h
        cases h
        rfl

theorem exists_within_of_load_block {members : Members} (hkind : IsOfKind (.obj members) .block)
    {n : Node} (h : load (.obj members) = .ok n) :
    ∃ mark nodes, Document.mark members = .valid mark ∧ n = .block (.mk mark nodes) ∧
      ∀ m ∈ nodes, ∃ w ∈ within (.obj members), load w = .ok m := by
  rw [load_block hkind] at h
  have hwithin : within (.obj members) =
      (((Json.obj members).member? "nodes").bind elements?).getD [] := by
    rw [within, kind?_eq_some_iff.mpr hkind]
  rw [hwithin]
  -- What is left after the nodes have loaded is to read the mark.
  have hmark : ∀ nodes : List Node,
      (Loading.ofChecked (.invalid .block) (blockNode members nodes)).result = .ok n →
        ∃ mark, Document.mark members = .valid mark ∧ n = .block (.mk mark nodes) := by
    intro nodes hn
    rw [blockNode] at hn
    cases hm : Document.mark members with
    | valid mark =>
      rw [hm] at hn
      cases hn
      exact ⟨mark, rfl, rfl⟩
    | invalid issues =>
      rw [hm] at hn
      cases hn
  cases hm : (Json.obj members).member? "nodes" with
  | none =>
    rw [hm] at h
    obtain ⟨mark, hvalid, rfl⟩ := hmark [] h
    exact ⟨mark, [], hvalid, rfl, List.forall_mem_nil _⟩
  | some w =>
    rw [hm] at h
    cases hr : (readNodes w).result with
    | error e =>
      simp only [hr] at h
      cases h
    | ok nodes =>
      simp only [hr] at h
      obtain ⟨mark, hvalid, rfl⟩ := hmark nodes h
      obtain ⟨items, hitems, hloads⟩ := exists_load_of_mem_readNodes hr
      refine ⟨mark, nodes, hvalid, rfl, ?_⟩
      simpa [hitems] using hloads

/-- Induction over what documents load to: a node of an unknown kind has its mark only, a block holds
what the documents in it load to, and every other node is put together from these and its fields. -/
theorem induct_load {P : Json → Node → Prop}
    (other : ∀ members name mark, (Json.obj members).member? "type" = some (.str name) →
      NodeKind.ofName? name = none → Document.mark members = .valid mark →
        P (.obj members) (.other mark name))
    (block : ∀ members mark nodes, Document.mark members = .valid mark →
      (∀ m ∈ nodes, ∃ w ∈ within (.obj members), P w m) → P (.obj members) (.block (.mk mark nodes)))
    (node : ∀ kind members first second n, kind ≠ .block →
      (∀ m ∈ first, ∃ w ∈ within (.obj members), P w m) →
      (∀ m ∈ second, ∃ w ∈ within (.obj members), P w m) →
      checkFields kind members first second = .valid n → P (.obj members) n)
    {v : Json} {n : Node} (h : load v = .ok n) : P v n := by
  induction v using induct generalizing n with
  | step v ih =>
    have hwithin : ∀ m : Node, (∃ w ∈ within v, load w = .ok m) → ∃ w ∈ within v, P w m := by
      rintro m ⟨w, hw, hload⟩
      exact ⟨w, hw, ih w hw hload⟩
    cases ht : typeName? v with
    | none =>
      have hfail : failureOf (load v) = _ := failure_step v
      rw [h, ownFailure?, ht, Option.or_some] at hfail
      cases hfail
    | some name =>
      have hname := typeName?_eq_some_iff.mp ht
      obtain ⟨members, rfl⟩ := exists_obj_of_member? hname
      cases hk : NodeKind.ofName? name with
      | none =>
        rw [load_other hname hk, otherNode] at h
        cases hm : Document.mark members with
        | invalid issues =>
          rw [hm] at h
          cases h
        | valid mark =>
          rw [hm] at h
          cases h
          exact other members name mark hname hk hm
      | some kind =>
        have hkind : IsOfKind (.obj members) kind := isOfKind_of_ofName? hname hk
        by_cases hb : kind = .block
        · subst hb
          obtain ⟨mark, nodes, hmark, rfl, hnodes⟩ := exists_within_of_load_block hkind h
          exact block members mark nodes hmark fun m hm => hwithin m (hnodes m hm)
        · have hkind? := kind?_eq_some_iff.mpr hkind
          rw [load_node hkind hb] at h
          obtain ⟨first, hfirst, h⟩ := exists_of_bind_eq_ok h
          obtain ⟨second, hsecond, h⟩ := exists_of_bind_eq_ok h
          refine node kind members first second n hb
            (fun m hm => hwithin m (exists_within_of_loadChild hkind? hb hfirst m hm))
            (fun m hm => hwithin m (exists_within_of_loadChild hkind? hb hsecond m hm)) ?_
          cases hc : checkFields kind members first second with
          | invalid issues =>
            rw [hc] at h
            cases h
          | valid m =>
            rw [hc] at h
            cases h
            rfl

/-- A tree that was loaded is loaded again from what it is written as, under either names. -/
theorem load_document_of_load {v : Json} {n : Node} (h : load v = .ok n) (naming : Naming) :
    load (n.document naming) = .ok n := by
  refine induct_load ?_ ?_ ?_ (P := fun _ n => Reloads naming n) h
  · intro members name mark _ hname _
    exact reloads_other hname
  · intro members mark nodes _ hnodes
    exact reloads_block fun m hm => (hnodes m hm).choose_spec.2
  · intro kind members first second n hne hfirst hsecond hfields
    have hchecked : (checkFields kind members first second).Ensures (Reloads naming) :=
      reloads_checkFields hne members (fun m hm => (hfirst m hm).choose_spec.2)
        (fun m hm => (hsecond m hm).choose_spec.2)
    rw [hfields] at hchecked
    exact hchecked

/-- A tag in lenient spellings: a numeral for its line, a word for a flag, an object for an attribute
block and an empty string for the nodes of its block. -/
def lenientTag : Json :=
  .obj [("type", .str "Tag"), ("name", .str "p"), ("line", .str " 1_0.0"),
    ("selfClosing", .str "YES"), ("attributeBlocks", .arr [.obj [("val", .str "x")]]),
    ("attrs", .arr [.obj [("name", .str "a"), ("val", .int 0)]]),
    ("block", .obj [("type", .str "Block"), ("nodes", .str [])])]

/-- The tree of that tag. -/
def lenientTree : Node :=
  .tag { line := some 10 }
    { name := "p", attributes := [{ name := "a", value := .flag false }],
      attributeBlocks := ["x"], selfClosing := true }
    (some .empty)

theorem load_document_lenientTree :
    load lenientTag = .ok lenientTree ∧ load (lenientTree.document .first) = .ok lenientTree ∧
      load (lenientTree.document .second) = .ok lenientTree := by
  have h : load lenientTag = .ok lenientTree := rfl
  exact ⟨h, load_document_of_load h .first, load_document_of_load h .second⟩

end Document

end Lowering
