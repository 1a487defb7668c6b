import Mathlib.Data.List.Forall2
import Lowering.Proofs.Grammar
import Lowering.Report

/-!
# Documents with the same known fields

What a document loads as depends on the fields that are known in each of its objects: on those of its
kind in a node, on those of an attribute and of an attribute block in the lists of a tag. The order of
an object's members does not count, nor do members by other names.

* `Document.Role`: what a value in a document is read as; `Document.Role.reads`: the names that are
  known in an object, and what their values are read as;
* `Document.Alike`: values that are the same, at every depth, as far as their known members go;
* `Document.load_eq_of_alike`: they load as the same node, or both fail to load.
-/

namespace Lowering

/-! ## Fields that are read alike -/

section Rel

variable {α β : Type} {R : α → β → Prop} {x : Option α} {y : Option β}

theorem isSome_eq_of_rel (h : Option.Rel R x y) : x.isSome = y.isSome := by
  cases h <;> rfl

theorem rel_of_isSome_eq (h : x.isSome = y.isSome) (hR : ∀ a b, x = some a → y = some b → R a b) :
    Option.Rel R x y := by
  cases x with
  | none =>
    cases y with
    | none => exact .none
    | some b => cases h
  | some a =>
    cases y with
    | none => cases h
    | some b => exact .some (hR a b rfl rfl)

end Rel

namespace Field

variable {α : Type} {read : Json → Checked α} {R : Json → Json → Prop} {members members' : Members}
  {name : String} {default : α}

theorem required_congr
    (h : Option.Rel R (Text.entry? name members) (Text.entry? name members'))
    (hR : ∀ v v', R v v' → read v = read v') :
    required name read members = required name read members' := by
  unfold required
  generalize Text.entry? name members = x, Text.entry? name members' = x' at h
  cases h with
  | none => rfl
  | some h => simp only [hR _ _ h]

theorem withDefault_congr
    (h : Option.Rel R (Text.entry? name members) (Text.entry? name members'))
    (hR : ∀ v v', R v v' → read v = read v') :
    withDefault name default read members = withDefault name default read members' := by
  unfold withDefault
  generalize Text.entry? name members = x, Text.entry? name members' = x' at h
  cases h with
  | none => rfl
  | some h => simp only [hR _ _ h]

theorem aliased_congr {other : String}
    (hother : Option.Rel R (Text.entry? other members) (Text.entry? other members'))
    (hname : Option.Rel R (Text.entry? name members) (Text.entry? name members'))
    (hR : ∀ v v', R v v' → read v = read v') :
    aliased other name default read members = aliased other name default read members' := by
  unfold aliased
  rw [withDefault_congr hname hR]
  generalize Text.entry? other members = x, Text.entry? other members' = x' at hother
  cases hother with
  | none => rfl
  | some h => simp only [hR _ _ h]

theorem optional_congr
    (h : Option.Rel R (Text.entry? name members) (Text.entry? name members'))
    (hnull : ∀ v v', R v v' → (v = .null ↔ v' = .null))
    (hR : ∀ v v', R v v' → read v = read v') :
    optional name read members = optional name read members' := by
  unfold optional
  generalize Text.entry? name members = x, Text.entry? name members' = x' at h
  cases h with
  | none => rfl
  | @some v v' h =>
    by_cases hv : v = .null
    · rw [hv, (hnull v v' h).mp hv]
    · have hv' : v' ≠ .null := fun hv' => hv ((hnull v v' h).mpr hv')
      simp only [hR _ _ h]

end Field

theorem Checked.listFrom_congr {α β : Type} {check : α → Checked β} {start : Nat} {xs xs' : List α}
    (h : List.Forall₂ (fun a a' => check a = check a') xs xs') :
    Checked.listFrom check start xs = Checked.listFrom check start xs' := by
  induction h generalizing start with
  | nil => rfl
  | cons hhead _ ih => rw [listFrom, listFrom, hhead, ih]

/-! ## Failures without the values that they show -/

/-- A failure without the value that it shows, which may have members that are not known. What cannot
be enumerated has no members. -/
def LoadError.outline : LoadError → LoadError
  | .notNode _ => .notNode .null
  | e => e

namespace Loading

variable {α β : Type}

/-- A result of loading, where a failure does not show its value. -/
def outline (x : Loading α) : Loading α :=
  ⟨x.met, x.result.mapError LoadError.outline⟩

theorem outline_bind (x : Loading α) (f : α → Loading β) :
    (x >>= f).outline = x.outline >>= fun a => (f a).outline := by
  obtain ⟨met, result⟩ := x
  cases result <;> rfl

theorem outline_bind_congr {x y : Loading α} {f g : α → Loading β} (hx : x.outline = y.outline)
    (hf : ∀ a, (f a).outline = (g a).outline) : (x >>= f).outline = (y >>= g).outline := by
  rw [outline_bind, outline_bind, hx, funext hf]

end Loading

namespace Document

/-! ## Known fields -/

/-- What a value in a document is read as. -/
inductive Role where
  | node
  | nodes
  | tagAttributes
  | tagAttribute
  | attributeBlocks
  | attributeBlock
  | plain
deriving DecidableEq

/-- The fields of every node. -/
def markFields : List (Text × Role) :=
  [("type", .plain), ("line", .plain), ("column", .plain), ("filename", .plain)]

/-- The other fields of a kind, with their aliases. -/
def kindFields : NodeKind → List (Text × Role)
  | .block => [("nodes", .nodes)]
  | .tag =>
    [("name", .plain), ("attrs", .tagAttributes), ("attributeBlocks", .attributeBlocks),
      ("attribute_blocks", .attributeBlocks), ("block", .node), ("selfClosing", .plain),
      ("self_closing", .plain)]
  | .code =>
    [("val", .plain), ("buffer", .plain), ("mustEscape", .plain), ("must_escape", .plain),
      ("isInline", .plain), ("is_inline", .plain), ("block", .node)]
  | .text => [("val", .plain)]
  | .branch | .switch => [("expr", .plain), ("block", .node)]
  | .conditional => [("test", .plain), ("consequent", .node), ("alternate", .node)]
  | .each =>
    [("obj", .plain), ("val", .plain), ("key", .plain), ("block", .node), ("alternate", .node)]

/-- The fields of a node. Of an object that names no kind only that is seen. -/
def nodeFields (v : Json) : List (Text × Role) :=
  match typeName? v with
  | none => [("type", .plain)]
  | some name => markFields ++ (NodeKind.ofName? name).elim [] kindFields

/-- The fields of an attribute, with their aliases. -/
def attributeFields : List (Text × Role) :=
  [("name", .plain), ("val", .plain), ("mustEscape", .plain), ("must_escape", .plain)]

/-- The fields of an attribute block. -/
def attributeBlockFields : List (Text × Role) :=
  [("val", .plain)]

namespace Role

/-- What a member of an object is read as; none if its name is not known there. An object that is
none of the three is taken with all its members. -/
def reads (role : Role) (members : Members) (name : Text) : Option Role :=
  match role with
  | .node => (nodeFields (.obj members)).lookup name
  | .tagAttribute => attributeFields.lookup name
  | .attributeBlock => attributeBlockFields.lookup name
  | _ => some .plain

/-- What the elements of an array are read as. -/
def item : Role → Role
  | .nodes => .node
  | .tagAttributes => .tagAttribute
  | .attributeBlocks => .attributeBlock
  | _ => .plain

end Role

/-- Values that differ, at any depth, only in the order of the members of objects and in members by
names that are not known there. -/
inductive Alike : Role → Json → Json → Prop
  | same (role : Role) (v : Json) : Alike role v v
  | arr {role : Role} {items items' : List Json} (hlength : items.length = items'.length)
      (hitems : ∀ i (h : i < items.length) (h' : i < items'.length),
        Alike role.item (items.get ⟨i, h⟩) (items'.get ⟨i, h'⟩)) :
      Alike role (.arr items) (.arr items')
  | obj {role : Role} {members members' : Members}
      (hnames : ∀ name inner, role.reads members name = some inner →
        (Text.entry? name members).isSome = (Text.entry? name members').isSome)
      (hvalues : ∀ name inner v v', role.reads members name = some inner →
        Text.entry? name members = some v → Text.entry? name members' = some v' →
          Alike inner v v') :
      Alike role (.obj members) (.obj members')

/-! ## Values that are read alike -/

/-- Values that are read as the same string, integer, boolean and so on. -/
structure PlainAlike (v v' : Json) : Prop where
  string : Field.string v = Field.string v'
  integer : Field.integer v = Field.integer v'
  boolean : Field.boolean v = Field.boolean v'
  value : attributeValue v = attributeValue v'
  null : v = .null ↔ v' = .null

/-- Values that are read as the same. -/
def ReadsAlike : Role → Json → Json → Prop
  | .node, v, v' => (v = .null ↔ v' = .null) ∧ (read v).outline = (read v').outline
  | .nodes, v, v' => (readNodes v).outline = (readNodes v').outline
  | .tagAttributes, v, v' =>
    Field.listOf (Field.recordOf "TagAttribute" tagAttribute) v =
      Field.listOf (Field.recordOf "TagAttribute" tagAttribute) v'
  | .tagAttribute, v, v' =>
    Field.recordOf "TagAttribute" tagAttribute v = Field.recordOf "TagAttribute" tagAttribute v'
  | .attributeBlocks, v, v' => Field.listOf attributeBlock v = Field.listOf attributeBlock v'
  | .attributeBlock, v, v' => attributeBlock v = attributeBlock v'
  | .plain, v, v' => PlainAlike v v'

theorem readsAlike_refl (role : Role) (v : Json) : ReadsAlike role v v := by
  cases role with
  | node => exact ⟨Iff.rfl, rfl⟩
  | plain => exact ⟨rfl, rfl, rfl, rfl, Iff.rfl⟩
  | _ => exact rfl

/-- Objects whose values in the given fields are read alike. -/
def FieldsAlike (fields : List (Text × Role)) (members members' : Members) : Prop :=
  ∀ f ∈ fields, Option.Rel (ReadsAlike f.2) (Text.entry? f.1 members) (Text.entry? f.1 members')

@[simp] theorem fieldsAlike_cons {f : Text × Role} {rest : List (Text × Role)}
    {members members' : Members} :
    FieldsAlike (f :: rest) members members' ↔
      Option.Rel (ReadsAlike f.2) (Text.entry? f.1 members) (Text.entry? f.1 members') ∧
        FieldsAlike rest members members' :=
  List.forall_mem_cons

theorem fieldsAlike_append {fields more : List (Text × Role)} {members members' : Members} :
    FieldsAlike (fields ++ more) members members' ↔
      FieldsAlike fields members members' ∧ FieldsAlike more members members' :=
  List.forall_mem_append

section Fields

variable {members members' : Members}

theorem mark_congr (h : FieldsAlike markFields members members') : mark members = mark members' := by
  simp only [markFields, fieldsAlike_cons] at h
  obtain ⟨-, hline, hcolumn, hfilename, -⟩ := h
  simp only [mark,
    Field.optional_congr hline (fun _ _ hv => hv.null) (fun _ _ hv => hv.integer),
    Field.optional_congr hcolumn (fun _ _ hv => hv.null) (fun _ _ hv => hv.integer),
    Field.optional_congr hfilename (fun _ _ hv => hv.null) (fun _ _ hv => hv.string)]

theorem tagAttribute_congr (h : FieldsAlike attributeFields members members') :
    tagAttribute members = tagAttribute members' := by
  simp only [attributeFields, fieldsAlike_cons] at h
  obtain ⟨hname, hval, halias, hescape, -⟩ := h
  simp only [tagAttribute, Field.required_congr hname fun _ _ hv => hv.string,
    Field.withDefault_congr hval fun _ _ hv => hv.value,
    Field.aliased_congr halias hescape fun _ _ hv => hv.boolean]

theorem attributeBlock_congr (h : FieldsAlike attributeBlockFields members members') :
    attributeBlock (.obj members) = attributeBlock (.obj members') := by
  simp only [attributeBlockFields, fieldsAlike_cons] at h
  obtain ⟨hval, -⟩ := h
  simp only [attributeBlock]
  generalize Text.entry? "val" members = x, Text.entry? "val" members' = x' at hval
  cases hval with
  | none => rfl
  | some hv => exact hv.string

theorem block_congr {R : Json → Json → Prop} {name : String}
    (h : Option.Rel R (Text.entry? name members) (Text.entry? name members')) :
    block name members = block name members' := by
  funext n
  unfold block
  generalize Text.entry? name members = x, Text.entry? name members' = x' at h
  cases h <;> rfl

/-- The checks of a node's own fields depend on the known fields of its kind. -/
theorem checkFields_congr {kind : NodeKind} (hmark : mark members = mark members')
    (h : FieldsAlike (kindFields kind) members members') :
    checkFields kind members = checkFields kind members' := by
  funext first second
  cases kind <;> simp only [kindFields, fieldsAlike_cons] at h
  case block => simp only [checkFields, blockNode, hmark]
  case tag =>
    obtain ⟨hname, hattrs, halias, hblocks, -, halias', hclosing, -⟩ := h
    simp only [checkFields, tagNode, hmark, Field.required_congr hname fun _ _ hv => hv.string,
      Field.withDefault_congr hattrs fun _ _ hv => hv,
      Field.aliased_congr halias hblocks fun _ _ hv => hv,
      Field.aliased_congr halias' hclosing fun _ _ hv => hv.boolean]
  case code =>
    obtain ⟨hval, hbuffer, halias, hescape, halias', hinline, -⟩ := h
    simp only [checkFields, codeNode, hmark, Field.withDefault_congr hval fun _ _ hv => hv.string,
      Field.withDefault_congr hbuffer fun _ _ hv => hv.boolean,
      Field.aliased_congr halias hescape fun _ _ hv => hv.boolean,
      Field.aliased_congr halias' hinline fun _ _ hv => hv.boolean]
  case text =>
    simp only [checkFields, textNode, hmark, Field.withDefault_congr h.1 fun _ _ hv => hv.string]
  case branch =>
    simp only [checkFields, branchNode, hmark, Field.required_congr h.1 fun _ _ hv => hv.string]
  case switch =>
    obtain ⟨hexpr, hbody, -⟩ := h
    simp only [checkFields, switchNode, hmark, Field.required_congr hexpr fun _ _ hv => hv.string,
      block_congr hbody]
  case conditional =>
    obtain ⟨htest, hconsequent, -⟩ := h
    simp only [checkFields, conditionalNode, hmark,
      Field.required_congr htest fun _ _ hv => hv.string, block_congr hconsequent]
  case each =>
    obtain ⟨hobj, hval, hkey, hbody, -⟩ := h
    simp only [checkFields, eachNode, hmark, Field.required_congr hobj fun _ _ hv => hv.string,
      Field.required_congr hval fun _ _ hv => hv.string,
      Field.optional_congr hkey (fun _ _ hv => hv.null) (fun _ _ hv => hv.string),
      block_congr hbody]

theorem child_eq_of_ne_null {name : String} {v : Json} (h : Text.entry? name members = some v)
    (hv : v ≠ .null) : child name members (readParts members) = some <$> read v := by
  unfold child
  rw [entry?_readParts, h]
  cases v with
  | null => exact absurd rfl hv
  | _ => rfl

theorem outline_child_congr {name : String}
    (h : Option.Rel (ReadsAlike .node) (Text.entry? name members) (Text.entry? name members')) :
    (child name members (readParts members)).outline =
      (child name members' (readParts members')).outline := by
  generalize hx : Text.entry? name members = x, hx' : Text.entry? name members' = x' at h
  cases h with
  | none => simp only [child, hx, hx']
  | @some v v' h =>
    obtain ⟨hnull, hread⟩ := h
    by_cases hv : v = .null
    · obtain rfl := hnull.mp hv
      simp only [child, hx, hx', hv]
    · rw [child_eq_of_ne_null hx hv, child_eq_of_ne_null hx' fun hv' => hv (hnull.mpr hv')]
      exact Loading.outline_bind_congr hread fun _ => rfl

theorem outline_children_congr
    (h : Option.Rel (ReadsAlike .nodes) (Text.entry? "nodes" members) (Text.entry? "nodes" members')) :
    (children (readParts members)).outline = (children (readParts members')).outline := by
  unfold children
  rw [entry?_readParts, entry?_readParts]
  generalize Text.entry? "nodes" members = x, Text.entry? "nodes" members' = x' at h
  cases h with
  | none => rfl
  | some h => exact h

theorem outline_assembleKind_congr {kind : NodeKind} (hmark : mark members = mark members')
    (h : FieldsAlike (kindFields kind) members members') :
    (assembleKind kind members (readParts members)).outline =
      (assembleKind kind members' (readParts members')).outline := by
  have hcheck : ∀ first second,
      (Loading.ofChecked (.invalid kind) (checkFields kind members first second)).outline =
        (Loading.ofChecked (.invalid kind) (checkFields kind members' first second)).outline := by
    intro first second
    rw [checkFields_congr hmark h]
  cases kind <;> simp only [kindFields, fieldsAlike_cons] at h
  case block =>
    apply Loading.outline_bind_congr (outline_children_congr h.1)
    intro nodes
    simp only [blockNode, hmark]
  case text => exact hcheck none none
  case conditional =>
    obtain ⟨-, hconsequent, halternate, -⟩ := h
    exact Loading.outline_bind_congr (outline_child_congr hconsequent) fun first =>
      Loading.outline_bind_congr (outline_child_congr halternate) (hcheck first)
  case each =>
    obtain ⟨-, -, -, hbody, halternate, -⟩ := h
    exact Loading.outline_bind_congr (outline_child_congr hbody) fun first =>
      Loading.outline_bind_congr (outline_child_congr halternate) (hcheck first)
  case tag =>
    obtain ⟨-, -, -, -, hbody, -⟩ := h
    exact Loading.outline_bind_congr (outline_child_congr hbody) fun first => hcheck first none
  case code =>
    obtain ⟨-, -, -, -, -, -, hbody, -⟩ := h
    exact Loading.outline_bind_congr (outline_child_congr hbody) fun first => hcheck first none
  case branch =>
    exact Loading.outline_bind_congr (outline_child_congr h.2.1) fun first => hcheck first none
  case switch =>
    exact Loading.outline_bind_congr (outline_child_congr h.2.1) fun first => hcheck first none

end Fields

theorem lookup_markFields : ∀ f ∈ markFields, markFields.lookup f.1 = some f.2 := by
  decide

theorem lookup_fields (kind : NodeKind) :
    ∀ f ∈ markFields ++ kindFields kind,
      (markFields ++ kindFields kind).lookup f.1 = some f.2 := by
  cases kind <;> decide

/-- Objects whose known members are read alike. -/
def MembersAlike (role : Role) (members members' : Members) : Prop :=
  ∀ name inner, role.reads members name = some inner →
    Option.Rel (ReadsAlike inner) (Text.entry? name members) (Text.entry? name members')

theorem MembersAlike.fieldsAlike {role : Role} {members members' : Members}
    {fields : List (Text × Role)} (h : MembersAlike role members members')
    (hfields : ∀ f ∈ fields, role.reads members f.1 = some f.2) :
    FieldsAlike fields members members' :=
  fun f hf => h f.1 f.2 (hfields f hf)

theorem string_eq_valid_iff {v : Json} {s : Text} : Field.string v = .valid s ↔ v = .str s := by
  cases v <;> simp [Field.string, Checked.refuse]

theorem typeName?_congr {members members' : Members}
    (h : Option.Rel PlainAlike (Text.entry? "type" members) (Text.entry? "type" members')) :
    typeName? (.obj members) = typeName? (.obj members') := by
  apply Option.ext
  intro name
  rw [typeName?_eq_some_iff, typeName?_eq_some_iff, ← Field.entry?_eq_member?,
    ← Field.entry?_eq_member?]
  generalize Text.entry? "type" members = x, Text.entry? "type" members' = x' at h
  cases h with
  | none => exact Iff.rfl
  | some hv => rw [Option.some.injEq, Option.some.injEq, ← string_eq_valid_iff, hv.string,
      string_eq_valid_iff]

/-- What an object loads as depends on the known fields of its kind. -/
theorem outline_assemble_congr {members members' : Members}
    (h : MembersAlike .node members members') :
    (assemble members (readParts members)).outline =
      (assemble members' (readParts members')).outline := by
  have hreads : ∀ name, Role.node.reads members name = (nodeFields (.obj members)).lookup name :=
    fun _ => rfl
  -- The name of the kind is itself a known member, so that both objects have the same known names.
  have htype : typeName? (.obj members) = typeName? (.obj members') := by
    apply typeName?_congr
    apply h "type" .plain
    rw [hreads, nodeFields]
    cases typeName? (.obj members) <;> rfl
  rw [assemble_eq, assemble_eq, ← htype]
  cases ht : typeName? (.obj members) with
  | none => rfl
  | some name =>
    cases hk : NodeKind.ofName? name with
    | none =>
      have hfields : FieldsAlike markFields members members' := by
        refine h.fieldsAlike fun f hf => ?_
        simp only [hreads, nodeFields, ht, hk, Option.elim_none, List.append_nil]
        exact lookup_markFields f hf
      simp only [hk, assembleOther, otherNode, mark_congr hfields]
    | some kind =>
      have hfields : FieldsAlike (markFields ++ kindFields kind) members members' := by
        refine h.fieldsAlike fun f hf => ?_
        simp only [hreads, nodeFields, ht, hk, Option.elim_some]
        exact lookup_fields kind f hf
      rw [fieldsAlike_append] at hfields
      simp only [hk]
      exact outline_assembleKind_congr (mark_congr hfields.1) hfields.2

theorem outline_readAll_congr {items items' : List Json}
    (h : List.Forall₂ (ReadsAlike .node) items items') :
    (readAll items).outline = (readAll items').outline := by
  induction h with
  | nil => rfl
  | cons hhead _ ih =>
    rw [readAll, readAll]
    exact Loading.outline_bind_congr hhead.2 fun node =>
      Loading.outline_bind_congr ih fun _ => rfl

/-- The elements of arrays that are alike are read alike. -/
theorem readsAlike_arr {role : Role} {items items' : List Json}
    (h : List.Forall₂ (ReadsAlike role.item) items items') :
    ReadsAlike role (.arr items) (.arr items') := by
  cases role with
  | node => exact ⟨by simp, rfl⟩
  | nodes =>
    simp only [ReadsAlike, readNodes]
    exact outline_readAll_congr h
  | tagAttributes => exact Checked.listFrom_congr h
  | attributeBlocks => exact Checked.listFrom_congr h
  | plain => exact ⟨rfl, rfl, rfl, rfl, by simp⟩
  | _ => exact rfl

theorem eq_nil_iff_no_entry {members : Members} :
    members = [] ↔ ∀ name, (Text.entry? name members).isSome = false := by
  cases members with
  | nil => simp [Text.entry?]
  | cons m rest =>
    simp only [reduceCtorEq, false_iff]
    intro h
    have hhead := h m.1
    simp [Text.entry?] at hhead

/-- Objects with the same names both enumerate something, or both nothing. -/
theorem outline_enumerate_congr {members members' : Members}
    (h : ∀ name, (Text.entry? name members).isSome = (Text.entry? name members').isSome) :
    (enumerate (.obj members)).outline = (enumerate (.obj members')).outline := by
  have hnil : members = [] ↔ members' = [] := by simp only [eq_nil_iff_no_entry, h]
  cases members with
  | nil => rw [hnil.mp rfl]
  | cons m rest =>
    cases members' with
    | nil => cases hnil.mpr rfl
    | cons m' rest' => rfl

theorem readsAlike_obj {role : Role} {members members' : Members}
    (h : MembersAlike role members members') :
    ReadsAlike role (.obj members) (.obj members') := by
  cases role with
  | node =>
    refine ⟨by simp, ?_⟩
    rw [read, read]
    exact outline_assemble_congr h
  | nodes =>
    simp only [ReadsAlike, readNodes]
    exact outline_enumerate_congr fun name => isSome_eq_of_rel (h name .plain rfl)
  | tagAttribute =>
    have hfields : ∀ f ∈ attributeFields, attributeFields.lookup f.1 = some f.2 := by decide
    exact tagAttribute_congr (h.fieldsAlike hfields)
  | attributeBlock =>
    have hfields : ∀ f ∈ attributeBlockFields, attributeBlockFields.lookup f.1 = some f.2 := by decide
    exact attributeBlock_congr (h.fieldsAlike hfields)
  | plain => exact ⟨rfl, rfl, rfl, rfl, by simp⟩
  | _ => exact rfl

/-- Values that differ only in the order of members and in unknown members are read alike. -/
theorem Alike.readsAlike {role : Role} {v v' : Json} (h : Alike role v v') :
    ReadsAlike role v v' := by
  induction h with
  | same role v => exact readsAlike_refl role v
  | arr hlength _ ih => exact readsAlike_arr (List.forall₂_iff_get.mpr ⟨hlength, ih⟩)
  | @obj role members members' hnames _ ih =>
    -- A known name is in both objects or in neither.
    apply readsAlike_obj
    intro name inner hreads
    exact rel_of_isSome_eq (hnames name inner hreads) fun v v' hv hv' =>
      ih name inner v v' hreads hv hv'

/-! ## Documents that are alike -/

theorem entry?_eq_of_perm {members members' : Members} (h : members.Perm members')
    (hnames : members.Pairwise fun a b => a.1 ≠ b.1) (name : Text) :
    Text.entry? name members = Text.entry? name members' := by
  unfold Text.entry?
  induction h with
  | nil => rfl
  | cons m _ ih => rw [List.lookup_cons, List.lookup_cons, ih (List.pairwise_cons.mp hnames).2]
  | swap m n rest =>
    have hne : n.1 ≠ m.1 := (List.pairwise_cons.mp hnames).1 m List.mem_cons_self
    rw [List.lookup_cons, List.lookup_cons, List.lookup_cons, List.lookup_cons]
    cases hm : name == m.1
    · rfl
    · cases hn : name == n.1
      · rfl
      · exact absurd ((eq_of_beq hn).symm.trans (eq_of_beq hm)) hne
  | trans hfirst _ ihfirst ihsecond =>
    exact (ihfirst hnames).trans (ihsecond (hfirst.pairwise hnames fun hne => hne.symm))

theorem alike_of_rel {role : Role} {members members' : Members}
    (h : ∀ name inner, role.reads members name = some inner →
      Option.Rel (Alike inner) (Text.entry? name members) (Text.entry? name members')) :
    Alike role (.obj members) (.obj members') := by
  refine .obj (fun name inner hname => isSome_eq_of_rel (h name inner hname)) ?_
  intro name inner v v' hname hv hv'
  have hrel := h name inner hname
  rw [hv, hv'] at hrel
  cases hrel with
  | some halike => exact halike

/-- Objects with some members in common, in any order, are alike if the others are not known. -/
theorem alike_of_common {role : Role} {members members' : Members} (common extra extra' : Members)
    (h : members.Perm (common ++ extra)) (h' : members'.Perm (common ++ extra'))
    (hnames : members.Pairwise fun a b => a.1 ≠ b.1)
    (hnames' : members'.Pairwise fun a b => a.1 ≠ b.1)
    (hextra : ∀ m ∈ extra ++ extra', role.reads members m.1 = none) :
    Alike role (.obj members) (.obj members') := by
  apply alike_of_rel
  intro name inner hreads
  have hunknown : ∀ more : Members, more ⊆ extra ++ extra' → more.lookup name = none := by
    intro more hmore
    rw [List.lookup_eq_none_iff]
    intro m hm
    rw [bne_iff_ne]
    rintro rfl
    rw [hextra m (hmore hm)] at hreads
    cases hreads
  have hentry : Text.entry? name members = Text.entry? name members' := by
    rw [entry?_eq_of_perm h hnames, entry?_eq_of_perm h' hnames', Text.entry?, Text.entry?,
      List.lookup_append, List.lookup_append, hunknown extra (List.subset_append_left _ _),
      hunknown extra' (List.subset_append_right _ _)]
  rw [hentry]
  cases Text.entry? name members' with
  | none => exact .none
  | some v => exact .some (.same inner v)

/-- Objects are alike if the values of their known fields are. -/
theorem alike_of_fields {role : Role} {members members' : Members} {fields : List (Text × Role)}
    (hreads : ∀ name, role.reads members name = fields.lookup name)
    (h : ∀ f ∈ fields,
      Option.Rel (Alike f.2) (Text.entry? f.1 members) (Text.entry? f.1 members')) :
    Alike role (.obj members) (.obj members') := by
  apply alike_of_rel
  intro name inner hname
  rw [hreads] at hname
  obtain ⟨before, after, hfields, -⟩ := List.lookup_eq_some_iff.mp hname
  exact h (name, inner) (by simp [hfields])

theorem alike_singleton {role : Role} {v v' : Json} (h : Alike role.item v v') :
    Alike role (.arr [v]) (.arr [v']) := by
  refine .arr rfl ?_
  intro i hi hi'
  obtain rfl : i = 0 := by simpa using hi
  exact h

/-- Documents that differ only in the order of members and in members by unknown names load as the
same node, so that lowering them gives the same, or both fail to load, and then for the same reason up
to the value that is shown. The same unknown kinds are met on the way. -/
theorem load_eq_of_alike {d d' : Json} (h : Alike .node d d') (setup : Setup) :
    (∀ n, load d = .ok n ↔ load d' = .ok n) ∧
    (∀ e, load d = .error e → ∃ e', load d' = .error e' ∧ e'.outline = e.outline) ∧
    (read d).met = (read d').met ∧
    (load d).toOption.map (lowerDocument setup) = (load d').toOption.map (lowerDocument setup) := by
  have houtline : (read d).outline = (read d').outline := h.readsAlike.2
  simp only [Loading.outline, Loading.mk.injEq] at houtline
  obtain ⟨hmet, hresult⟩ := houtline
  have hload : (load d).mapError LoadError.outline = (load d').mapError LoadError.outline := hresult
  cases hd : load d with
  | ok n =>
    cases hd' : load d' with
    | ok n' =>
      rw [hd, hd'] at hload
      cases hload
      exact ⟨fun _ => Iff.rfl, nofun, hmet, rfl⟩
    | error e' =>
      rw [hd, hd'] at hload
      cases hload
  | error e =>
    cases hd' : load d' with
    | ok n' =>
      rw [hd, hd'] at hload
      cases hload
    | error e' =>
      rw [hd, hd'] at hload
      refine ⟨fun n => ⟨nofun, nofun⟩, ?_, hmet, rfl⟩
      rintro _ ⟨⟩
      exact ⟨e', rfl, (Except.error.inj hload).symm⟩

/-- A tag with an attribute and an attribute block. -/
def shortTag : Json :=
  .obj [("type", .str "Tag"), ("name", .str "a"),
    ("attrs", .arr [.obj [("name", .str "x"), ("val", .str "1")]]),
    ("attributeBlocks", .arr [.obj [("val", .str "b")]])]

/-- The same tag in another order and with members that are not known where they are. -/
def longTag : Json :=
  .obj [("attributeBlocks", .arr [.obj [("type", .str "AttributeBlock"), ("val", .str "b")]]),
    ("isInline", .bool false), ("name", .str "a"),
    ("attrs", .arr [.obj [("val", .str "1"), ("line", .int 1), ("name", .str "x")]]),
    ("type", .str "Tag")]

theorem alike_longTag : Alike .node shortTag longTag := by
  have hattribute : Alike .tagAttribute (.obj [("name", .str "x"), ("val", .str "1")])
      (.obj [("val", .str "1"), ("line", .int 1), ("name", .str "x")]) := by
    refine alike_of_common [("name", .str "x"), ("val", .str "1")] [] [("line", .int 1)] (.refl _)
      (List.perm_append_singleton _ [_, _]) (by decide) (by decide) ?_
    exact List.forall_mem_singleton.mpr rfl
  have hblock : Alike .attributeBlock (.obj [("val", .str "b")])
      (.obj [("type", .str "AttributeBlock"), ("val", .str "b")]) := by
    refine alike_of_common [("val", .str "b")] [] [("type", .str "AttributeBlock")] (.refl _)
      (.swap _ _ []) (by decide) (by decide) ?_
    exact List.forall_mem_singleton.mpr rfl
  refine @alike_of_fields _ _ _ (markFields ++ kindFields .tag) (fun _ => rfl) ?_
  simp only [markFields, kindFields, List.cons_append, List.nil_append, List.forall_mem_cons]
  exact ⟨.some (.same _ _), .none, .none, .none, .some (.same _ _), .some (alike_singleton hattribute),
    .some (alike_singleton hblock), .none, .none, .none, .none, nofun⟩

/-- Both load as the same tag. -/
theorem load_longTag :
    (∃ n, load shortTag = .ok n) ∧ ∀ n, load shortTag = .ok n ↔ load longTag = .ok n :=
  ⟨⟨_, rfl⟩, (load_eq_of_alike alike_longTag ⟨{}, Grammar.reader fun _ _ => {}, {}⟩).1⟩

end Document

end Lowering
