import Lowering.Template.Document

/-!
# Loading, document by document

A document is loaded from the inside out: the documents directly in it come first, in order, and its
own fields are checked when all these have loaded. What is wrong with a document by itself can be
told from its own fields and from the kinds of the documents directly in it; loading fails with the
first such failure that it comes to.

* `Document.within`: the documents directly in a document; `Document.order`: all of them, in the
  order in which they are checked;
* `Document.ownFailure?`: what is wrong with a document by itself;
* `Document.failure_load`: loading fails with the first failure in that order, and only then.
-/

namespace Lowering

/-! ## Checks without their values -/

namespace Checked

variable {α β : Type}

/-- The issues that keep a value from being one; none if it is one. -/
def failure? : Checked α → Option (List Issue)
  | .valid _ => none
  | .invalid issues => some issues

/-- The failure of two checks side by side. -/
def both : Option (List Issue) → Option (List Issue) → Option (List Issue)
  | none, second => second
  | some first, none => some first
  | some first, some second => some (first ++ second)

@[simp] theorem failure?_map (f : α → β) (x : Checked α) : (f <$> x).failure? = x.failure? := by
  cases x <;> rfl

@[simp] theorem failure?_seq (f : Checked (α → β)) (x : Checked α) :
    (f <*> x).failure? = both f.failure? x.failure? := by
  cases f <;> cases x <;> rfl

/-- What holds of a checked value if it is one. -/
def Ensures (P : α → Prop) : Checked α → Prop
  | .valid a => P a
  | .invalid _ => True

theorem ensures_map {P : β → Prop} {f : α → β} (h : ∀ a, P (f a)) (x : Checked α) :
    Ensures P (f <$> x) := by
  cases x with
  | valid a => exact h a
  | invalid issues => trivial

theorem ensures_seq {P : β → Prop} {f : Checked (α → β)} (h : Ensures (fun g => ∀ a, P (g a)) f)
    (x : Checked α) : Ensures P (f <*> x) := by
  cases f with
  | invalid issues => cases x <;> trivial
  | valid g =>
    cases x with
    | valid a => exact h a
    | invalid issues => trivial

end Checked

namespace Loading

variable {α β : Type}

theorem result_map (f : α → β) (x : Loading α) : (f <$> x).result = x.result.map f := by
  obtain ⟨met, result⟩ := x
  cases result <;> rfl

/-- What holds of a result if there is one. -/
def Ensures (P : α → Prop) (x : Loading α) : Prop :=
  ∀ a, x.result = .ok a → P a

theorem ensures_bind {P : β → Prop} {f : α → Loading β} (h : ∀ a, Ensures P (f a))
    (x : Loading α) : Ensures P (x >>= f) := by
  intro b hb
  rw [result_bind] at hb
  cases hx : x.result with
  | error e =>
    rw [hx] at hb
    cases hb
  | ok a =>
    rw [hx] at hb
    exact h a b hb

theorem ensures_ofChecked {P : α → Prop} {x : Checked α} (h : x.Ensures P)
    (error : List Issue → LoadError) : Ensures P (ofChecked error x) := by
  intro a ha
  cases x with
  | valid b =>
    cases ha
    exact h
  | invalid issues => cases ha

end Loading

/-- The kind of a node, if it is one that has a meaning. -/
def Node.kind? : Node → Option NodeKind
  | .block _ => some .block
  | .tag _ _ _ => some .tag
  | .code _ _ _ => some .code
  | .text _ _ => some .text
  | .branch _ _ _ => some .branch
  | .switch _ _ _ => some .switch
  | .conditional _ => some .conditional
  | .each _ _ _ _ => some .each
  | .other _ _ => none

namespace Document

/-! ## Documents in documents -/

/-- The name that a document gives as its kind. -/
def typeName? (v : Json) : Option Text :=
  match v.member? "type" with
  | some (.str name) => some name
  | _ => none

/-- The kind of a document, if it is one that has a meaning. -/
def kind? (v : Json) : Option NodeKind :=
  (typeName? v).bind NodeKind.ofName?

/-- The values that a value enumerates: the elements of an array, the code points of a string, the
names of an object's members. -/
def elements? : Json → Option (List Json)
  | .arr items => some items
  | .str s => some (s.map fun p => .str [p])
  | .obj members => some (members.map fun m => .str m.1)
  | _ => none

/-- The fields of a kind that hold one document each. -/
def childFields : NodeKind → List String
  | .block | .text => []
  | .tag | .code | .branch | .switch => ["block"]
  | .conditional => ["consequent", "alternate"]
  | .each => ["block", "alternate"]

/-- The document in a field; null is none. -/
def child? (v : Json) (field : String) : Option Json :=
  match v.member? field with
  | some .null => none
  | found => found

/-- The documents directly in a document, in the order in which they are loaded. -/
def within (v : Json) : List Json :=
  match kind? v with
  | none => []
  | some .block => ((v.member? "nodes").bind elements?).getD []
  | some kind => (childFields kind).filterMap (child? v)

theorem sizeOf_lt_of_member? {v w : Json} {name : Text} (h : v.member? name = some w) :
    sizeOf w < sizeOf v := by
  cases v with
  | obj members =>
    obtain ⟨before, after, hmembers, -⟩ := List.lookup_eq_some_iff.mp h
    have hmem : (name, w) ∈ members := by simp [hmembers]
    have hlt := List.sizeOf_lt_of_mem hmem
    simp only [Prod.mk.sizeOf_spec] at hlt
    simp only [Json.obj.sizeOf_spec]
    omega
  | _ => cases h

theorem sizeOf_singleton_le {p : CodePoint} {s : Text} (h : p ∈ s) : sizeOf [p] ≤ sizeOf s := by
  induction s with
  | nil => cases h
  | cons q rest ih =>
    rcases List.mem_cons.mp h with rfl | h
    · cases rest with
      | nil => exact Nat.le_refl _
      | cons q rest =>
        simp only [List.cons.sizeOf_spec, List.nil.sizeOf_spec]
        omega
    · have := ih h
      simp only [List.cons.sizeOf_spec] at this ⊢
      omega

theorem sizeOf_le_of_mem_elements? {v w : Json} {items : List Json} (h : elements? v = some items)
    (hw : w ∈ items) : sizeOf w ≤ sizeOf v := by
  cases v with
  | arr values =>
    cases h
    have hlt := List.sizeOf_lt_of_mem hw
    simp only [Json.arr.sizeOf_spec]
    omega
  | str s =>
    cases h
    obtain ⟨p, hp, rfl⟩ := List.mem_map.mp hw
    have hle := sizeOf_singleton_le hp
    simp only [Json.str.sizeOf_spec]
    omega
  | obj members =>
    cases h
    obtain ⟨m, hm, rfl⟩ := List.mem_map.mp hw
    have hlt := List.sizeOf_lt_of_mem hm
    obtain ⟨name, value⟩ := m
    simp only [Prod.mk.sizeOf_spec] at hlt
    simp only [Json.obj.sizeOf_spec, Json.str.sizeOf_spec]
    omega
  | _ => cases h

theorem sizeOf_lt_of_mem_within {v w : Json} (h : w ∈ within v) : sizeOf w < sizeOf v := by
  unfold within at h
  split at h
  · cases h
  · cases hn : v.member? "nodes" with
    | none => simp [hn] at h
    | some nodes =>
      cases he : elements? nodes with
      | none => simp [hn, he] at h
      | some items =>
        have hmem : w ∈ items := by simpa [hn, he] using h
        have hle := sizeOf_le_of_mem_elements? he hmem
        have hlt := sizeOf_lt_of_member? hn
        omega
  · obtain ⟨field, -, hchild⟩ := List.mem_filterMap.mp h
    unfold child? at hchild
    split at hchild
    · cases hchild
    · exact sizeOf_lt_of_member? hchild

/-- The documents in a document, in the order in which they are checked: what is inside a document
comes before it. -/
def order (v : Json) : List Json :=
  (within v).attach.flatMap (fun w => order w.1) ++ [v]
termination_by sizeOf v
decreasing_by exact sizeOf_lt_of_mem_within w.2

theorem order_eq (v : Json) : order v = (within v).flatMap order ++ [v] := by
  rw [order, List.flatMap_subtype (g := order) fun _ _ => rfl, List.unattach_attach]

/-! ## Documents by themselves -/

/-- A node of a kind, as far as the checks of the document around it tell kinds apart. -/
def sample : Option NodeKind → Node
  | some .block => .block .empty
  | some .conditional => .conditional (.mk {} [] .empty none)
  | _ => .other {} []

/-- The checks of a node's fields; `first` and `second` are the nodes in those of its fields that
hold documents. -/
def checkFields (kind : NodeKind) (members : Members) (first second : Option Node) :
    Checked Node :=
  match kind with
  | .block => blockNode members []
  | .tag => tagNode members first
  | .code => codeNode members first
  | .text => textNode members
  | .branch => branchNode members first
  | .switch => switchNode members first
  | .conditional => conditionalNode members first second
  | .each => eachNode members first second

/-- A node of the kind of the document in one of the fields that hold documents. -/
def sampleAt (kind : NodeKind) (v : Json) (index : Nat) : Option Node :=
  ((childFields kind)[index]?.bind (child? v)).map fun w => sample (kind? w)

/-- The value in a block's `nodes` if it enumerates nothing. -/
def unenumerable? (v : Json) : Option Json :=
  match kind? v, v.member? "nodes" with
  | some .block, some nodes => if (elements? nodes).isNone then some nodes else none
  | _, _ => none

/-- The members of a value; there are none unless it is an object. -/
def membersOf : Json → Members
  | .obj members => members
  | _ => []

/-- What is wrong with a document by itself. -/
def ownFailure? (v : Json) : Option LoadError :=
  match typeName? v with
  | none => some (.notNode v)
  | some name =>
    match NodeKind.ofName? name with
    | none => (otherNode name (membersOf v)).failure?.map .invalidOther
    | some kind =>
      match unenumerable? v with
      | some nodes => some (.notIterable nodes)
      | none => (checkFields kind (membersOf v) (sampleAt kind v 0) (sampleAt kind v 1)).failure?.map
          (.invalid kind)

/-! ## Kinds of loaded nodes -/

theorem kind_checkFields (kind : NodeKind) (members : Members) (first second : Option Node) :
    Checked.Ensures (fun n => n.kind? = some kind) (checkFields kind members first second) := by
  -- Each kind's fields are put together by one constructor.
  cases kind
  all_goals
    simp only [checkFields, blockNode, tagNode, codeNode, textNode, branchNode, switchNode,
      conditionalNode, eachNode]
    repeat apply Checked.ensures_seq
    apply Checked.ensures_map
    intros
    rfl

theorem kind_assembleKind (kind : NodeKind) (members : Members) (parts : List (Text × Part)) :
    Loading.Ensures (fun n => n.kind? = some kind) (assembleKind kind members parts) := by
  have hcheck : ∀ first second,
      Loading.Ensures (fun n : Node => n.kind? = some kind)
        (.ofChecked (.invalid kind) (checkFields kind members first second)) :=
    fun first second => Loading.ensures_ofChecked (kind_checkFields kind members first second) _
  cases kind with
  | block =>
    apply Loading.ensures_bind
    intro nodes
    apply Loading.ensures_ofChecked
    apply Checked.ensures_map
    intro mark
    rfl
  | text => exact hcheck none none
  | conditional =>
    exact Loading.ensures_bind (fun first => Loading.ensures_bind (fun second =>
      hcheck first second) _) _
  | each =>
    exact Loading.ensures_bind (fun first => Loading.ensures_bind (fun second =>
      hcheck first second) _) _
  | _ => exact Loading.ensures_bind (fun first => hcheck first none) _

theorem kind_assembleOther (name : Text) (members : Members) :
    Loading.Ensures (fun n => n.kind? = none) (assembleOther name members) := by
  apply Loading.ensures_bind
  intro _
  apply Loading.ensures_ofChecked
  apply Checked.ensures_map
  intro mark
  rfl

theorem assemble_eq (members : Members) (parts : List (Text × Part)) :
    assemble members parts =
      match typeName? (.obj members) with
      | none => .fail (.notNode (.obj members))
      | some name =>
        match NodeKind.ofName? name with
        | some kind => assembleKind kind members parts
        | none => assembleOther name members := by
  unfold assemble typeName?
  rw [Json.member?, Text.entry?]
  rcases members.lookup (Text.ofString "type") with _ | v
  · rfl
  · cases v <;> rfl

/-- The kind of a loaded node is that of its document. -/
theorem kind_of_load {v : Json} {n : Node} (h : load v = .ok n) : n.kind? = kind? v := by
  cases v with
  | obj members =>
    rw [load, read, assemble_eq] at h
    cases ht : typeName? (.obj members) with
    | none =>
      rw [ht] at h
      cases h
    | some name =>
      have hkind : kind? (.obj members) = NodeKind.ofName? name := by rw [kind?, ht]; rfl
      rw [hkind]
      cases hk : NodeKind.ofName? name with
      | none =>
        simp only [ht, hk] at h
        exact kind_assembleOther name members n h
      | some kind =>
        simp only [ht, hk] at h
        exact kind_assembleKind kind members _ n h
  | _ => cases h

/-! ## Failures of nested documents -/

/-- The failure of a result. -/
def failureOf {α : Type} : Except LoadError α → Option LoadError
  | .ok _ => none
  | .error e => some e

theorem entry?_readParts (name : Text) (members : Members) :
    Text.entry? name (readParts members) =
      (Text.entry? name members).map fun v => ⟨read v, readNodes v⟩ := by
  induction members with
  | nil => simp [readParts, Text.entry?]
  | cons m rest ih =>
    obtain ⟨other, v⟩ := m
    simp only [Text.entry?, readParts, List.lookup_cons] at ih ⊢
    cases name == other
    · exact ih
    · rfl

theorem failure_ofChecked (error : List Issue → LoadError) (x : Checked Node) :
    failureOf (Loading.ofChecked error x).result = x.failure?.map error := by
  cases x <;> rfl

theorem result_child (field : String) (members : Members) :
    (child field members (readParts members)).result =
      match child? (.obj members) field with
      | none => .ok none
      | some w => (load w).map some := by
  unfold child child?
  rw [entry?_readParts, Json.member?, Text.entry?]
  cases members.lookup (Text.ofString field) with
  | none => rfl
  | some w =>
    have hmap : (some <$> read w).result = (load w).map some := Loading.result_map some (read w)
    cases w with
    | null => rfl
    | _ => exact hmap

/-- A check that tells nodes apart by their kinds only, as far as it fails. -/
theorem failure?_of_kind {α : Type} {check : Option Node → Checked α}
    (h : ∀ n : Node, (check (some n)).failure? = (check (some (sample n.kind?))).failure?)
    (n : Option Node) :
    (check n).failure? = (check (n.map fun n => sample n.kind?)).failure? := by
  cases n with
  | none => rfl
  | some n => exact h n

/-- The checks around a node in a field depend on its kind only. -/
theorem failure?_checkFields (kind : NodeKind) (members : Members) (first second : Option Node) :
    (checkFields kind members first second).failure? =
      (checkFields kind members (first.map fun n => sample n.kind?)
        (second.map fun n => sample n.kind?)).failure? := by
  have hblock? : ∀ (field : String) (n : Option Node),
      (block? field n).failure? = (block? field (n.map fun n => sample n.kind?)).failure? :=
    fun field => failure?_of_kind fun n => by cases n <;> rfl
  have hblock : ∀ (field : String) (n : Option Node), (block field members n).failure? =
      (block field members (n.map fun n => sample n.kind?)).failure? :=
    fun field => failure?_of_kind fun n => by cases n <;> rfl
  have halternate : ∀ (field : String) (n : Option Node), (alternate? field n).failure? =
      (alternate? field (n.map fun n => sample n.kind?)).failure? :=
    fun field => failure?_of_kind fun n => by cases n <;> rfl
  cases kind with
  | block => rfl
  | text => rfl
  | tag => simp only [checkFields, tagNode, Checked.failure?_seq, hblock? "block" first]
  | code => simp only [checkFields, codeNode, Checked.failure?_seq, hblock? "block" first]
  | branch => simp only [checkFields, branchNode, Checked.failure?_seq, hblock? "block" first]
  | switch => simp only [checkFields, switchNode, Checked.failure?_seq, hblock "block" first]
  | conditional =>
    simp only [checkFields, conditionalNode, Checked.failure?_seq, hblock "consequent" first,
      halternate "alternate" second]
  | each =>
    simp only [checkFields, eachNode, Checked.failure?_seq, hblock "block" first,
      hblock? "alternate" second]

/-- Loading the document in a field, and then something that depends on its kind only. -/
theorem failure_child {field : String} {members : Members} {next : Option Node → Loading Node}
    {own : Option LoadError}
    (h : ∀ n : Option Node, n.map Node.kind? = (child? (.obj members) field).map kind? →
      failureOf (next n).result = own) :
    failureOf (child field members (readParts members) >>= next).result =
      ((child? (.obj members) field).toList.findSome? fun w => failureOf (load w)).or own := by
  rw [Loading.result_bind, result_child]
  cases hc : child? (.obj members) field with
  | none => exact h none (by rw [hc]; rfl)
  | some w =>
    cases hl : load w with
    | error e => simp [failureOf, Except.map, hl, bind, Except.bind]
    | ok n =>
      have hn : failureOf (next (some n)).result = own :=
        h (some n) (by rw [hc, Option.map_some, Option.map_some, kind_of_load hl])
      simpa [failureOf, Except.map, hl, bind, Except.bind] using hn

theorem failure_checkFields {kind : NodeKind} {v : Json} (members : Members)
    {first second : Option Node}
    (hfirst : first.map Node.kind? = ((childFields kind)[0]?.bind (child? v)).map kind?)
    (hsecond : second.map Node.kind? = ((childFields kind)[1]?.bind (child? v)).map kind?) :
    failureOf (Loading.ofChecked (.invalid kind) (checkFields kind members first second)).result =
      (checkFields kind members (sampleAt kind v 0) (sampleAt kind v 1)).failure?.map
        (.invalid kind) := by
  have hsample : ∀ {n : Option Node} {w : Option Json}, n.map Node.kind? = w.map kind? →
      (n.map fun n => sample n.kind?) = w.map fun w => sample (kind? w) := by
    intro n w h
    have := congrArg (Option.map sample) h
    rwa [Option.map_map, Option.map_map] at this
  rw [failure_ofChecked, failure?_checkFields, hsample hfirst, hsample hsecond]
  rfl

theorem failure_oneChild {kind : NodeKind} {field : String} (members : Members)
    (hfields : childFields kind = [field]) :
    failureOf (child field members (readParts members) >>= fun first =>
        Loading.ofChecked (.invalid kind) (checkFields kind members first none)).result =
      (((childFields kind).filterMap (child? (.obj members))).findSome? fun w =>
        failureOf (load w)).or ((checkFields kind members (sampleAt kind (.obj members) 0)
          (sampleAt kind (.obj members) 1)).failure?.map (.invalid kind)) := by
  have hdocuments : (childFields kind).filterMap (child? (.obj members)) =
      (child? (.obj members) field).toList := by
    rw [hfields]
    cases h : child? (.obj members) field <;> simp [h]
  rw [hdocuments]
  apply failure_child
  intro first hfirst
  apply failure_checkFields
  · rw [hfields]
    exact hfirst
  · rw [hfields]
    rfl

theorem failure_twoChildren {kind : NodeKind} {field other : String} (members : Members)
    (hfields : childFields kind = [field, other]) :
    failureOf (child field members (readParts members) >>= fun first =>
        child other members (readParts members) >>= fun second =>
          Loading.ofChecked (.invalid kind) (checkFields kind members first second)).result =
      (((childFields kind).filterMap (child? (.obj members))).findSome? fun w =>
        failureOf (load w)).or ((checkFields kind members (sampleAt kind (.obj members) 0)
          (sampleAt kind (.obj members) 1)).failure?.map (.invalid kind)) := by
  have hdocuments : (childFields kind).filterMap (child? (.obj members)) =
      (child? (.obj members) field).toList ++ (child? (.obj members) other).toList := by
    rw [hfields]
    cases h : child? (.obj members) field <;> cases h' : child? (.obj members) other <;>
      simp [h, h']
  rw [hdocuments, List.findSome?_append, Option.or_assoc]
  -- For the first child, loading the second one is part of what comes after it.
  apply failure_child
  intro first hfirst
  apply failure_child
  intro second hsecond
  apply failure_checkFields
  · rw [hfields]
    exact hfirst
  · rw [hfields]
    exact hsecond

theorem failure_bind {α β : Type} {f : α → Except LoadError β} {own : Option LoadError}
    (h : ∀ a, failureOf (f a) = own) (x : Except LoadError α) :
    failureOf (x >>= f) = (failureOf x).or own := by
  cases x with
  | error e => rfl
  | ok a => exact h a

theorem failure_readAll (items : List Json) :
    failureOf (readAll items).result = items.findSome? fun w => failureOf (load w) := by
  induction items with
  | nil => simp [readAll, failureOf]
  | cons w rest ih =>
    have hrest : ∀ node : Node, failureOf (readAll rest >>= fun nodes =>
        pure (node :: nodes)).result = rest.findSome? fun w => failureOf (load w) := by
      intro node
      have hnone : ∀ nodes : List Node,
          failureOf (pure (node :: nodes) : Loading (List Node)).result = none := fun _ => rfl
      rw [Loading.result_bind, failure_bind hnone, Option.or_none, ih]
    rw [readAll, Loading.result_bind, failure_bind hrest, List.findSome?_cons, ← load]
    cases failureOf (load w) <;> rfl

/-- Loading a value as the nodes of a block loads what it enumerates. -/
theorem failure_readNodes (v : Json) :
    failureOf (readNodes v).result =
      match elements? v with
      | none => some (.notIterable v)
      | some items => items.findSome? fun w => failureOf (load w) := by
  cases v with
  | arr items =>
    rw [readNodes]
    exact failure_readAll items
  | str s =>
    simp only [readNodes, elements?]
    cases s <;> rfl
  | obj members =>
    simp only [readNodes, elements?]
    cases members <;> rfl
  | _ =>
    simp only [readNodes, elements?]
    rfl

theorem failure_block (members : Members) (hkind : kind? (.obj members) = some .block) :
    failureOf (assembleKind .block members (readParts members)).result =
      ((within (.obj members)).findSome? fun w => failureOf (load w)).or
        (match unenumerable? (.obj members) with
        | some nodes => some (.notIterable nodes)
        | none => (blockNode members []).failure?.map (.invalid .block)) := by
  have hown : ∀ nodes : List Node,
      failureOf (Loading.ofChecked (.invalid .block) (blockNode members nodes)).result =
        (blockNode members []).failure?.map (.invalid .block) := by
    intro nodes
    rw [failure_ofChecked]
    simp only [blockNode, Checked.failure?_map]
  have hbind : failureOf (assembleKind .block members (readParts members)).result =
      (failureOf (children (readParts members)).result).or
        ((blockNode members []).failure?.map (.invalid .block)) := by
    rw [assembleKind, Loading.result_bind, failure_bind hown]
  have hmember : ∀ nodes, members.lookup (Text.ofString "nodes") = nodes →
      (Json.obj members).member? "nodes" = nodes := fun _ h => h
  -- Without a list to load there is no block to check.
  rw [hbind, children, entry?_readParts, Text.entry?]
  simp only [within, unenumerable?, hkind]
  cases hn : members.lookup (Text.ofString "nodes") with
  | none =>
    rw [hmember none hn]
    rfl
  | some nodes =>
    rw [hmember _ hn, Option.map_some]
    simp only [failure_readNodes, Option.bind_some]
    cases elements? nodes <;> simp

theorem within_of_ne_block {v : Json} {kind : NodeKind} (h : kind? v = some kind)
    (hb : kind ≠ .block) : within v = (childFields kind).filterMap (child? v) := by
  rw [within, h]
  cases kind with
  | block => exact absurd rfl hb
  | _ => rfl

theorem unenumerable?_of_ne_block {v : Json} {kind : NodeKind} (h : kind? v = some kind)
    (hb : kind ≠ .block) : unenumerable? v = none := by
  rw [unenumerable?, h]
  cases kind with
  | block => exact absurd rfl hb
  | _ => rfl

theorem failure_assembleKind {kind : NodeKind} {members : Members}
    (hkind : kind? (.obj members) = some kind) :
    failureOf (assembleKind kind members (readParts members)).result =
      ((within (.obj members)).findSome? fun w => failureOf (load w)).or
        (match unenumerable? (.obj members) with
        | some nodes => some (.notIterable nodes)
        | none => (checkFields kind members (sampleAt kind (.obj members) 0)
            (sampleAt kind (.obj members) 1)).failure?.map (.invalid kind)) := by
  by_cases hb : kind = .block
  · subst hb
    exact failure_block members hkind
  · rw [within_of_ne_block hkind hb, unenumerable?_of_ne_block hkind hb]
    cases kind with
    | block => exact absurd rfl hb
    | text => exact failure_ofChecked _ _
    | conditional => exact failure_twoChildren members rfl
    | each => exact failure_twoChildren members rfl
    | _ => exact failure_oneChild members rfl

/-- Loading fails with the failure of the first document in it that does not load, or else with what
is wrong with it by itself. -/
theorem failure_step (v : Json) :
    failureOf (load v) =
      ((within v).findSome? fun w => failureOf (load w)).or (ownFailure? v) := by
  cases v with
  | obj members =>
    rw [load, read, assemble_eq, ownFailure?]
    cases ht : typeName? (.obj members) with
    | none =>
      have hkind : kind? (.obj members) = none := by rw [kind?, ht]; rfl
      simp only [within, hkind]
      rfl
    | some name =>
      cases hk : NodeKind.ofName? name with
      | none =>
        have hkind : kind? (.obj members) = none := by rw [kind?, ht]; exact hk
        simp only [within, hkind, hk]
        exact failure_ofChecked _ _
      | some kind =>
        have hkind : kind? (.obj members) = some kind := by rw [kind?, ht]; exact hk
        simp only [hk]
        exact failure_assembleKind hkind
  | _ => rfl

/-- A property holds of every document if it passes from the documents directly in a document to that
document. -/
theorem induct {motive : Json → Prop}
    (step : ∀ v, (∀ w ∈ within v, motive w) → motive v) (v : Json) : motive v :=
  step v fun w hw =>
    have : sizeOf w < sizeOf v := sizeOf_lt_of_mem_within hw
    induct step w
termination_by sizeOf v

theorem findSome?_flatMap {α β γ : Type} {f : α → List β} {g : β → Option γ} {h : α → Option γ}
    {xs : List α} (hxs : ∀ x ∈ xs, h x = (f x).findSome? g) :
    xs.findSome? h = (xs.flatMap f).findSome? g := by
  induction xs with
  | nil => rfl
  | cons x rest ih =>
    rw [List.forall_mem_cons] at hxs
    rw [List.flatMap_cons, List.findSome?_append, ← ih hxs.2, ← hxs.1, List.findSome?_cons]
    cases h x <;> rfl

/-- Loading fails with the first failure in the order of the checks. -/
theorem failure_load (v : Json) : failureOf (load v) = (order v).findSome? ownFailure? := by
  induction v using induct with
  | step v ih =>
    rw [failure_step, order_eq, List.findSome?_append, findSome?_flatMap ih]
    simp

end Document

end Lowering
