import Lowering.Json.Inspect
import Lowering.Record.Field
import Lowering.Template.Node

/-!
# Loading template documents

A document is a JSON value: every node is an object with a string `type` and the fields of its
kind. Loading checks it bottom up. A value that is no node, and a block whose `nodes` cannot be
enumerated, fail at once; every other node is checked when all its children have loaded, and then
all issues of its fields are reported together. A node whose kind is not known is kept with its
mark only.

* `Loading`: a result together with the unknown kinds met on the way, which are noted even when
  loading fails later;
* `Document.read`: loads a JSON value; `Document.load` is its result;
* `Document.loadText`: loads a JSON text;
* `LoadError.message`: the failure in words.
-/

namespace Lowering

/-! ## Failures -/

/-- Why a document does not load. -/
inductive LoadError where
  | unreadable (error : Json.ReadError)
  | notNode (value : Json)
  | notIterable (value : Json)
  | invalid (kind : NodeKind) (issues : List Issue)
  | invalidOther (issues : List Issue)

/-- The number of issues and the record they are in. -/
def issueCount (record : String) (issues : List Issue) : String :=
  toString issues.length ++
    (if issues.length = 1 then " validation error" else " validation errors") ++ " for " ++ record

/-- A failure to load in words. A value that cannot be shown is not told; then the words are about the
number in it that is too long. -/
def LoadError.message : LoadError → String
  | .unreadable (.malformed problem place) =>
    "Template document is not valid JSON: " ++ (Json.ReadError.malformed problem place).message
  | .unreadable (.oversized digits) => (Json.ReadError.oversized digits).message
  | .notNode v =>
    match v.inspectWithin? 80 with
    | some shown => "Not a template node: " ++ shown
    | none => limitExceeded ++ limitAdvice
  | .notIterable v => "'" ++ v.typeName ++ "' object is not iterable"
  | .invalid kind issues =>
    "Invalid " ++ kind.name ++ " node: " ++ issueCount kind.recordName issues
  | .invalidOther issues => issueCount "UnknownNode" issues

/-! ## Results with notes -/

/-- A result of loading, with the unknown kinds met so far. -/
structure Loading (α : Type) where
  met : List Text := []
  result : Except LoadError α

namespace Loading

variable {α β : Type}

instance : Monad Loading where
  pure a := ⟨[], .ok a⟩
  bind x f :=
    match x.result with
    | .error e => ⟨x.met, .error e⟩
    | .ok a =>
      let y := f a
      ⟨x.met ++ y.met, y.result⟩

@[simp] theorem result_pure (a : α) : (pure a : Loading α).result = .ok a := rfl

@[simp] theorem result_bind (x : Loading α) (f : α → Loading β) :
    (x >>= f).result = x.result >>= fun a => (f a).result := by
  obtain ⟨met, result⟩ := x
  cases result <;> rfl

/-- A failure. -/
def fail (e : LoadError) : Loading α :=
  ⟨[], .error e⟩

/-- A node of an unknown kind was met. -/
def note (kind : Text) : Loading Unit :=
  ⟨[kind], .ok ()⟩

/-- A checked value; its issues become a failure. -/
def ofChecked (error : List Issue → LoadError) : Checked α → Loading α
  | .valid a => pure a
  | .invalid issues => fail (error issues)

end Loading

namespace Document

/-! ## Fields of nodes -/

/-- The fields of every node. -/
def mark (members : Members) : Checked Mark :=
  Mark.mk <$> Field.optional "line" Field.integer members
    <*> Field.optional "column" Field.integer members
    <*> Field.optional "filename" Field.string members

/-- A string or a boolean. A value that is neither is reported as both. -/
def attributeValue : Json → Checked AttributeValue
  | .str s => .valid (.source s)
  | v =>
    match Field.boolean v with
    | .valid b => .valid (.flag b)
    | .invalid issues =>
      .invalid
        (((Field.string v).under (.field "str")).issues ++
          ((Checked.invalid issues : Checked Bool).under (.field "bool")).issues)

/-- An attribute of a tag. -/
def tagAttribute (members : Members) : Checked TagAttribute :=
  TagAttribute.mk <$> Field.required "name" Field.string members
    <*> Field.withDefault "val" (.flag true) attributeValue members
    <*> Field.aliased "mustEscape" "must_escape" true Field.boolean members

/-- An attribute block: a string, or an object that has it as `val`. -/
def attributeBlock : Json → Checked Text
  | .obj members => Field.string ((Text.entry? "val" members).getD (.str []))
  | v => Field.string v

/-- The complaint about a field that is no block. -/
def notBlock {α : Type} (name : String) : Checked α :=
  (Checked.refuse (.notRecord NodeKind.block.recordName)).under (.field name)

/-- A loaded child where a block is allowed. -/
def block? (name : String) : Option Node → Checked (Option Block)
  | none => .valid none
  | some (.block b) => .valid (some b)
  | some _ => notBlock name

/-- A loaded child where a block is needed; an absent field is the empty block, null is refused. -/
def block (name : String) (members : Members) : Option Node → Checked Block
  | some (.block b) => .valid b
  | none =>
    match Text.entry? name members with
    | none => .valid .empty
    | some _ => notBlock name
  | some _ => notBlock name

/-- A loaded child where a block or a conditional is allowed. -/
def alternate? (name : String) : Option Node → Checked (Option Alternate)
  | none => .valid none
  | some (.block b) => .valid (some (.block b))
  | some (.conditional c) => .valid (some (.chain c))
  | some _ =>
    .invalid ([NodeKind.block, .conditional].map fun kind =>
      ⟨[.field name, .field kind.recordName], .notRecord kind.recordName⟩)

/-- A block with its loaded nodes. -/
def blockNode (members : Members) (nodes : List Node) : Checked Node :=
  (fun mark => .block (.mk mark nodes)) <$> mark members

/-- A tag with its loaded body. -/
def tagNode (members : Members) (body : Option Node) : Checked Node :=
  (fun mark name attributes attributeBlocks body selfClosing =>
      .tag mark ⟨name, attributes, attributeBlocks, selfClosing⟩ body) <$>
    mark members
    <*> Field.required "name" Field.string members
    <*> Field.withDefault "attrs" []
      (Field.listOf (Field.recordOf "TagAttribute" tagAttribute)) members
    <*> Field.aliased "attributeBlocks" "attribute_blocks" [] (Field.listOf attributeBlock) members
    <*> block? "block" body
    <*> Field.aliased "selfClosing" "self_closing" false Field.boolean members

/-- Code with its loaded body. -/
def codeNode (members : Members) (body : Option Node) : Checked Node :=
  (fun mark value buffer mustEscape isInline body =>
      .code mark ⟨value, buffer, mustEscape, isInline⟩ body) <$>
    mark members
    <*> Field.withDefault "val" [] Field.string members
    <*> Field.withDefault "buffer" false Field.boolean members
    <*> Field.aliased "mustEscape" "must_escape" true Field.boolean members
    <*> Field.aliased "isInline" "is_inline" false Field.boolean members
    <*> block? "block" body

/-- Text. -/
def textNode (members : Members) : Checked Node :=
  Node.text <$> mark members <*> Field.withDefault "val" [] Field.string members

/-- A branch with its loaded body. -/
def branchNode (members : Members) (body : Option Node) : Checked Node :=
  Node.branch <$> mark members
    <*> Field.required "expr" Field.string members
    <*> block? "block" body

/-- A case distinction with its loaded body. -/
def switchNode (members : Members) (body : Option Node) : Checked Node :=
  Node.switch <$> mark members
    <*> Field.required "expr" Field.string members
    <*> block "block" members body

/-- A conditional with its loaded parts. -/
def conditionalNode (members : Members) (consequent alternate : Option Node) :
    Checked Node :=
  (fun mark test consequent alternate => .conditional (.mk mark test consequent alternate)) <$>
    mark members
    <*> Field.required "test" Field.string members
    <*> block "consequent" members consequent
    <*> alternate? "alternate" alternate

/-- An iteration with its loaded parts. -/
def eachNode (members : Members) (body alternate : Option Node) : Checked Node :=
  (fun mark collection element key body alternate =>
      .each mark ⟨collection, element, key⟩ body alternate) <$>
    mark members
    <*> Field.required "obj" Field.string members
    <*> Field.required "val" Field.string members
    <*> Field.optional "key" Field.string members
    <*> block "block" members body
    <*> block? "alternate" alternate

/-- A node of an unknown kind. -/
def otherNode (kind : Text) (members : Members) : Checked Node :=
  (fun mark => .other mark kind) <$> mark members

/-! ## Nodes -/

/-- A member of a node object, loaded in the two ways in which it can be a child: as one node, and
as a list of nodes. -/
structure Part where
  node : Loading Node
  nodes : Loading (List Node)

/-- The child in a field; none if the field is absent or null. -/
def child (name : String) (members : Members) (parts : List (Text × Part)) :
    Loading (Option Node) :=
  match Text.entry? name members, Text.entry? name parts with
  | some .null, _ => pure none
  | some _, some part => some <$> part.node
  | _, _ => pure none

/-- The children of a block; none if the field is absent. -/
def children (parts : List (Text × Part)) : Loading (List Node) :=
  match Text.entry? "nodes" parts with
  | none => pure []
  | some part => part.nodes

/-- The values that a value other than an array enumerates: the code points of a string, the
names of an object's members. None of them is a node, so that the first one fails. -/
def enumerate : Json → Loading (List Node)
  | .str s =>
    match s with
    | [] => pure []
    | p :: _ => .fail (.notNode (.str [p]))
  | .obj members =>
    match members with
    | [] => pure []
    | (name, _) :: _ => .fail (.notNode (.str name))
  | v => .fail (.notIterable v)

/-- A node of a known kind from an object's members and from what these are as children. -/
def assembleKind (kind : NodeKind) (members : Members)
    (parts : List (Text × Part)) : Loading Node :=
  match kind with
  | .block => do
    let nodes ← children parts
    .ofChecked (.invalid kind) (blockNode members nodes)
  | .tag => do
    let body ← child "block" members parts
    .ofChecked (.invalid kind) (tagNode members body)
  | .code => do
    let body ← child "block" members parts
    .ofChecked (.invalid kind) (codeNode members body)
  | .text => .ofChecked (.invalid kind) (textNode members)
  | .branch => do
    let body ← child "block" members parts
    .ofChecked (.invalid kind) (branchNode members body)
  | .switch => do
    let body ← child "block" members parts
    .ofChecked (.invalid kind) (switchNode members body)
  | .conditional => do
    let consequent ← child "consequent" members parts
    let alternate ← child "alternate" members parts
    .ofChecked (.invalid kind) (conditionalNode members consequent alternate)
  | .each => do
    let body ← child "block" members parts
    let alternate ← child "alternate" members parts
    .ofChecked (.invalid kind) (eachNode members body alternate)

/-- A node of an unknown kind, which is noted. -/
def assembleOther (kind : Text) (members : Members) : Loading Node := do
  Loading.note kind
  .ofChecked .invalidOther (otherNode kind members)

/-- A node from an object's members and from what these are as children. -/
def assemble (members : Members) (parts : List (Text × Part)) : Loading Node :=
  match Text.entry? "type" members with
  | some (.str name) =>
    match NodeKind.ofName? name with
    | some kind => assembleKind kind members parts
    | none => assembleOther name members
  | _ => .fail (.notNode (.obj members))

mutual

/-- Loads a JSON value as a node. -/
def read : Json → Loading Node
  | .obj members => assemble members (readParts members)
  | v => .fail (.notNode v)

/-- Loads a JSON value as the nodes of a block. -/
def readNodes : Json → Loading (List Node)
  | .arr items => readAll items
  | v => enumerate v

/-- Loads the elements of an array one after the other. -/
def readAll : List Json → Loading (List Node)
  | [] => pure []
  | v :: rest => do
    let node ← read v
    let nodes ← readAll rest
    pure (node :: nodes)

/-- Loads the members of an object as far as they may be children. -/
def readParts : Members → List (Text × Part)
  | [] => []
  | (name, v) :: rest => (name, ⟨read v, readNodes v⟩) :: readParts rest

end

/-- Loads a JSON value as a document. -/
def load (v : Json) : Except LoadError Node :=
  (read v).result

/-- Reads and loads a JSON text. -/
def readText (text : String) : Loading Node :=
  match Json.parse text with
  | .error e => .fail (.unreadable e)
  | .ok v => read v

/-- Loads a JSON text as a document. -/
def loadText (text : String) : Except LoadError Node :=
  (readText text).result

end Document

end Lowering
