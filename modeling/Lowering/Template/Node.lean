import Lowering.Position

/-!
# Template documents

A template document is a tree of nodes. Every node has a mark with its position; a block is a list
of nodes. The places that hold only a block, or a block or a further conditional, have types of
their own, so that every tree of these types can be lowered.

* `NodeKind`: the kinds of nodes that have a meaning, with their names;
* `Node`: a block, a tag, embedded code, text, a branch, a case distinction, a conditional, an
  iteration, or a node of any other kind;
* `Node.kind`: the name of a node's kind; `Node.mark`, `Node.position`: where it stands;
* `Node.body?`, `Node.subject?`: parts of the kinds that have them.
-/

namespace Lowering

/-- The kinds of nodes that have a meaning. -/
inductive NodeKind where
  | block
  | tag
  | code
  | text
  | branch
  | switch
  | conditional
  | each
deriving DecidableEq, Repr

namespace NodeKind

/-- The name of a kind in documents. -/
def name : NodeKind → String
  | .block => "Block"
  | .tag => "Tag"
  | .code => "Code"
  | .text => "Text"
  | .branch => "When"
  | .switch => "Case"
  | .conditional => "Conditional"
  | .each => "Each"

/-- All kinds. -/
def all : List NodeKind :=
  [.block, .tag, .code, .text, .branch, .switch, .conditional, .each]

/-- The kind of that name. -/
def ofName? (name : Text) : Option NodeKind :=
  all.find? fun kind => kind.name == name

/-- The name of the record that a node of the kind is. -/
def recordName (kind : NodeKind) : String :=
  kind.name ++ "Node"

end NodeKind

/-- The value of a tag attribute: source text, or a truth value. -/
inductive AttributeValue where
  | source (s : Text)
  | flag (b : Bool)
deriving DecidableEq, Repr

/-- An attribute of a tag. -/
structure TagAttribute where
  name : Text
  value : AttributeValue := .flag true
  mustEscape : Bool := true
deriving DecidableEq, Repr

/-- A tag without its contents. -/
structure Tag where
  name : Text
  attributes : List TagAttribute := []
  attributeBlocks : List Text := []
  selfClosing : Bool := false
deriving DecidableEq, Repr

/-- Embedded code without its contents. Buffered code yields a value. -/
structure Code where
  value : Text := []
  buffer : Bool := false
  mustEscape : Bool := true
  isInline : Bool := false
deriving DecidableEq, Repr

/-- The head of an iteration: the collection, the name of its element and possibly of its key. -/
structure Loop where
  collection : Text
  element : Text
  key : Option Text := none
deriving DecidableEq, Repr

mutual

/-- A node of a template document. -/
inductive Node where
  | block (block : Block)
  | tag (mark : Mark) (tag : Tag) (body : Option Block)
  | code (mark : Mark) (code : Code) (body : Option Block)
  | text (mark : Mark) (value : Text)
  | branch (mark : Mark) (test : Text) (body : Option Block)
  | switch (mark : Mark) (subject : Text) (body : Block)
  | conditional (chain : Conditional)
  | each (mark : Mark) (loop : Loop) (body : Block) (alternate : Option Block)
  | other (mark : Mark) (kind : Text)

/-- A list of nodes. -/
inductive Block where
  | mk (mark : Mark) (nodes : List Node)

/-- A test with the block to take when it holds, and possibly something else to take. -/
inductive Conditional where
  | mk (mark : Mark) (test : Text) (consequent : Block) (alternate : Option Alternate)

/-- What a conditional takes when its test fails. -/
inductive Alternate where
  | block (block : Block)
  | chain (chain : Conditional)

end

/-- The mark of a block. -/
def Block.mark : Block → Mark
  | .mk mark _ => mark

/-- The nodes of a block. -/
def Block.nodes : Block → List Node
  | .mk _ nodes => nodes

/-- A block without nodes and without a position. -/
def Block.empty : Block :=
  .mk {} []

/-- The mark of a conditional. -/
def Conditional.mark : Conditional → Mark
  | .mk mark _ _ _ => mark

namespace Node

/-- The mark of a node. -/
def mark : Node → Mark
  | .block b => b.mark
  | .tag mark _ _ => mark
  | .code mark _ _ => mark
  | .text mark _ => mark
  | .branch mark _ _ => mark
  | .switch mark _ _ => mark
  | .conditional c => c.mark
  | .each mark _ _ _ => mark
  | .other mark _ => mark

/-- The position of a node. -/
def position (n : Node) : Position :=
  n.mark.position

/-- The name of a node's kind. -/
def kind : Node → Text
  | .block _ => NodeKind.block.name
  | .tag _ _ _ => NodeKind.tag.name
  | .code _ _ _ => NodeKind.code.name
  | .text _ _ => NodeKind.text.name
  | .branch _ _ _ => NodeKind.branch.name
  | .switch _ _ _ => NodeKind.switch.name
  | .conditional _ => NodeKind.conditional.name
  | .each _ _ _ _ => NodeKind.each.name
  | .other _ kind => kind

/-- The name of the record that a node is. -/
def recordName : Node → String
  | .block _ => NodeKind.block.recordName
  | .tag _ _ _ => NodeKind.tag.recordName
  | .code _ _ _ => NodeKind.code.recordName
  | .text _ _ => NodeKind.text.recordName
  | .branch _ _ _ => NodeKind.branch.recordName
  | .switch _ _ _ => NodeKind.switch.recordName
  | .conditional _ => NodeKind.conditional.recordName
  | .each _ _ _ _ => NodeKind.each.recordName
  | .other _ _ => "UnknownNode"

/-- The body of a node, for the kinds that have one: none of it, or a block. -/
def body? : Node → Option (Option Block)
  | .tag _ _ body | .code _ _ body | .branch _ _ body => some body
  | .switch _ _ body | .each _ _ body _ => some (some body)
  | _ => none

/-- What a branch or a case distinction compares. -/
def subject? : Node → Option Text
  | .branch _ test _ => some test
  | .switch _ subject _ => some subject
  | _ => none

end Node

end Lowering
