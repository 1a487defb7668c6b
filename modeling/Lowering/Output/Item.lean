import Lowering.Output.Inspect
import Lowering.Output.Render
import Lowering.Record.Model

/-!
# Output lists

What a node yields is nothing, one output node, or a list. A list that was fixed in advance may
hold misfits besides nodes: places that are left empty, lists, and parts of nodes. A list can
become the children of a node only if it is without misfits.

* `Item.nodes` are the nodes of a list, `Item.issues` what is wrong with it as a list of children;
* `Item.text` is an element as a line shows it, `Item.encode` an element as JSON;
* `Yield.items` is what a yield adds to the list around it.
-/

namespace Lowering

/-- An element of an output list. -/
inductive Item where
  | node (output : Output)
  | absent
  | list (items : List Item)
  | part (name : String) (value : String)

namespace Item

/-- The node that an element is. -/
def node? : Item → Option Output
  | .node output => some output
  | _ => none

/-- The type of an element as messages name it. -/
def typeName : Item → String
  | .node _ => "OutputNode"
  | .absent => "NoneType"
  | .list _ => "list"
  | .part _ _ => "tuple"

/-- Whether a place is left empty. -/
def isAbsent : Item → Bool
  | .absent => true
  | _ => false

/-- Whether an element is a part of a node. -/
def isPart : Item → Bool
  | .part _ _ => true
  | _ => false

/-- The nodes of a list. -/
def nodes (items : List Item) : List Output :=
  items.filterMap node?

/-- The misfits of a list: all elements that are not nodes. -/
def misfits (items : List Item) : List Item :=
  items.filter fun item => item.node?.isNone

/-- A list without the places that are left empty. -/
def present (items : List Item) : List Item :=
  items.filter fun item => !item.isAbsent

/-- An issue for every misfit in a list of children, the first of which has index `start`. -/
def issuesFrom (start : Nat) : List Item → List Issue
  | [] => []
  | .node _ :: rest => issuesFrom (start + 1) rest
  | _ :: rest =>
    ⟨[.field "children", .index start], .notRecord "OutputNode"⟩ :: issuesFrom (start + 1) rest

/-- An issue for every misfit in a list of children. -/
def issues (items : List Item) : List Issue :=
  issuesFrom 0 items

mutual

/-- An element as it is shown inside something else. -/
def inspect : Item → String
  | .node output => output.inspect
  | .absent => "None"
  | .list items => inspectList (inspectAll items)
  | .part name value => "('" ++ name ++ "', " ++ value ++ ")"

/-- Elements as they are shown inside something else. -/
def inspectAll : List Item → List String
  | [] => []
  | item :: rest => inspect item :: inspectAll rest

end

/-- An element as a line shows it: a node as source, anything else with all it holds. -/
def text : Item → Except RenderError Text
  | .node output => output.render
  | item => .ok (Text.ofString item.inspect)

/-- Elements as lines show them. -/
def texts : List Item → Except RenderError (List Text)
  | [] => .ok []
  | item :: rest => do
    let first ← item.text
    let others ← texts rest
    .ok (first :: others)

mutual

/-- An element as JSON. A part of a node has no such form; then the part is told. -/
def encode : Item → Except Item Json
  | .node output => .ok output.encode
  | .absent => .ok .null
  | .list items => (encodeAll items).map .arr
  | .part name value => .error (.part name value)

/-- Elements as JSON. -/
def encodeAll : List Item → Except Item (List Json)
  | [] => .ok []
  | item :: rest => do
    let first ← encode item
    let others ← encodeAll rest
    .ok (first :: others)

end

@[simp] theorem nodes_map_node (outputs : List Output) : nodes (outputs.map .node) = outputs := by
  induction outputs with
  | nil => rfl
  | cons output rest ih => simpa [nodes, node?] using ih

@[simp] theorem misfits_map_node (outputs : List Output) : misfits (outputs.map .node) = [] := by
  induction outputs with
  | nil => rfl
  | cons output rest ih => simp [misfits, node?]

@[simp] theorem present_map_node (outputs : List Output) :
    present (outputs.map .node) = outputs.map .node := by
  induction outputs with
  | nil => rfl
  | cons output rest ih => simp [present, isAbsent]

theorem issuesFrom_map_node (start : Nat) (outputs : List Output) :
    issuesFrom start (outputs.map .node) = [] := by
  induction outputs generalizing start with
  | nil => rfl
  | cons output rest ih => simp [issuesFrom, ih]

@[simp] theorem issues_map_node (outputs : List Output) : issues (outputs.map .node) = [] :=
  issuesFrom_map_node 0 outputs

/-- Lines of nodes are the nodes as source. -/
@[simp] theorem texts_map_node (outputs : List Output) :
    texts (outputs.map .node) = Output.renderAll outputs := by
  induction outputs with
  | nil => simp [texts, Output.renderAll]
  | cons output rest ih => simp [texts, text, Output.renderAll, ih]

/-- Nodes always have a form as JSON. -/
@[simp] theorem encodeAll_map_node (outputs : List Output) :
    encodeAll (outputs.map .node) = .ok (Output.encodeAll outputs) := by
  induction outputs with
  | nil => simp [encodeAll, Output.encodeAll]
  | cons output rest ih =>
    simp [encodeAll, encode, Output.encodeAll, ih]
    rfl

end Item

/-- What a node yields. -/
inductive Yield where
  | nothing
  | single (output : Output)
  | several (items : List Item)

namespace Yield

/-- A list of nodes. -/
def ofNodes (outputs : List Output) : Yield :=
  .several (outputs.map .node)

/-- At most one node. -/
def ofNode? : Option Output → Yield
  | none => .nothing
  | some output => .single output

/-- At most one list of nodes. -/
def ofNodes? : Option (List Output) → Yield
  | none => .nothing
  | some outputs => ofNodes outputs

/-- What a yield adds to the list around it. One node where a list is expected adds its parts. -/
def items : Yield → List Item
  | .nothing => []
  | .single output => output.parts.map fun p => .part p.1 p.2
  | .several items => items

/-- A yield as the only element of a list; nothing stays nothing. A list where one node is expected
is a misfit. -/
def boxed : Yield → Yield
  | .nothing => .nothing
  | .single output => .several [.node output]
  | .several items => .several [.list items]

/-- A yield as JSON. -/
def encode : Yield → Except Item Json
  | .nothing => .ok .null
  | .single output => .ok output.encode
  | .several items => (Item.encodeAll items).map .arr

@[simp] theorem items_nothing : items .nothing = [] := rfl

@[simp] theorem items_several (items : List Item) : Yield.items (.several items) = items := rfl

@[simp] theorem items_ofNodes (outputs : List Output) :
    (ofNodes outputs).items = outputs.map .node := rfl

@[simp] theorem boxed_single (output : Output) : (single output).boxed = .ofNodes [output] := rfl

end Yield

end Lowering
