import Lowering.Position

/-!
# Output trees

The result of lowering is a tree of output nodes: JSX elements, fragments, text and expressions,
control flow as ternaries, `map` calls and switches, and module statements. All nodes have the same
shape; the kind says which parts count.

* `Kind.name` is the name of a kind, `Kind.all` the kinds in order;
* `Output.text`, `Output.fragment`, `Output.null` build common nodes;
* `Output.walk` lists the nodes of a forest in pre-order;
* `tally` counts the nodes of each kind in a forest, the nodes below its members included. Kinds that
  do not occur are left out; the others come in the order of their first occurrence.
-/

namespace Lowering

/-- The kinds of output nodes. -/
inductive Kind where
  | element
  | fragment
  | text
  | expression
  | conditional
  | iteration
  | switch
  | switchCase
  | statement
  | null
deriving DecidableEq, Repr

namespace Kind

/-- The name of a kind. -/
def name : Kind → String
  | .element => "JSX_ELEMENT"
  | .fragment => "JSX_FRAGMENT"
  | .text => "JSX_TEXT"
  | .expression => "JSX_EXPRESSION"
  | .conditional => "CONDITIONAL"
  | .iteration => "ITERATION"
  | .switch => "SWITCH"
  | .switchCase => "SWITCH_CASE"
  | .statement => "STATEMENT"
  | .null => "NULL"

/-- All kinds but the first one, `element`, in order. -/
def others : List Kind :=
  [.fragment, .text, .expression, .conditional, .iteration, .switch, .switchCase, .statement, .null]

/-- All kinds in order. -/
def all : List Kind :=
  .element :: others

/-- A kind that may stand among the children of an element as it is. -/
def isMarkup : Kind → Bool
  | .element | .fragment | .text | .expression => true
  | _ => false

end Kind

/-- An attribute of an element: bare, with a string value, or with an expression. -/
structure Attribute where
  name : Text
  value : Option Text := none
  isExpression : Bool := false
deriving DecidableEq, Repr

/-- A node of the output tree. -/
structure Output where
  kind : Kind
  name : Option Text := none
  value : Option Text := none
  attributes : List Attribute := []
  params : List Text := []
  children : List Output := []
  location : Position := {}

namespace Output

/-- A piece of text. -/
def text (value : Text) (location : Position) : Output :=
  { kind := .text, value := some value, location := location }

/-- A fragment around nodes. -/
def fragment (children : List Output) : Output :=
  { kind := .fragment, children := children }

/-- The null literal. -/
def null : Output :=
  { kind := .null }

/-- A statement of the module. -/
def statement (value : Text) (location : Position) : Output :=
  { kind := .statement, value := some value, location := location }

mutual

/-- A node and all nodes below it, in pre-order. -/
def walkNode : Output → List Output
  | ⟨kind, name, value, attributes, params, children, location⟩ =>
    ⟨kind, name, value, attributes, params, children, location⟩ :: walk children

/-- The nodes of a forest in pre-order. -/
def walk : List Output → List Output
  | [] => []
  | node :: rest => walkNode node ++ walk rest

end

theorem walk_append (xs ys : List Output) : walk (xs ++ ys) = walk xs ++ walk ys := by
  induction xs with
  | nil => rfl
  | cons node rest ih => simp [walk, ih]

theorem forall_mem_walk_cons {P : Output → Prop} {node : Output} {rest : List Output} :
    (∀ n ∈ walk (node :: rest), P n) ↔
      P node ∧ (∀ n ∈ walk node.children, P n) ∧ ∀ n ∈ walk rest, P n := by
  obtain ⟨⟩ := node
  simp only [walk, walkNode, List.cons_append, List.forall_mem_cons, List.forall_mem_append]

theorem forall_mem_walk_append {P : Output → Prop} {xs ys : List Output} :
    (∀ n ∈ walk (xs ++ ys), P n) ↔ (∀ n ∈ walk xs, P n) ∧ ∀ n ∈ walk ys, P n := by
  rw [walk_append, List.forall_mem_append]

end Output

/-- Counts one more node of a kind. -/
def bump (kind : Kind) : List (Kind × Nat) → List (Kind × Nat)
  | [] => [(kind, 1)]
  | (k, n) :: rest => if k = kind then (k, n + 1) :: rest else (k, n) :: bump kind rest

/-- The number of nodes of each kind. -/
def tally (forest : List Output) : List (Kind × Nat) :=
  (Output.walk forest).foldl (fun counts node => bump node.kind counts) []

end Lowering
