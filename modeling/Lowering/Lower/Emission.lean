import Lowering.Diagnostic
import Lowering.Output.Item
import Lowering.Script.Statement

/-!
# Emissions

Lowering a node yields a value and events, in the order in which they come about: a diagnostic, a
script that was split into statements, statements that were hoisted to the module, or a fault. A
fault ends the run: what comes after the first one does not count.

* `Emission` is a value with its events, and a monad;
* `Emission.settle` cuts an emission at its first fault;
* `Emission.solid` is a list as the children of a node, and a fault if it has misfits.
-/

namespace Lowering

/-- What makes a run impossible to finish. -/
inductive Fault where
  | script (error : ScriptError)
  | noOrigin (row : Int)
  | misplaced (issues : List Issue)
  | noAttribute (owner : String) (name : String)
  | notCallable (typeName : String)
  | notClass
  | noLength
deriving DecidableEq, Repr

/-- A fault in words. -/
def Fault.message : Fault → String
  | .script e => e.message
  | .noOrigin _ => "max() arg is an empty sequence"
  | .misplaced _ => "OutputNode"
  | .noAttribute owner name => "'" ++ owner ++ "' object has no attribute '" ++ name ++ "'"
  | .notCallable typeName => "'" ++ typeName ++ "' object is not callable"
  | .notClass => "issubclass() arg 1 must be a class"
  | .noLength => "object of type 'OutputNode' has no len()"

/-- A misfit where a node is looked at. -/
def Fault.ofMisfit (item : Item) : Fault :=
  .noAttribute item.typeName "kind"

/-- Something that happens while lowering. -/
inductive Event where
  | diagnosed (diagnostic : Diagnostic)
  | parsed (statements : Nat)
  | hoisted (dialect : Text) (statements : List Item)
  | faulted (fault : Fault)

/-- A value and the events on the way to it. -/
structure Emission (α : Type) where
  value : α
  events : List Event := []

namespace Emission

variable {α β : Type}

instance : Monad Emission where
  pure a := ⟨a, []⟩
  bind x f :=
    let y := f x.value
    ⟨y.value, x.events ++ y.events⟩

@[ext] theorem ext {x y : Emission α} (hv : x.value = y.value) (he : x.events = y.events) :
    x = y := by
  cases x
  cases y
  cases hv
  cases he
  rfl

@[simp] theorem value_pure (a : α) : (pure a : Emission α).value = a := rfl

@[simp] theorem events_pure (a : α) : (pure a : Emission α).events = [] := rfl

@[simp] theorem value_bind (x : Emission α) (f : α → Emission β) :
    (x >>= f).value = (f x.value).value := rfl

@[simp] theorem events_bind (x : Emission α) (f : α → Emission β) :
    (x >>= f).events = x.events ++ (f x.value).events := rfl

@[simp] theorem value_map (f : α → β) (x : Emission α) : (f <$> x).value = f x.value := rfl

@[simp] theorem events_map (f : α → β) (x : Emission α) : (f <$> x).events = x.events :=
  List.append_nil x.events

/-- An event. -/
def emit (e : Event) : Emission Unit :=
  ⟨(), [e]⟩

/-- A fault, with a value that does not count. -/
def fault (fault : Fault) (value : α) : Emission α :=
  ⟨value, [.faulted fault]⟩

/-- A list as the children of a node. -/
def solid (items : List Item) : Emission (List Output) :=
  if (Item.misfits items).isEmpty then pure (Item.nodes items)
  else fault (.misplaced (Item.issues items)) (Item.nodes items)

@[simp] theorem solid_map_node (outputs : List Output) :
    solid (outputs.map .node) = pure outputs := by
  simp [solid]

/-- The events up to the first fault, and that fault. -/
def split : List Event → List Event × Option Fault
  | [] => ([], none)
  | .faulted fault :: _ => ([], some fault)
  | e :: rest =>
    let (before, fault) := split rest
    (e :: before, fault)

/-- The events that count, and the value unless a fault ended the run. -/
def settle (x : Emission α) : List Event × Except Fault α :=
  match split x.events with
  | (events, none) => (events, .ok x.value)
  | (events, some fault) => (events, .error fault)

end Emission

/-- The diagnostics among events. -/
def Event.diagnostics (events : List Event) : List Diagnostic :=
  events.filterMap fun
    | .diagnosed d => some d
    | _ => none

/-- The statements that events hoist. -/
def Event.statements (events : List Event) : List Item :=
  events.flatMap fun
    | .hoisted _ statements => statements
    | _ => []

end Lowering
