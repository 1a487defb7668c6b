import Lowering.Lower.Problem

/-!
# Settled emissions

An emission counts up to its first fault. Its events are looked at through three lists: the
diagnostics, the hoisted statements and the faults. Each of the three turns concatenation into
concatenation, so that they can be computed part by part along the recursion of lowering.

* `Emission.settle_of_faults_nil`: without a fault all events count, and the value is the outcome;
* `Emission.settle_of_fault`: otherwise the first fault is the outcome.
-/

namespace Lowering

namespace Event

/-- The faults among events. -/
def faults (events : List Event) : List Fault :=
  events.filterMap fun
    | .faulted fault => some fault
    | _ => none

/-! ## The three lists, part by part -/

@[simp] theorem diagnostics_nil : diagnostics [] = [] := rfl

@[simp] theorem statements_nil : statements [] = [] := rfl

@[simp] theorem faults_nil : faults [] = [] := rfl

@[simp] theorem diagnostics_diagnosed (d : Diagnostic) : diagnostics [.diagnosed d] = [d] := rfl

@[simp] theorem statements_hoisted (dialect : Text) (items : List Item) :
    statements [.hoisted dialect items] = items :=
  List.append_nil items

@[simp] theorem diagnostics_append (xs ys : List Event) :
    diagnostics (xs ++ ys) = diagnostics xs ++ diagnostics ys :=
  List.filterMap_append

/-- Statements are hoisted in the order of the events. -/
@[simp] theorem statements_append (xs ys : List Event) :
    statements (xs ++ ys) = statements xs ++ statements ys :=
  List.flatMap_append

@[simp] theorem faults_append (xs ys : List Event) :
    faults (xs ++ ys) = faults xs ++ faults ys :=
  List.filterMap_append

variable {α : Type}

theorem diagnostics_flatMap (f : α → List Event) (xs : List α) :
    diagnostics (xs.flatMap f) = xs.flatMap fun x => diagnostics (f x) :=
  List.filterMap_flatMap

theorem statements_flatMap (f : α → List Event) (xs : List α) :
    statements (xs.flatMap f) = xs.flatMap fun x => statements (f x) :=
  List.flatMap_assoc

/-- The faults along a list are those of its elements in turn. -/
theorem faults_flatMap (f : α → List Event) (xs : List α) :
    faults (xs.flatMap f) = xs.flatMap fun x => faults (f x) :=
  List.filterMap_flatMap

end Event

/-! ## Rejections -/

@[simp] theorem events_report (problem : Problem) (position : Position) :
    (report problem position).events = [.diagnosed (problem.diagnosticAt position)] := rfl

/-- A rejection is one diagnostic and no other event. -/
@[simp] theorem events_reject {α : Type} (problem : Problem) (position : Position) :
    (reject problem position : Emission (Option α)).events =
      [.diagnosed (problem.diagnosticAt position)] := rfl

@[simp] theorem value_reject {α : Type} (problem : Problem) (position : Position) :
    (reject problem position : Emission (Option α)).value = none := rfl

/-! ## Cutting at the first fault -/

namespace Emission

/-- Without a fault nothing is cut off. -/
theorem split_of_faults_nil {events : List Event} (h : Event.faults events = []) :
    split events = (events, none) := by
  induction events with
  | nil => rfl
  | cons e rest ih =>
    cases e with
    | faulted fault => simp [Event.faults] at h
    | diagnosed _ => simp [split, ih h]
    | parsed _ => simp [split, ih h]
    | hoisted _ _ => simp [split, ih h]

/-- The cut is made at the first fault. -/
theorem split_snd (events : List Event) : (split events).2 = (Event.faults events).head? := by
  induction events with
  | nil => rfl
  | cons e rest ih =>
    cases e with
    | faulted fault => rfl
    | diagnosed _ => exact ih
    | parsed _ => exact ih
    | hoisted _ _ => exact ih

variable {α : Type}

/-- An emission without a fault settles with its value. -/
theorem settle_of_faults_nil {x : Emission α} (h : Event.faults x.events = []) :
    x.settle = (x.events, .ok x.value) := by
  simp [settle, split_of_faults_nil h]

/-- An emission with faults settles with the first of them. -/
theorem settle_of_fault {x : Emission α} {fault : Fault} {rest : List Fault}
    (h : Event.faults x.events = fault :: rest) : x.settle.2 = .error fault := by
  have hs := split_snd x.events
  rw [h, List.head?_cons] at hs
  unfold settle
  split
  · rename_i events hx
    rw [hx] at hs
    cases hs
  · rename_i events other hx
    rw [hx] at hs
    cases hs
    rfl

end Emission

end Lowering
