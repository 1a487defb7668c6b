import Lowering.Json.Basic

/-!
# Syntax trees

A syntax tree is what the grammar of the script language answers for a source. A node spans octets
of the source and starts in a row. It may be an error, or missing from the source; `hasError`
promises to be set where an error lies below.

* `Syntax.firstError` is the first error or missing node, where subtrees without the promise are
  skipped;
* `Syntax.decode` reads a tree from JSON; every field may be absent.
-/

namespace Lowering

/-- A node of a syntax tree. -/
structure Syntax where
  kind : Text := []
  named : Bool := true
  isError : Bool := false
  isMissing : Bool := false
  hasError : Bool := false
  start : Int := 0
  stop : Int := 0
  row : Int := 0
  children : List Syntax := []

namespace Syntax

/-- A node that is itself an error. -/
def isFaulty (n : Syntax) : Bool :=
  n.isError || n.isMissing

mutual

/-- The first faulty node of a tree. -/
def firstError : Syntax → Option Syntax
  | ⟨kind, named, isError, isMissing, hasError, start, stop, row, children⟩ =>
    if isError || isMissing then
      some ⟨kind, named, isError, isMissing, hasError, start, stop, row, children⟩
    else firstErrorIn children

/-- The first faulty node of several trees; a tree that does not claim to have one is skipped. -/
def firstErrorIn : List Syntax → Option Syntax
  | [] => none
  | n :: rest =>
    if n.hasError || n.isFaulty then
      match firstError n with
      | some found => some found
      | none => firstErrorIn rest
    else firstErrorIn rest

end

/-- A field that holds a text. -/
def textField (name : String) (members : Members) : Text :=
  match Text.entry? name members with
  | some (.str s) => s
  | _ => []

/-- A field that holds a truth value. -/
def flagField (name : String) (default : Bool) (members : Members) : Bool :=
  match Text.entry? name members with
  | some (.bool b) => b
  | _ => default

/-- A field that holds a number. -/
def numberField (name : String) (members : Members) : Int :=
  match Text.entry? name members with
  | some (.int n) => n
  | _ => 0

mutual

/-- Reads a syntax tree. -/
def decode : Json → Syntax
  | .obj members =>
    { kind := textField "type" members
      named := flagField "named" true members
      isError := flagField "error" false members
      isMissing := flagField "missing" false members
      hasError := flagField "has_error" false members
      start := numberField "start" members
      stop := numberField "end" members
      row := numberField "row" members
      children := (Text.entry? "children" (decodeParts members)).getD [] }
  | _ => {}

/-- Reads an array of syntax trees. -/
def decodeList : Json → List Syntax
  | .arr items => decodeItems items
  | _ => []

/-- Reads syntax trees one by one. -/
def decodeItems : List Json → List Syntax
  | [] => []
  | v :: rest => decode v :: decodeItems rest

/-- Reads every member as an array of syntax trees. -/
def decodeParts : Members → List (Text × List Syntax)
  | [] => []
  | (name, v) :: rest => (name, decodeList v) :: decodeParts rest

end

end Syntax

/-- What a grammar answers for a source in a language. -/
abbrev Grammar := Text → Text → Syntax

/-- The grammar that knows the trees of some sources, whatever the language. -/
def Grammar.ofTrees (trees : List (Text × Syntax)) : Grammar :=
  fun _ source => (trees.lookup source).getD {}

end Lowering
