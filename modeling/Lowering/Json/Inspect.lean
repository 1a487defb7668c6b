import Lowering.Json.Writer
import Lowering.Text.Quoted

/-!
# Inspecting JSON values

`Json.inspect` is the form in which messages show a value: constants by their names, numbers in
their shortest form, quoted strings, and elements and members separated by a comma and a space. A
value has no such form if an integer in it is too long to be written, wherever it stands.
-/

namespace Lowering.Json

/-- A floating point number as messages show it. -/
def inspectFloat : Binary64 → String
  | .nan => "nan"
  | .infinity false => "inf"
  | .infinity true => "-inf"
  | .finite negative significand exponent => Binary64.finiteText negative significand exponent

mutual

/-- A value as messages show it. -/
def inspect : Json → String
  | .null => "None"
  | .bool true => "True"
  | .bool false => "False"
  | .int n => toString n
  | .float x => inspectFloat x
  | .str s => Text.quote s
  | .arr items => "[" ++ ", ".intercalate (inspectItems items) ++ "]"
  | .obj members => "\x7b" ++ ", ".intercalate (inspectMembers members) ++ "\x7d"

/-- The elements of an array. -/
def inspectItems : List Json → List String
  | [] => []
  | v :: vs => inspect v :: inspectItems vs

/-- The members of an object. -/
def inspectMembers : Members → List String
  | [] => []
  | (name, v) :: ms => (Text.quote name ++ ": " ++ inspect v) :: inspectMembers ms

end

/-- The first `width` characters of the form that messages show, if the value has one. -/
def inspectWithin? (width : Nat) (v : Json) : Option String :=
  if v.isWritable then some (String.ofList (v.inspect.toList.take width)) else none

end Lowering.Json
