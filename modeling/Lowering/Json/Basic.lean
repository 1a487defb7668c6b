import Lowering.Numeric.Binary64
import Lowering.Text.CodePoint

/-!
# JSON values

A JSON value keeps what a text says: integers apart from floating point numbers, and the members of
an object in their order.

* `Json.member?` looks up a member of an object;
* `Json.put` sets a member: a new one comes last, a present one keeps its place;
* `Json.isTruthy` holds of the values that count as true;
* `Json.typeName` is the type of a value as messages name it.
-/

namespace Lowering

/-- A JSON value. -/
inductive Json where
  | null
  | bool (b : Bool)
  | int (n : Int)
  | float (x : Binary64)
  | str (s : Text)
  | arr (items : List Json)
  | obj (members : List (Text × Json))
deriving Inhabited

/-- The members of an object. -/
abbrev Members := List (Text × Json)

namespace Json

/-- The member of that name, in an object. -/
def member? (name : Text) : Json → Option Json
  | .obj members => members.lookup name
  | _ => none

/-- Sets a member. A name that is present keeps its place and takes the new value. -/
def put (name : Text) (value : Json) : Members → Members
  | [] => [(name, value)]
  | (n, v) :: rest => if n = name then (n, value) :: rest else (n, v) :: put name value rest

/-- Members with each name once: at its first place, with its last value. -/
def settle (members : Members) : Members :=
  members.foldl (fun settled m => put m.1 m.2 settled) []

/-- A value that counts as true: everything but null, false, zero and what is empty. -/
def isTruthy : Json → Bool
  | .null => false
  | .bool b => b
  | .int n => n != 0
  | .float (.finite _ significand _) => significand != 0
  | .float _ => true
  | .str s => !s.isEmpty
  | .arr items => !items.isEmpty
  | .obj members => !members.isEmpty

/-- The name of a value's type in messages. -/
def typeName : Json → String
  | .null => "NoneType"
  | .bool _ => "bool"
  | .int _ => "int"
  | .float _ => "float"
  | .str _ => "str"
  | .arr _ => "list"
  | .obj _ => "dict"

end Json

end Lowering
