import Lowering.Record.Integer

/-!
# Fields of a record

The values of record fields are read leniently: an integer may be a boolean, an integral floating
point number or a numeral in a string, and a boolean may be zero, one or one of a few words.
Strings are taken only from strings.

* `Field.string`, `Field.integer`, `Field.boolean`, `Field.listOf`, `Field.oneOf` read a value;
* `required`, `optional`, `withDefault` and `aliased` read a field of an object's members.
-/

namespace Lowering.Field

/-! ## Values -/

/-- A string. -/
def string : Json → Checked Text
  | .str s => .valid s
  | _ => .refuse .notString

/-- A floating point number that is an integer of 64 bits. The least such integer is not taken. -/
def integral : Binary64 → Checked Int
  | .nan => .refuse .notFinite
  | .infinity _ => .refuse .notFinite
  | .finite negative significand exponent =>
    match Binary64.integer? negative significand exponent with
    | none => .refuse .fractional
    | some n => if -Int.pow 2 63 < n ∧ n < Int.pow 2 63 then .valid n else .refuse .integerTooLarge

/-- An integer. -/
def integer : Json → Checked Int
  | .int n => .valid n
  | .bool b => .valid (if b then 1 else 0)
  | .float x => integral x
  | .str s => IntegerText.read s
  | _ => .refuse .notInteger

/-- The words that mean true. -/
def trueWords : List String := ["1", "on", "t", "true", "y", "yes"]

/-- The words that mean false. -/
def falseWords : List String := ["0", "off", "f", "false", "n", "no"]

/-- A truth value by word; ASCII letters count in either case. -/
def word (s : Text) : Checked Bool :=
  match s.chars? with
  | none => .refuse .illFormedString
  | some cs =>
    let lower := String.ofList (cs.map Char.toLower)
    if trueWords.contains lower then .valid true
    else if falseWords.contains lower then .valid false
    else .refuse .badBoolean

/-- A truth value by number: zero or one. -/
def bit (n : Int) : Checked Bool :=
  if n = 0 then .valid false
  else if n = 1 then .valid true
  else .refuse .badBoolean

/-- A boolean. Numbers beyond 64 bits and with a fraction are none at all. -/
def boolean : Json → Checked Bool
  | .bool b => .valid b
  | .int n => if -Int.pow 2 63 ≤ n ∧ n < Int.pow 2 63 then bit n else .refuse .notBoolean
  | .float x =>
    match integral x with
    | .valid n => bit n
    | .invalid _ => .refuse .notBoolean
  | .str s => word s
  | _ => .refuse .notBoolean

/-- An array of values. -/
def listOf {α : Type} (read : Json → Checked α) : Json → Checked (List α)
  | .arr items => Checked.listFrom read 0 items
  | _ => .refuse .notList

/-- One of the named values. -/
def oneOf {α : Type} (first : String × α) (others : List (String × α)) : Json → Checked α
  | .str s =>
    match (first :: others).find? fun entry => entry.1 == s with
    | some entry => .valid entry.2
    | none => .refuse (.notOneOf first.1 (others.map Prod.fst))
  | _ => .refuse (.notOneOf first.1 (others.map Prod.fst))

/-- Reads an object as the record `name`. -/
def recordOf {α : Type} (name : String) (read : Members → Checked α) : Json → Checked α
  | .obj members => read members
  | _ => .refuse (.notRecord name)

/-! ## Fields -/

variable {α : Type}

/-- A field that must be present. -/
def required (name : String) (read : Json → Checked α) (members : Members) : Checked α :=
  match Text.entry? name members with
  | none => (Checked.refuse .missing).under (.field name)
  | some v => (read v).under (.field name)

/-- A field with a value for its absence. -/
def withDefault (name : String) (default : α) (read : Json → Checked α) (members : Members) :
    Checked α :=
  match Text.entry? name members with
  | none => .valid default
  | some v => (read v).under (.field name)

/-- A field that may be absent or null. -/
def optional (name : String) (read : Json → Checked α) (members : Members) : Checked (Option α) :=
  match Text.entry? name members with
  | none => .valid none
  | some .null => .valid none
  | some v => ((read v).map some).under (.field name)

/-- A field with an alias, which counts before its name. -/
def aliased (other name : String) (default : α) (read : Json → Checked α) (members : Members) :
    Checked α :=
  match Text.entry? other members with
  | none => withDefault name default read members
  | some v => (read v).under (.field other)

end Lowering.Field
