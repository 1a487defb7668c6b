/-!
# Issues in a record

When a JSON object is read as a record, everything that is wrong with its fields is collected. An
`Issue` is a complaint and the path to the value it is about.

`Checked` is a value or the issues that keep it from being one. Checks side by side are combined
with `<*>`: the issues of both are kept, in order.
-/

namespace Lowering

/-- A step of a path into a record: a field or an array index. -/
inductive Step where
  | field (name : String)
  | index (i : Nat)
deriving DecidableEq, Repr

/-- What is wrong with a value. -/
inductive Complaint where
  | missing
  | notString
  | illFormedString
  | notInteger
  | badInteger
  | fractional
  | integerTooLarge
  | notFinite
  | badBoolean
  | notBoolean
  | notList
  | notRecord (name : String)
  | notOneOf (first : String) (others : List String)
deriving DecidableEq, Repr

namespace Complaint

/-- The name of a complaint. -/
def code : Complaint → String
  | .missing => "missing"
  | .notString => "string_type"
  | .illFormedString => "string_unicode"
  | .notInteger => "int_type"
  | .badInteger => "int_parsing"
  | .fractional => "int_from_float"
  | .integerTooLarge => "int_parsing_size"
  | .notFinite => "finite_number"
  | .badBoolean => "bool_parsing"
  | .notBoolean => "bool_type"
  | .notList => "list_type"
  | .notRecord _ => "model_type"
  | .notOneOf _ _ => "enum"

/-- The alternatives after the first one: commas between them, and a last `or`. -/
def alternatives : List String → String
  | [] => ""
  | [s] => " or '" ++ s ++ "'"
  | s :: t :: rest => ", '" ++ s ++ "'" ++ alternatives (t :: rest)

/-- A complaint in words. -/
def message : Complaint → String
  | .missing => "Field required"
  | .notString => "Input should be a valid string"
  | .illFormedString =>
    "Input should be a valid string, unable to parse raw data as a unicode string"
  | .notInteger => "Input should be a valid integer"
  | .badInteger => "Input should be a valid integer, unable to parse string as an integer"
  | .fractional => "Input should be a valid integer, got a number with a fractional part"
  | .integerTooLarge => "Unable to parse input string as an integer, exceeded maximum size"
  | .notFinite => "Input should be a finite number"
  | .badBoolean => "Input should be a valid boolean, unable to interpret input"
  | .notBoolean => "Input should be a valid boolean"
  | .notList => "Input should be a valid list"
  | .notRecord name => "Input should be a valid dictionary or instance of " ++ name
  | .notOneOf first others => "Input should be '" ++ first ++ "'" ++ alternatives others

end Complaint

/-- A complaint about the value at the end of a path. -/
structure Issue where
  path : List Step
  complaint : Complaint
deriving DecidableEq, Repr

/-- A value, or the issues that keep it from being one. -/
inductive Checked (α : Type) where
  | valid (value : α)
  | invalid (issues : List Issue)
deriving Repr

namespace Checked

variable {α β : Type}

/-- Applies a function to a checked value. -/
def map (f : α → β) : Checked α → Checked β
  | .valid a => .valid (f a)
  | .invalid issues => .invalid issues

/-- Checks side by side: the issues of both are kept, in order. -/
def apply (f : Checked (α → β)) (x : Checked α) : Checked β :=
  match f, x with
  | .valid f, .valid a => .valid (f a)
  | .valid _, .invalid issues => .invalid issues
  | .invalid issues, .valid _ => .invalid issues
  | .invalid first, .invalid second => .invalid (first ++ second)

instance : Applicative Checked where
  pure := .valid
  map := map
  seq f x := apply f (x ())

@[simp] theorem map_valid (f : α → β) (a : α) : f <$> (Checked.valid a) = .valid (f a) := rfl

@[simp] theorem map_invalid (f : α → β) (issues : List Issue) :
    f <$> (Checked.invalid issues : Checked α) = .invalid issues := rfl

@[simp] theorem seq_valid (f : α → β) (a : α) :
    Checked.valid f <*> Checked.valid a = .valid (f a) := rfl

@[simp] theorem seq_valid_invalid (f : α → β) (issues : List Issue) :
    Checked.valid f <*> (Checked.invalid issues : Checked α) = .invalid issues := rfl

@[simp] theorem seq_invalid_valid (issues : List Issue) (a : α) :
    (Checked.invalid issues : Checked (α → β)) <*> Checked.valid a = .invalid issues := rfl

@[simp] theorem seq_invalid (first second : List Issue) :
    (Checked.invalid first : Checked (α → β)) <*> (Checked.invalid second : Checked α) =
      .invalid (first ++ second) := rfl

/-- A single complaint about the value itself. -/
def refuse (complaint : Complaint) : Checked α :=
  .invalid [⟨[], complaint⟩]

/-- Puts a step in front of the paths of all issues. -/
def under (step : Step) : Checked α → Checked α
  | .valid a => .valid a
  | .invalid issues => .invalid (issues.map fun i => { i with path := step :: i.path })

/-- The issues; none for a valid value. -/
def issues : Checked α → List Issue
  | .valid _ => []
  | .invalid issues => issues

/-- Checks the elements of a list, the first of which has index `start`. -/
def listFrom (check : α → Checked β) (start : Nat) : List α → Checked (List β)
  | [] => .valid []
  | a :: rest => List.cons <$> (check a).under (.index start) <*> listFrom check (start + 1) rest

/-- The checked value as an `Except`. -/
def toExcept : Checked α → Except (List Issue) α
  | .valid a => .ok a
  | .invalid issues => .error issues

end Checked

end Lowering
