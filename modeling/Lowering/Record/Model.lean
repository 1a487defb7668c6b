import Lowering.Diagnostic
import Lowering.Json.Inspect
import Lowering.Output.Basic
import Lowering.Record.Field

/-!
# Records of positions, diagnostics and output trees

Positions, diagnostics and output nodes as JSON: `decode` functions check an object and read it,
`encode` functions write one with all its fields.

* `Position.decode`, `Diagnostic.decode`, `Attribute.decode`, `Output.decode`;
* `Position.encode`, `Diagnostic.encode`, `Attribute.encode`, `Output.encode`.
-/

namespace Lowering

/-- A text or null. -/
def Json.ofText? : Option Text → Json
  | none => .null
  | some s => .str s

/-! ## Positions -/

/-- Reads the fields of a position, each of which may be absent. -/
def Position.ofMembers (members : Members) : Checked Position :=
  Position.mk <$> Field.withDefault "line" 0 Field.integer members
    <*> Field.withDefault "column" 0 Field.integer members
    <*> Field.optional "filename" Field.string members

/-- Reads a position. -/
def Position.decode : Json → Checked Position :=
  Field.recordOf "SourcePosition" Position.ofMembers

/-- Writes a position. -/
def Position.encode (p : Position) : Json :=
  .obj [("line", .int p.line), ("column", .int p.column), ("filename", .ofText? p.filename)]

/-! ## Diagnostics -/

/-- Reads a class of problems by its name. -/
def ErrorCode.decode : Json → Checked ErrorCode :=
  Field.oneOf (ErrorCode.unsupportedSyntax.name, .unsupportedSyntax)
    [(ErrorCode.scriptSyntax.name, .scriptSyntax)]

/-- The class of problems that a value names, or what is wrong with the value. -/
def ErrorCode.select (v : Json) : Except String ErrorCode :=
  let found := match v with
    | .str name => ErrorCode.ofName? name
    | _ => none
  match found with
  | some code => .ok code
  | none => .error (v.inspect ++ " is not a valid ErrorCode")

/-- Reads the fields of a diagnostic. -/
def Diagnostic.ofMembers (members : Members) : Checked Diagnostic :=
  Diagnostic.mk <$> Field.required "code" ErrorCode.decode members
    <*> Field.withDefault "reasons" [] (Field.listOf Field.string) members
    <*> Field.withDefault "maybe_bug" false Field.boolean members
    <*> Field.withDefault "is_fatal" false Field.boolean members
    <*> Field.withDefault "position" {} Position.decode members

/-- Reads a diagnostic. -/
def Diagnostic.decode : Json → Checked Diagnostic :=
  Field.recordOf "Diagnostic" Diagnostic.ofMembers

/-- Writes a diagnostic. -/
def Diagnostic.encode (d : Diagnostic) : Json :=
  .obj [("code", .str d.code.name), ("reasons", .arr (d.reasons.map .str)),
    ("maybe_bug", .bool d.maybeBug), ("is_fatal", .bool d.isFatal),
    ("position", d.position.encode)]

/-! ## Output nodes -/

/-- Reads the fields of an attribute. -/
def Attribute.ofMembers (members : Members) : Checked Attribute :=
  Attribute.mk <$> Field.required "name" Field.string members
    <*> Field.optional "value" Field.string members
    <*> Field.withDefault "is_expression" false Field.boolean members

/-- Reads an attribute. -/
def Attribute.decode : Json → Checked Attribute :=
  Field.recordOf "JsxAttribute" Attribute.ofMembers

/-- Writes an attribute. -/
def Attribute.encode (a : Attribute) : Json :=
  .obj [("name", .str a.name), ("value", .ofText? a.value), ("is_expression", .bool a.isExpression)]

/-- Reads a kind by its name. -/
def Kind.decode : Json → Checked Kind :=
  Field.oneOf (Kind.element.name, .element) (Kind.others.map fun kind => (kind.name, kind))

namespace Output

/-- Reads the fields of an output node; its children have been read. -/
def ofMembers (members : Members) (children : Checked (List Output)) :
    Checked Output :=
  Output.mk <$> Field.required "kind" Kind.decode members
    <*> Field.optional "name" Field.string members
    <*> Field.optional "value" Field.string members
    <*> Field.withDefault "attributes" [] (Field.listOf Attribute.decode) members
    <*> Field.withDefault "params" [] (Field.listOf Field.string) members
    <*> children
    <*> Field.withDefault "source_location" {} Position.decode members

/-- The children among the members that have been read as such. -/
def childrenOf (parts : List (Text × Checked (List Output))) : Checked (List Output) :=
  match Text.entry? "children" parts with
  | none => .valid []
  | some children => children.under (.field "children")

mutual

/-- Reads an output node. -/
def decode : Json → Checked Output
  | .obj members => ofMembers members (childrenOf (decodeParts members))
  | _ => .refuse (.notRecord "OutputNode")

/-- Reads an array of output nodes. -/
def decodeList : Json → Checked (List Output)
  | .arr items => decodeItems 0 items
  | _ => .refuse .notList

/-- Reads output nodes, the first of which has index `start`. -/
def decodeItems (start : Nat) : List Json → Checked (List Output)
  | [] => .valid []
  | v :: rest => List.cons <$> (decode v).under (.index start) <*> decodeItems (start + 1) rest

/-- Reads every member as an array of output nodes. -/
def decodeParts : Members → List (Text × Checked (List Output))
  | [] => []
  | (name, v) :: rest => (name, decodeList v) :: decodeParts rest

end

mutual

/-- Writes an output node. -/
def encode : Output → Json
  | ⟨kind, name, value, attributes, params, children, location⟩ =>
    .obj [("kind", .str kind.name), ("name", .ofText? name), ("value", .ofText? value),
      ("attributes", .arr (attributes.map Attribute.encode)), ("params", .arr (params.map .str)),
      ("children", .arr (encodeAll children)), ("source_location", location.encode)]

/-- Writes output nodes. -/
def encodeAll : List Output → List Json
  | [] => []
  | node :: rest => encode node :: encodeAll rest

end

end Output

end Lowering
