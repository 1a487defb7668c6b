import Lowering.Proofs.Reloading
import Lowering.Proofs.Written
import Lowering.Report

/-!
# Records are restored

Positions, diagnostics, output trees and results are read back from the records that they are written
as. The record of a result without surrogates is one that a written text restores.

* `Report.decode_encode`: a result is read back from its record;
* `Output.AreClean`, `Report.IsClean`: no text of a value holds a surrogate;
* `Report.isExact_encode`: such results have records that reading restores.
-/

namespace Lowering

/-! ## Reading what was written -/

theorem Position.decode_encode (p : Position) : Position.decode p.encode = .valid p := by
  obtain ⟨line, column, filename⟩ := p
  cases filename <;>
    simp [decode, encode, ofMembers, Field.recordOf, Field.withDefault, Field.optional,
      Field.integer, Field.string, Text.entry?, List.lookup_cons, Text.ofString_beq, Checked.under,
      Checked.map, Json.ofText?]

theorem ErrorCode.decode_name (code : ErrorCode) :
    ErrorCode.decode (.str code.name) = .valid code := by
  cases code <;> rfl

theorem Kind.decode_name (kind : Kind) : Kind.decode (.str kind.name) = .valid kind := by
  cases kind <;> rfl

theorem Field.listOf_string (texts : List Text) :
    Field.listOf Field.string (.arr (texts.map .str)) = .valid texts := by
  have hstring : ∀ t : Text, Field.string (.str t) = .valid t := fun _ => rfl
  exact Document.listFrom_map hstring 0 texts

theorem Diagnostic.decode_encode (d : Diagnostic) : Diagnostic.decode d.encode = .valid d := by
  simp [decode, encode, ofMembers, Field.recordOf, Field.required, Field.withDefault,
    Field.boolean, Text.entry?, List.lookup_cons, Text.ofString_beq, Checked.under,
    ErrorCode.decode_name, Field.listOf_string, Position.decode_encode]

theorem Attribute.decode_encode (a : Attribute) : Attribute.decode a.encode = .valid a := by
  obtain ⟨name, value, isExpression⟩ := a
  cases value <;>
    simp [decode, encode, ofMembers, Field.recordOf, Field.required, Field.withDefault,
      Field.optional, Field.string, Field.boolean, Text.entry?, List.lookup_cons,
      Text.ofString_beq, Checked.under, Checked.map, Json.ofText?]

namespace Output

mutual

/-- An output tree is read back from its record. -/
theorem decode_encode : (node : Output) → decode node.encode = .valid node
  | ⟨kind, name, value, attributes, params, children, location⟩ => by
    have hattributes : Field.listOf Attribute.decode (.arr (attributes.map Attribute.encode)) =
        .valid attributes := Document.listFrom_map Attribute.decode_encode 0 attributes
    have hchildren := decodeItems_encodeAll 0 children
    cases name <;> cases value <;>
      simp [encode, decode, ofMembers, childrenOf, decodeParts, decodeList, hchildren,
        Field.required, Field.optional, Field.withDefault, Field.string, Text.entry?,
        List.lookup_cons, Text.ofString_beq, Checked.under, Checked.map, Json.ofText?,
        Kind.decode_name, hattributes, Field.listOf_string, Position.decode_encode]

theorem decodeItems_encodeAll (start : Nat) :
    (nodes : List Output) → decodeItems start (encodeAll nodes) = .valid nodes
  | [] => rfl
  | node :: rest => by
    rw [encodeAll, decodeItems, decode_encode node, decodeItems_encodeAll (start + 1) rest]
    rfl

end

end Output

/-- A result is read back from its record. -/
theorem Report.decode_encode (r : Report) : Report.decode r.encode = .valid r := by
  have hstatements := Output.decodeItems_encodeAll 0 r.statements
  have hrender := Output.decodeItems_encodeAll 0 r.render
  have hdiagnostics : Field.listOf Diagnostic.decode (.arr (r.diagnostics.map Diagnostic.encode)) =
      .valid r.diagnostics := Document.listFrom_map Diagnostic.decode_encode 0 r.diagnostics
  simp [decode, encode, Field.recordOf, Field.required, Text.entry?, List.lookup_cons,
    Text.ofString_beq, Checked.under, Output.decodeList, hstatements, hrender, hdiagnostics]

/-! ## Results without surrogates -/

/-- A position whose file name holds no surrogate. -/
def Position.IsClean (p : Position) : Prop :=
  ∀ name ∈ p.filename, name.IsClean

/-- An attribute whose texts hold no surrogate. -/
def Attribute.IsClean (a : Attribute) : Prop :=
  a.name.IsClean ∧ ∀ value ∈ a.value, value.IsClean

/-- A diagnostic whose texts hold no surrogate. -/
def Diagnostic.IsClean (d : Diagnostic) : Prop :=
  (∀ reason ∈ d.reasons, reason.IsClean) ∧ d.position.IsClean

/-- A node whose own texts hold no surrogate. -/
structure Output.OwnClean (node : Output) : Prop where
  name : ∀ name ∈ node.name, name.IsClean
  value : ∀ value ∈ node.value, value.IsClean
  attributes : ∀ a ∈ node.attributes, a.IsClean
  params : ∀ param ∈ node.params, param.IsClean
  location : node.location.IsClean

/-- Nodes none of whose texts, at any depth, hold a surrogate. -/
def Output.AreClean (nodes : List Output) : Prop :=
  ∀ node ∈ walk nodes, node.OwnClean

/-- A result without surrogates. -/
structure Report.IsClean (r : Report) : Prop where
  statements : Output.AreClean r.statements
  render : Output.AreClean r.render
  diagnostics : ∀ d ∈ r.diagnostics, d.IsClean

/-! ## Exact records -/

namespace Json

theorem areExact_iff {items : List Json} : AreExact items ↔ ∀ v ∈ items, v.IsExact := by
  induction items with
  | nil => simp [AreExact]
  | cons v vs ih => rw [AreExact, ih, List.forall_mem_cons]

theorem areExact_map {α : Type} {f : α → Json} {xs : List α} (h : ∀ x ∈ xs, (f x).IsExact) :
    AreExact (xs.map f) := by
  rw [areExact_iff, List.forall_mem_map]
  exact h

theorem isExact_ofText? {t : Option Text} (h : ∀ s ∈ t, s.IsClean) : (ofText? t).IsExact := by
  cases t with
  | none => trivial
  | some s => exact h s rfl

end Json

section Exact

open Json

theorem Position.isExact_encode {p : Position} (h : p.IsClean) : p.encode.IsExact := by
  simp [encode, IsExact, AreExactMembers, Text.ofString_inj, Text.isClean_ofString,
    isExact_ofText? h]

theorem Diagnostic.isExact_encode {d : Diagnostic} (h : d.IsClean) : d.encode.IsExact := by
  have hreasons : AreExact (d.reasons.map .str) := areExact_map h.1
  simp [encode, IsExact, AreExactMembers, Text.ofString_inj, Text.isClean_ofString, hreasons,
    Position.isExact_encode h.2]

theorem Attribute.isExact_encode {a : Attribute} (h : a.IsClean) : a.encode.IsExact := by
  simp [encode, IsExact, AreExactMembers, Text.ofString_inj, Text.isClean_ofString, h.1,
    isExact_ofText? h.2]

mutual

theorem Output.isExact_encode : (node : Output) → Output.AreClean [node] → node.encode.IsExact
  | ⟨kind, name, value, attributes, params, children, location⟩, h => by
    obtain ⟨hown, hbelow, -⟩ := Output.forall_mem_walk_cons.mp h
    have hattributes : AreExact (attributes.map Attribute.encode) :=
      areExact_map fun a ha => Attribute.isExact_encode (hown.attributes a ha)
    have hparams : AreExact (params.map .str) := areExact_map hown.params
    have hchildren := Output.areExact_encodeAll children hbelow
    simp [Output.encode, IsExact, AreExactMembers, Text.ofString_inj, Text.isClean_ofString,
      isExact_ofText? hown.name, isExact_ofText? hown.value, hattributes, hparams, hchildren,
      Position.isExact_encode hown.location]

theorem Output.areExact_encodeAll :
    (nodes : List Output) → Output.AreClean nodes → AreExact (Output.encodeAll nodes)
  | [], _ => trivial
  | node :: rest, h => by
    rw [Output.AreClean, Output.walk, List.forall_mem_append] at h
    have hnode : Output.AreClean [node] := by
      rw [Output.AreClean, Output.walk, Output.walk, List.append_nil]
      exact h.1
    exact ⟨Output.isExact_encode node hnode, Output.areExact_encodeAll rest h.2⟩

end

/-- The record of a result without surrogates is one that reading restores. -/
theorem Report.isExact_encode {r : Report} (h : r.IsClean) : r.encode.IsExact := by
  have hdiagnostics : AreExact (r.diagnostics.map Diagnostic.encode) :=
    areExact_map fun d hd => Diagnostic.isExact_encode (h.diagnostics d hd)
  simp [encode, IsExact, AreExactMembers, Text.ofString_inj, Text.isClean_ofString, hdiagnostics,
    Output.areExact_encodeAll _ h.statements, Output.areExact_encodeAll _ h.render]

end Exact

end Lowering
