import Lowering.Script.Syntax
import Lowering.Text.Utf8

/-!
# Statements of a script

A script source is split into its top-level statements along its syntax tree. Offsets of the tree
count octets of the UTF-8 encoding, columns count characters.

* `Script.ofSyntax` is the list of statements, or the point of the first error;
* a source with a surrogate cannot be encoded, and a statement whose span cuts through a character
  cannot be decoded.
-/

namespace Lowering

/-- A top-level statement: its source, its kind, and the row and column at which it starts. -/
structure Statement where
  text : Text
  kind : Text := []
  row : Int
  column : Int
deriving DecidableEq, Repr

/-- A script that was read: its statements, or the point at which it is broken. -/
inductive Script where
  | statements (list : List Statement)
  | broken (row column : Int)
deriving DecidableEq, Repr

namespace Script

/-- An offset as a number of octets from the start: a negative one counts from the end, and both
ends are limits. -/
def clip (length : Nat) (offset : Int) : Nat :=
  if offset < 0 then (offset + length).toNat else min offset.toNat length

/-- The octets between two offsets. -/
def slice (octets : List UInt8) (start stop : Int) : List UInt8 :=
  (octets.take (clip octets.length stop)).drop (clip octets.length start)

/-- The octets of the line in front of an offset. -/
def lineBefore (octets : List UInt8) (offset : Int) : List UInt8 :=
  ((octets.take (clip octets.length offset)).reverse.takeWhile (· ≠ 10)).reverse

/-- The character column of an offset. -/
def column (octets : List UInt8) (offset : Int) : Int :=
  Utf8.lossyLength (lineBefore octets offset)

/-- The kinds of syntax nodes that are no statements. -/
def commentKinds : List Text := ["comment"]

/-- A syntax node that is a statement. -/
def isStatement (n : Syntax) : Bool :=
  n.named && !commentKinds.contains n.kind

/-- The statement of a syntax node. -/
def statementOf (octets : List UInt8) (n : Syntax) : Except Utf8.DecodeError Statement :=
  (Utf8.decode (slice octets n.start n.stop)).map fun text =>
    { text := text, kind := n.kind, row := n.row, column := column octets n.start }

/-- The statements of syntax nodes, up to one that cannot be decoded. -/
def statementsOf (octets : List UInt8) : List Syntax → Except Utf8.DecodeError (List Statement)
  | [] => .ok []
  | n :: rest => do
    let statement ← statementOf octets n
    let statements ← statementsOf octets rest
    .ok (statement :: statements)

/-- The point of the first error in a tree; the start of the source if none is found. -/
def errorPoint (octets : List UInt8) (root : Syntax) : Script :=
  match root.firstError with
  | none => .broken 0 0
  | some n => .broken n.row (column octets n.start)

/-- The script of octets with the given syntax tree. -/
def ofOctets (octets : List UInt8) (root : Syntax) : Except Utf8.DecodeError Script :=
  if root.hasError then .ok (errorPoint octets root)
  else (statementsOf octets (root.children.filter isStatement)).map .statements

end Script

/-- Why a script cannot be read: its source has no octets, or a statement cuts a character. -/
inductive ScriptError where
  | unencodable (error : Utf8.EncodeError)
  | undecodable (error : Utf8.DecodeError)
deriving DecidableEq, Repr

/-- A failure to read a script in words. -/
def ScriptError.message : ScriptError → String
  | .unencodable e => e.message
  | .undecodable e => e.message

/-- The script of a source with the given syntax tree. -/
def Script.ofSyntax (source : Text) (root : Syntax) : Except ScriptError Script := do
  let octets ← (Utf8.encode source).mapError .unencodable
  (Script.ofOctets octets root).mapError .undecodable

/-- Reads a source in a language. -/
abbrev ScriptReader := Text → Text → Except ScriptError Script

/-- The script reader that follows a grammar. -/
def Grammar.reader (grammar : Grammar) : ScriptReader :=
  fun language source => Script.ofSyntax source (grammar language source)

/-- The script reader that answers every source alike. -/
def ScriptReader.fixed (script : Script) : ScriptReader :=
  fun _ _ => .ok script

/-- The languages for which a parser has to be fetched when scripts in these languages are read one
after the other: each once, in order of first use. -/
def fetchedLanguages : List Text → List Text
  | [] => []
  | language :: rest => language :: (fetchedLanguages rest).filter (· ≠ language)

end Lowering
