import Lowering.Json.Basic
import Lowering.Numeric.Numeral

/-!
# Writing JSON

`Json.pretty` writes a value over several lines: each element and member on a line of its own,
indented by two spaces a level, and an empty array or object as a pair of brackets. Strings are
written in ASCII; a character beyond the Basic Multilingual Plane becomes a surrogate pair.

`Json.isWritable` holds of the values all of whose integers have a written form.
-/

namespace Lowering.Json

/-- An escape by number. -/
def unitEscape (unit : Nat) : List Char :=
  '\\' :: 'u' :: Text.hexDigits 4 unit

/-- The code point of that number inside a string. -/
def escapePoint (point : Nat) : List Char :=
  if point = 34 then ['\\', '"']
  else if point = 92 then ['\\', '\\']
  else if point = 10 then ['\\', 'n']
  else if point = 13 then ['\\', 'r']
  else if point = 9 then ['\\', 't']
  else if point = 12 then ['\\', 'f']
  else if point = 8 then ['\\', 'b']
  else if 32 ≤ point ∧ point ≤ 126 then [Char.ofNat point]
  else if point < 0x10000 then unitEscape point
  else
    unitEscape (0xD800 + (point - 0x10000) / 0x400) ++
      unitEscape (0xDC00 + (point - 0x10000) % 0x400)

/-- A text as a string. -/
def stringText (t : Text) : List Char :=
  '"' :: t.flatMap (fun p => escapePoint p.toNat) ++ ['"']

/-- A floating point number. -/
def floatText : Binary64 → List Char
  | .nan => ['N', 'a', 'N']
  | .infinity false => ['I', 'n', 'f', 'i', 'n', 'i', 't', 'y']
  | .infinity true => ['-', 'I', 'n', 'f', 'i', 'n', 'i', 't', 'y']
  | .finite negative significand exponent =>
    (Binary64.finiteText negative significand exponent).toList

/-- An integer. -/
def intText (n : Int) : List Char :=
  if n < 0 then '-' :: Nat.toDigits 10 n.natAbs else Nat.toDigits 10 n.natAbs

/-- A line break and the indentation of a level. -/
def newline (level : Nat) : List Char :=
  '\n' :: List.replicate (2 * level) ' '

mutual

/-- A value whose own line is indented by `level` levels, in front of `rest`. -/
def prettyAt (level : Nat) (rest : List Char) : Json → List Char
  | .null => 'n' :: 'u' :: 'l' :: 'l' :: rest
  | .bool true => 't' :: 'r' :: 'u' :: 'e' :: rest
  | .bool false => 'f' :: 'a' :: 'l' :: 's' :: 'e' :: rest
  | .int n => intText n ++ rest
  | .float x => floatText x ++ rest
  | .str s => stringText s ++ rest
  | .arr [] => '[' :: ']' :: rest
  | .arr (v :: vs) =>
    '[' :: newline (level + 1) ++
      prettyAt (level + 1) (prettyItems (level + 1) (newline level ++ ']' :: rest) vs) v
  | .obj [] => '\x7b' :: '\x7d' :: rest
  | .obj ((name, v) :: ms) =>
    '\x7b' :: newline (level + 1) ++ stringText name ++ ':' :: ' ' ::
      prettyAt (level + 1) (prettyMembers (level + 1) (newline level ++ '\x7d' :: rest) ms) v

/-- Further elements of an array, in front of `rest`. -/
def prettyItems (level : Nat) (rest : List Char) : List Json → List Char
  | [] => rest
  | v :: vs => ',' :: newline level ++ prettyAt level (prettyItems level rest vs) v

/-- Further members of an object, in front of `rest`. -/
def prettyMembers (level : Nat) (rest : List Char) : Members → List Char
  | [] => rest
  | (name, v) :: ms =>
    ',' :: newline level ++ stringText name ++ ':' :: ' ' ::
      prettyAt level (prettyMembers level rest ms) v

end

/-- A value over several lines. -/
def pretty (v : Json) : String :=
  String.ofList (prettyAt 0 [] v)

mutual

/-- A value all of whose integers can be written. -/
def isWritable : Json → Bool
  | .int n => Lowering.isWritable n
  | .arr items => areWritable items
  | .obj members => areWritableMembers members
  | _ => true

/-- Elements all of whose integers can be written. -/
def areWritable : List Json → Bool
  | [] => true
  | v :: vs => v.isWritable && areWritable vs

/-- Members all of whose integers can be written. -/
def areWritableMembers : Members → Bool
  | [] => true
  | (_, v) :: ms => v.isWritable && areWritableMembers ms

end

end Lowering.Json
