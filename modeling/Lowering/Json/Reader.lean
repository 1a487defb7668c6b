import Lowering.Json.Basic
import Lowering.Numeric.Numeral

/-!
# Reading JSON

`Json.parse` reads a JSON text. Besides the grammar of JSON it takes `NaN`, `Infinity` and
`-Infinity` as numbers. A name that is given twice keeps its first place and its last value. An
integer of more than `maxDigits` digits is refused.

Reading works on the characters that are left; a failure keeps the characters at which it stopped,
and `Place.of` turns these into a line, a column and an offset.

* `stringBody` reads a string after its opening quote;
* `Numeral.scan?` splits off the longest numeral;
* `value`, `elements` and `members` read a value, the rest of an array and the rest of an object.
-/

namespace Lowering.Json

/-- What is wrong with a text that is not JSON. -/
inductive Problem where
  | expectedValue
  | expectedName
  | expectedColon
  | expectedComma
  | extraData
  | unterminatedString
  | controlCharacter
  | invalidEscape
  | invalidUnicodeEscape
  | byteOrderMark
deriving DecidableEq, Repr

/-- Why reading stopped: a problem at the characters that were left, or an integer that is too
long. -/
inductive Stop where
  | stuck (problem : Problem) (left : List Char)
  | oversized (digits : Nat)
deriving DecidableEq, Repr

/-- The characters that may stand between tokens. -/
def isSpace (c : Char) : Bool :=
  c == ' ' || c == '\t' || c == '\r' || c == '\n'

/-- The characters after leading space. -/
def skipSpace (cs : List Char) : List Char :=
  cs.dropWhile isSpace

/-! ## Strings -/

/-- The character that a one-letter escape stands for. -/
def unescape? (c : Char) : Option Char :=
  if c = '"' ∨ c = '\\' ∨ c = '/' then some c
  else if c = 'b' then some (Char.ofNat 8)
  else if c = 'f' then some (Char.ofNat 12)
  else if c = 'n' then some '\n'
  else if c = 'r' then some '\r'
  else if c = 't' then some '\t'
  else none

/-- The number that four hexadecimal digits stand for. -/
def unit? (a b c d : Char) : Option Nat := do
  let a ← Text.hexValue? a
  let b ← Text.hexValue? b
  let c ← Text.hexValue? c
  let d ← Text.hexValue? d
  pure (((a * 16 + b) * 16 + c) * 16 + d)

/-- The first half of a surrogate pair. -/
def isHigh (unit : Nat) : Bool :=
  0xD800 ≤ unit && unit < 0xDC00

/-- The second half of a surrogate pair. -/
def isLow (unit : Nat) : Bool :=
  0xDC00 ≤ unit && unit < 0xE000

/-- The code point of a surrogate pair. -/
def pairPoint (high low : Nat) : Nat :=
  0x10000 + (high - 0xD800) * 0x400 + (low - 0xDC00)

/-- Puts a code point in front of those read after it. -/
def withPoint (point : Nat) : Except Stop (Text × List Char) → Except Stop (Text × List Char) :=
  Except.map fun read => (CodePoint.ofNat point :: read.1, read.2)

/-- The text of a string and the characters after its closing quote. `opened` is the text
from the opening quote on. An escape by number needs a character after it; two such escapes that
form a surrogate pair stand for one code point. -/
def stringBody (opened : List Char) : List Char → Except Stop (Text × List Char)
  | [] => .error (.stuck .unterminatedString opened)
  | '"' :: rest => .ok ([], rest)
  | '\\' :: [] => .error (.stuck .unterminatedString opened)
  | '\\' :: 'u' :: a :: b :: c :: d :: rest =>
    if rest.isEmpty then .error (.stuck .invalidUnicodeEscape ('u' :: a :: b :: c :: d :: rest))
    else
      match unit? a b c d with
      | none => .error (.stuck .invalidUnicodeEscape ('u' :: a :: b :: c :: d :: rest))
      | some first =>
        match rest with
        | '\\' :: 'u' :: e :: f :: g :: h :: more =>
          if isHigh first && !more.isEmpty then
            match unit? e f g h with
            | none => .error (.stuck .invalidUnicodeEscape ('u' :: e :: f :: g :: h :: more))
            | some second =>
              if isLow second then withPoint (pairPoint first second) (stringBody opened more)
              else withPoint first (stringBody opened ('\\' :: 'u' :: e :: f :: g :: h :: more))
          else withPoint first (stringBody opened ('\\' :: 'u' :: e :: f :: g :: h :: more))
        | rest => withPoint first (stringBody opened rest)
  | '\\' :: c :: rest =>
    if c = 'u' then .error (.stuck .invalidUnicodeEscape (c :: rest))
    else
      match unescape? c with
      | none => .error (.stuck .invalidEscape ('\\' :: c :: rest))
      | some c => withPoint c.toNat (stringBody opened rest)
  | c :: rest =>
    if c.toNat < 0x20 then .error (.stuck .controlCharacter (c :: rest))
    else withPoint c.toNat (stringBody opened rest)

/-- A character that is shown as itself. -/
theorem stringBody_cons (opened : List Char) {c : Char} (hq : c ≠ '"') (hb : c ≠ '\\')
    (hc : 0x20 ≤ c.toNat) (rest : List Char) :
    stringBody opened (c :: rest) = withPoint c.toNat (stringBody opened rest) := by
  rw [stringBody]
  · rw [if_neg (by omega)]
  all_goals simp_all

theorem stringBody_escape (opened : List Char) {c d : Char} (h : unescape? c = some d)
    (rest : List Char) :
    stringBody opened ('\\' :: c :: rest) = withPoint d.toNat (stringBody opened rest) := by
  have hu : c ≠ 'u' := by
    rintro rfl
    cases h
  rw [stringBody]
  · rw [if_neg hu, h]
  · intro a b c d rest' heq
    exact absurd heq hu

/-! ## Numbers -/

/-- An ASCII digit. -/
def isDigit (c : Char) : Bool :=
  48 ≤ c.toNat && c.toNat ≤ 57

/-- The value of a row of digits. -/
def natOfDigits (ds : List Char) : Nat :=
  ds.foldl (fun n c => n * 10 + (c.toNat - 48)) 0

/-- A numeral: sign, digits before and after the point, and the exponent's sign and digits. -/
structure Numeral where
  negative : Bool
  whole : List Char
  fraction : List Char := []
  exponent : Option (Bool × List Char) := none
deriving DecidableEq, Repr

/-- Splits leading digits off. -/
def spanDigits (cs : List Char) : List Char × List Char :=
  (cs.takeWhile isDigit, cs.dropWhile isDigit)

/-- The digits before the point: a zero alone, or digits that do not start with one. -/
def scanWhole (cs : List Char) : Option (List Char × List Char) :=
  match cs with
  | [] => none
  | c :: rest =>
    if c = '0' then some ([c], rest)
    else if isDigit c then some (spanDigits cs)
    else none

/-- A point and the digits after it; nothing unless a digit follows the point. -/
def scanFraction (cs : List Char) : List Char × List Char :=
  match cs with
  | '.' :: rest =>
    match spanDigits rest with
    | ([], _) => ([], cs)
    | split => split
  | _ => ([], cs)

/-- An exponent; nothing unless it has a digit. -/
def scanExponent (cs : List Char) : Option (Bool × List Char) × List Char :=
  match cs with
  | e :: rest =>
    if e = 'e' ∨ e = 'E' then
      let (negative, digits) := match rest with
        | '-' :: more => (true, more)
        | '+' :: more => (false, more)
        | more => (false, more)
      match spanDigits digits with
      | ([], _) => (none, cs)
      | (ds, after) => (some (negative, ds), after)
    else (none, cs)
  | [] => (none, [])

/-- The longest numeral at the start of the characters. -/
def Numeral.scan? (cs : List Char) : Option (Numeral × List Char) :=
  let (negative, unsigned) := match cs with
    | '-' :: rest => (true, rest)
    | _ => (false, cs)
  (scanWhole unsigned).map fun (whole, afterWhole) =>
    let (fraction, afterFraction) := scanFraction afterWhole
    let (exponent, rest) := scanExponent afterFraction
    (⟨negative, whole, fraction, exponent⟩, rest)

/-- The number that a numeral stands for: an integer if it has neither fraction nor exponent. -/
def Numeral.number (n : Numeral) : Except Stop Json :=
  match n.fraction, n.exponent with
  | [], none =>
    if maxDigits < n.whole.length then .error (.oversized n.whole.length)
    else
      let value : Int := natOfDigits n.whole
      .ok (.int (if n.negative then -value else value))
  | fraction, exponent =>
    let power : Int := match exponent with
      | none => 0
      | some (true, ds) => -(natOfDigits ds : Int)
      | some (false, ds) => natOfDigits ds
    .ok (.float
      (Binary64.ofDecimal n.negative (natOfDigits (n.whole ++ fraction)) (power - fraction.length)))

/-! ## Values -/

/-- Reads one numeral, or finds that no value starts here. -/
def numeral (cs : List Char) : Except Stop (Json × List Char) :=
  match Numeral.scan? cs with
  | none => .error (.stuck .expectedValue cs)
  | some (n, rest) => n.number.map fun v => (v, rest)

mutual

/-- One value, at the start of the characters. -/
def value : Nat → List Char → Except Stop (Json × List Char)
  | 0, cs => .error (.stuck .expectedValue cs)
  | fuel + 1, cs =>
    match cs with
    | '"' :: rest => (stringBody cs rest).map fun (s, rest) => (.str s, rest)
    | '[' :: rest =>
      match skipSpace rest with
      | ']' :: rest => .ok (.arr [], rest)
      | rest => (elements fuel rest).map fun (items, rest) => (.arr items, rest)
    | '{' :: rest =>
      match skipSpace rest with
      | '}' :: rest => .ok (.obj [], rest)
      | rest => (members fuel rest).map fun (ms, rest) => (.obj (settle ms), rest)
    | 'n' :: 'u' :: 'l' :: 'l' :: rest => .ok (.null, rest)
    | 't' :: 'r' :: 'u' :: 'e' :: rest => .ok (.bool true, rest)
    | 'f' :: 'a' :: 'l' :: 's' :: 'e' :: rest => .ok (.bool false, rest)
    | 'N' :: 'a' :: 'N' :: rest => .ok (.float .nan, rest)
    | 'I' :: 'n' :: 'f' :: 'i' :: 'n' :: 'i' :: 't' :: 'y' :: rest =>
      .ok (.float (.infinity false), rest)
    | '-' :: 'I' :: 'n' :: 'f' :: 'i' :: 'n' :: 'i' :: 't' :: 'y' :: rest =>
      .ok (.float (.infinity true), rest)
    | cs => numeral cs

/-- The elements of an array from a value on, and what follows the closing bracket. -/
def elements : Nat → List Char → Except Stop (List Json × List Char)
  | 0, cs => .error (.stuck .expectedValue cs)
  | fuel + 1, cs => do
    let (v, rest) ← value fuel cs
    match skipSpace rest with
    | ']' :: rest => .ok ([v], rest)
    | ',' :: rest =>
      let (vs, rest) ← elements fuel (skipSpace rest)
      .ok (v :: vs, rest)
    | rest => .error (.stuck .expectedComma rest)

/-- The members of an object from a name on, and what follows the closing brace. -/
def members : Nat → List Char → Except Stop (Members × List Char)
  | 0, cs => .error (.stuck .expectedName cs)
  | fuel + 1, cs =>
    match cs with
    | '"' :: rest => do
      let (name, rest) ← stringBody cs rest
      match skipSpace rest with
      | ':' :: rest =>
        let (v, rest) ← value fuel (skipSpace rest)
        let m := (name, v)
        match skipSpace rest with
        | '}' :: rest => .ok ([m], rest)
        | ',' :: rest =>
          let (ms, rest) ← members fuel (skipSpace rest)
          .ok (m :: ms, rest)
        | rest => .error (.stuck .expectedComma rest)
      | rest => .error (.stuck .expectedColon rest)
    | cs => .error (.stuck .expectedName cs)

end

theorem value_of_numeral {cs : List Char} {r : Json × List Char} (h : numeral cs = .ok r)
    (fuel : Nat) : value (fuel + 1) cs = .ok r := by
  rw [value]
  · exact h
  all_goals
    intros
    subst_vars
    cases h

/-- A text that is one value between optional space. Every two calls of the reading functions take
a character, so twice the length is fuel enough. -/
def whole (cs : List Char) : Except Stop Json :=
  match cs with
  | '\uFEFF' :: _ => .error (.stuck .byteOrderMark cs)
  | cs => do
    let (v, rest) ← value (2 * cs.length + 2) (skipSpace cs)
    match skipSpace rest with
    | [] => .ok v
    | rest => .error (.stuck .extraData rest)

/-! ## Failures -/

/-- A place in a text: line and column from one, offset from zero, counted in characters. -/
structure Place where
  line : Nat
  column : Nat
  offset : Nat
deriving DecidableEq, Repr

/-- The place in `text` at which the characters `left` begin. -/
def Place.of (text left : List Char) : Place :=
  let before := text.take (text.length - left.length)
  { line := before.count '\n' + 1
    column := (before.reverse.takeWhile (· ≠ '\n')).length + 1
    offset := before.length }

/-- Why a text is refused. -/
inductive ReadError where
  | malformed (problem : Problem) (place : Place)
  | oversized (digits : Nat)
deriving DecidableEq, Repr

/-- Reads a JSON text. -/
def parse (text : String) : Except ReadError Json :=
  match whole text.toList with
  | .ok v => .ok v
  | .error (.stuck problem left) => .error (.malformed problem (.of text.toList left))
  | .error (.oversized digits) => .error (.oversized digits)

/-- The problem in words. -/
def Problem.message : Problem → String
  | .expectedValue => "Expecting value"
  | .expectedName => "Expecting property name enclosed in double quotes"
  | .expectedColon => "Expecting ':' delimiter"
  | .expectedComma => "Expecting ',' delimiter"
  | .extraData => "Extra data"
  | .unterminatedString => "Unterminated string starting at"
  | .controlCharacter => "Invalid control character at"
  | .invalidEscape => "Invalid \\escape"
  | .invalidUnicodeEscape => "Invalid \\uXXXX escape"
  | .byteOrderMark => "Unexpected UTF-8 BOM (decode using utf-8-sig)"

/-- The place in words. -/
def Place.message (p : Place) : String :=
  "line " ++ toString p.line ++ " column " ++ toString p.column ++
    " (char " ++ toString p.offset ++ ")"

/-- The failure in words. -/
def ReadError.message : ReadError → String
  | .malformed problem place => problem.message ++ ": " ++ place.message
  | .oversized digits =>
    limitExceeded ++ ": value has " ++ toString digits ++ " digits" ++ limitAdvice

end Lowering.Json
