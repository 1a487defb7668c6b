import Lowering.Numeric.Numeral
import Lowering.Text.CodePoint
import Lowering.Text.Printable

/-!
# Quoted texts

The quoted form of a text, as messages show it: in single quotes, or in double quotes when the
text holds a single quote and no double quote. Backslash, the quote in use, line feed, carriage
return and tab have short escapes; every other code point that is not printable, a surrogate among
them, is written by its number.
-/

namespace Lowering.Text

/-- The quote that surrounds a text. -/
def quoteFor (t : Text) : Char :=
  if t.contains (.char '\'') && !t.contains (.char '"') then '"' else '\''

/-- A code point by its number, with as many digits as it takes. -/
def numberEscape (n : Nat) : List Char :=
  if n < 0x100 then '\\' :: 'x' :: hexDigits 2 n
  else if n < 0x10000 then '\\' :: 'u' :: hexDigits 4 n
  else '\\' :: 'U' :: hexDigits 8 n

/-- One code point between quotes `quote`. -/
def quotedPoint (quote : Char) : CodePoint → List Char
  | .surrogate index => numberEscape (CodePoint.surrogate index).toNat
  | .char c =>
    if c = '\\' ∨ c = quote then ['\\', c]
    else if c = '\n' then ['\\', 'n']
    else if c = '\r' then ['\\', 'r']
    else if c = '\t' then ['\\', 't']
    else if isPrintable c.toNat then [c]
    else numberEscape c.toNat

/-- A text as a string; a surrogate shows as its number. -/
def escaped (t : Text) : String :=
  String.ofList (t.flatMap fun
    | .char c => [c]
    | .surrogate index => numberEscape (CodePoint.surrogate index).toNat)

/-- The quoted form of a text. -/
def quote (t : Text) : String :=
  let quote := quoteFor t
  String.ofList (quote :: t.flatMap (quotedPoint quote) ++ [quote])

end Lowering.Text
