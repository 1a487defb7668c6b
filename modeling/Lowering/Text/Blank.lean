import Lowering.Text.CodePoint

/-!
# Blank characters

Two classes of blank characters are in use. `isWhiteSpace` is the Unicode property `White_Space`.
`isBlank` adds the four information separators U+001C to U+001F; it is the class that is trimmed
from source text and that decides whether a piece of source is empty.

* `trim` removes blanks from both ends of a text;
* `isBlankText` holds of a text without any other code point.
-/

namespace Lowering.Text

/-- The characters with the Unicode property `White_Space`. -/
def isWhiteSpace (c : Char) : Bool :=
  let n := c.toNat
  (9 ≤ n && n ≤ 13) || n == 0x20 || n == 0x85 || n == 0xA0 || n == 0x1680 ||
    (0x2000 ≤ n && n ≤ 0x200A) || n == 0x2028 || n == 0x2029 || n == 0x202F || n == 0x205F ||
    n == 0x3000

/-- White space and the information separators. -/
def isBlank : CodePoint → Bool
  | .char c => isWhiteSpace c || (0x1C ≤ c.toNat && c.toNat ≤ 0x1F)
  | .surrogate _ => false

/-- Drops the elements of a class from both ends. -/
def trimList {α : Type} (p : α → Bool) (xs : List α) : List α :=
  ((xs.dropWhile p).reverse.dropWhile p).reverse

/-- Drops blanks from both ends of a text. -/
def trim (t : Text) : Text :=
  trimList isBlank t

/-- A text of blanks only; the empty text is one. -/
def isBlankText (t : Text) : Bool :=
  t.all isBlank

end Lowering.Text
