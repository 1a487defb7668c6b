import Lowering.Text.CodePoint

/-!
# String literals

The quoted string literals of the script language, as attribute values use them.

* `Literal.value?` is the value of a source that is one complete literal in single or double
  quotes. A backslash escapes the code point after it: `n`, `t`, `r` and `0` stand for line feed,
  tab, carriage return and NUL, every other one for itself. A bare line feed ends no literal.
* `Literal.stripQuotes` removes one quote of either kind from each end, if there is one.
-/

namespace Lowering.Literal

/-- The code point that an escape stands for. -/
def unescape : CodePoint → CodePoint
  | .char 'n' => .char '\n'
  | .char 't' => .char '\t'
  | .char 'r' => .char '\r'
  | .char '0' => .char (Char.ofNat 0)
  | p => p

/-- A code point that can open a literal. -/
def isQuote (p : CodePoint) : Bool :=
  p == .char '\'' || p == .char '"'

/-- A text that completes a literal behind its opening quote: the quote closes it and comes last. -/
def completes (quote : CodePoint) : Text → Bool
  | [] => false
  | [.char '\\'] => false
  | .char '\\' :: _ :: rest => completes quote rest
  | p :: rest => if p = quote then rest.isEmpty else p != .char '\n' && completes quote rest

/-- A source that is one complete literal. -/
def isComplete : Text → Bool
  | [] => false
  | q :: rest => isQuote q && completes q rest

/-- Resolves the escapes in a text, from left to right. -/
def resolve : Text → Text
  | [] => []
  | .char '\\' :: p :: rest => unescape p :: resolve rest
  | p :: rest => p :: resolve rest

/-- The value of a source that is one complete literal: what its escapes and the other code points
between the quotes stand for. -/
def value? (source : Text) : Option Text :=
  if isComplete source then some (resolve (source.drop 1).dropLast) else none

/-- Drops a leading quote. -/
def dropQuote : Text → Text
  | [] => []
  | p :: rest => if isQuote p then rest else p :: rest

/-- Removes one leading and one trailing quote of either kind. -/
def stripQuotes (t : Text) : Text :=
  (dropQuote (dropQuote t).reverse).reverse

end Lowering.Literal
