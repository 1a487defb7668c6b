/-!
# Numerals

The digits that numerals are made of, and how long a decimal numeral may be. The decimal digits are
the characters of general category decimal number, after version 14 of the Unicode character
database. Decimal numerals are read and written up to a length: integers with more than `maxDigits`
digits have no written form, and a numeral with more digits is not read.

* `Text.isDecimalDigit`: the decimal digits of all scripts;
* `Text.hexDigits`, `Text.hexValue?`: hexadecimal numerals of fixed width, and the value of a digit;
* `isWritable`: the integers that can be written.
-/

namespace Lowering

namespace Text

/-- The decimal digits of all scripts, as closed ranges in ascending order. -/
def digitRanges : List (Nat × Nat) := [
  (48, 57), (1632, 1641), (1776, 1785), (1984, 1993), (2406, 2415), (2534, 2543), (2662, 2671),
  (2790, 2799), (2918, 2927), (3046, 3055), (3174, 3183), (3302, 3311), (3430, 3439), (3558, 3567),
  (3664, 3673), (3792, 3801), (3872, 3881), (4160, 4169), (4240, 4249), (6112, 6121), (6160, 6169),
  (6470, 6479), (6608, 6617), (6784, 6793), (6800, 6809), (6992, 7001), (7088, 7097), (7232, 7241),
  (7248, 7257), (42528, 42537), (43216, 43225), (43264, 43273), (43472, 43481), (43504, 43513),
  (43600, 43609), (44016, 44025), (65296, 65305), (66720, 66729), (68912, 68921), (69734, 69743),
  (69872, 69881), (69942, 69951), (70096, 70105), (70384, 70393), (70736, 70745), (70864, 70873),
  (71248, 71257), (71360, 71369), (71472, 71481), (71904, 71913), (72016, 72025), (72784, 72793),
  (73040, 73049), (73120, 73129), (92768, 92777), (92864, 92873), (93008, 93017), (120782, 120831),
  (123200, 123209), (123632, 123641), (125264, 125273), (130032, 130041)
]

/-- A decimal digit of any script. -/
def isDecimalDigit (c : Char) : Bool :=
  digitRanges.any fun range => range.1 ≤ c.toNat && c.toNat ≤ range.2

/-- The last `width` hexadecimal digits of `n`, most significant first. -/
def hexDigits : Nat → Nat → List Char
  | 0, _ => []
  | width + 1, n => hexDigits width (n / 16) ++ [Nat.digitChar (n % 16)]

/-- The value of a hexadecimal digit of either case. -/
def hexValue? (c : Char) : Option Nat :=
  let n := c.toNat
  if 48 ≤ n ∧ n ≤ 57 then some (n - 48)
  else if 97 ≤ n ∧ n ≤ 102 then some (n - 87)
  else if 65 ≤ n ∧ n ≤ 70 then some (n - 55)
  else none

end Text

/-- The most digits that a numeral may have. -/
def maxDigits : Nat := 4300

/-- The end of every message about a numeral that is too long. -/
def limitAdvice : String :=
  "; use sys.set_int_max_str_digits() to increase the limit"

/-- The start of every message about a numeral that is too long. -/
def limitExceeded : String :=
  "Exceeds the limit (" ++ toString maxDigits ++ " digits) for integer string conversion"

/-- An integer that can be written: it has at most `maxDigits` digits. The bound is too long a number
to be computed in proofs, so that the definition stays folded. -/
@[irreducible] def isWritable (n : Int) : Bool :=
  n.natAbs < Nat.pow 10 maxDigits

end Lowering
