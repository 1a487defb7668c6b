import Lowering.Json.Reader
import Lowering.Record.Issue
import Lowering.Text.Blank

/-!
# Integers in strings

A string may stand for an integer. White space around it and a plus sign are dropped, and what is
left is tidied up before it is read as a numeral:

* `dropZeros`: zeros in front, with underscores among them; a minus sign may follow them;
* `dropFraction`: a point with nothing but zeros after it;
* `dropUnderscores`: single underscores inside the numeral.

A numeral has at most `maxDigits` digits. A string that starts with more digits than that, after a
minus sign at most, is too large, whatever follows them; other long strings are no numerals, those
with white space in front among them.
-/

namespace Lowering.IntegerText

/-- The numeral from its first character on that is neither a zero nor an underscore; `last` is the
character before. A zero stays in front of a point, and the last character stays if there is
nothing else. -/
def afterZeros (last : Char) : List Char → Option (List Char)
  | [] => some [last]
  | c :: rest =>
    if c = '0' ∨ c = '_' then afterZeros c rest
    else if c = '.' then some (last :: c :: rest)
    else if Json.isDigit c ∨ c = '-' then some (c :: rest)
    else none

/-- A numeral without zeros in front. -/
def dropZeros : List Char → Option (List Char)
  | [] => none
  | c :: rest =>
    if c = '0' then afterZeros c rest
    else if Json.isDigit c then some (c :: rest)
    else none

/-- A numeral without a fraction of zeros. -/
def dropFraction (cs : List Char) : List Char :=
  match cs.dropWhile (· ≠ '.') with
  | _ :: zeros =>
    if !zeros.isEmpty && zeros.all (· == '0') then cs.takeWhile (· ≠ '.') else cs
  | [] => cs

/-- Two underscores in a row. -/
def hasDouble : List Char → Bool
  | '_' :: '_' :: _ => true
  | _ :: rest => hasDouble rest
  | [] => false

theorem hasDouble_cons (c : Char) (cs : List Char) :
    hasDouble (c :: cs) = (c == '_' && cs.head? == some '_' || hasDouble cs) := by
  rw [hasDouble.eq_def]
  split
  · rename_i rest heq
    cases heq
    simp
  · rename_i c' rest hne heq
    cases heq
    by_cases hc : c = '_'
    · subst hc
      cases cs with
      | nil => simp
      | cons d ds =>
        have hd : d ≠ '_' := fun h => hne ds rfl (by rw [h])
        simp [hd]
    · simp [hc]
  · rename_i heq
    cases heq

/-- A numeral without its underscores, if these are single and inside. -/
def dropUnderscores (cs : List Char) : List Char :=
  if cs.head? = some '_' ∨ cs.getLast? = some '_' ∨ hasDouble cs then cs
  else cs.filter (· ≠ '_')

/-- The numeral that a string without white space around it stands for. -/
def tidy : List Char → Option (List Char)
  | '+' :: rest => unsigned rest
  | '-' :: rest => (unsigned rest).map ('-' :: ·)
  | cs => unsigned cs
where
  /-- The numeral without a sign in front. -/
  unsigned (cs : List Char) : Option (List Char) :=
    (dropZeros cs).map fun cs => dropUnderscores (dropFraction cs)

/-- The number that digits stand for: zero, or digits that do not start with a zero. -/
def natural? : List Char → Option Nat
  | ['0'] => some 0
  | digits =>
    if digits.head? ≠ some '0' ∧ digits ≠ [] ∧ digits.all Json.isDigit ∧
        digits.length ≤ maxDigits then
      some (Json.natOfDigits digits)
    else none

/-- The integer that a numeral stands for. -/
def integer? : List Char → Option Int
  | '-' :: digits => (natural? digits).map fun n => -(n : Int)
  | digits => (natural? digits).map fun n => (n : Int)

/-- Whether a string starts with too many digits; zeros in front do not count as such. -/
def isOversized : List Char → Bool
  | '-' :: cs => unsigned cs
  | cs => unsigned cs
where
  /-- Too many digits without a sign in front. -/
  unsigned (cs : List Char) : Bool :=
    cs.head? ≠ some '0' && decide (maxDigits < (cs.takeWhile Json.isDigit).length)

/-- The integer that a string stands for. -/
def read (s : Text) : Checked Int :=
  match s.chars? with
  | none => .refuse .illFormedString
  | some cs =>
    if isOversized cs then .refuse .integerTooLarge
    else
      match (tidy (Text.trimList Text.isWhiteSpace cs)).bind integer? with
      | some n => .valid n
      | none => .refuse .badInteger

end Lowering.IntegerText
