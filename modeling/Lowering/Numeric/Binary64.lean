/-!
# Binary floating point numbers

The numbers of the 64-bit binary interchange format, held exactly: a finite number is a sign, a
significand below `2 ^ 53` and a binary exponent of at least `-1074`, and the significand is at
least `2 ^ 52` unless the exponent is `-1074`.

* `Binary64.ofDecimal` is the number nearest to a decimal, ties to the even significand;
* `Binary64.integer?` is the integer that a finite number is, if it is one;
* `Binary64.shortest` is the decimal with the fewest digits that reads back as the number, the
  nearest one among those.
-/

namespace Lowering

/-- A 64-bit binary floating point number. -/
inductive Binary64 where
  | nan
  | infinity (negative : Bool)
  | finite (negative : Bool) (significand : Nat) (exponent : Int)
deriving DecidableEq, Repr

namespace Binary64

/-- The quotient rounded to nearest, ties to even. -/
def roundDiv (num den : Nat) : Nat :=
  let q := num / den
  let r := num % den
  if 2 * r < den then q
  else if den < 2 * r then q + 1
  else if q % 2 = 0 then q else q + 1

/-- The number of decimal digits; zero has none. -/
def digitCount (n : Nat) : Nat :=
  if n = 0 then 0 else (Nat.toDigits 10 n).length

/-- A non-negative exponent's power on one side of a quotient: `(b ^ e, 1)` or `(1, b ^ -e)`. -/
def powers (base : Nat) (e : Int) : Nat × Nat :=
  (Nat.pow base e.toNat, Nat.pow base (-e).toNat)

/-- The number nearest to the positive quotient `num / den`. -/
def ofRatio (negative : Bool) (num den : Nat) : Binary64 :=
  let guess : Int := (Nat.log2 num : Int) - (Nat.log2 den : Int)
  let (up, down) := powers 2 guess
  let scale : Int := if den * up ≤ num * down then guess else guess - 1
  let exponent : Int := max (scale - 52) (-1074)
  let (up, down) := powers 2 exponent
  let m := roundDiv (num * down) (den * up)
  let (m, exponent) := if m = Nat.pow 2 53 then (Nat.pow 2 52, exponent + 1) else (m, exponent)
  if 971 < exponent then .infinity negative else .finite negative m exponent

/-- The number nearest to `digits * 10 ^ exponent`. Decimals far outside the range are settled by
their magnitude alone. -/
def ofDecimal (negative : Bool) (digits : Nat) (exponent : Int) : Binary64 :=
  let magnitude : Int := digitCount digits + exponent
  if digits = 0 ∨ magnitude < -400 then .finite negative 0 (-1074)
  else if 400 < magnitude then .infinity negative
  else
    let (up, down) := powers 10 exponent
    ofRatio negative (digits * up) down

/-- The integer that a finite number is; none if it has a fractional part. -/
def integer? (negative : Bool) (significand : Nat) (exponent : Int) : Option Int :=
  let (up, down) := powers 2 exponent
  if significand * up % down = 0 then
    let n : Int := (significand * up / down : Nat)
    some (if negative then -n else n)
  else none

/-- A decimal `digits * 10 ^ exponent`. -/
structure Decimal where
  digits : Nat
  exponent : Int
deriving DecidableEq, Repr

/-- Moves trailing zeros from the digits into the exponent, at most `fuel` of them. -/
def Decimal.strip : Nat → Decimal → Decimal
  | 0, d => d
  | fuel + 1, d =>
    if d.digits % 10 = 0 ∧ d.digits ≠ 0 then
      Decimal.strip fuel ⟨d.digits / 10, d.exponent + 1⟩
    else d

/-- The candidate with `places` digits for `num / den`, a number with `lead` as the exponent of
its first digit: of its two neighbours on that decimal grid the nearer one that lies in the
interval from `low / den` to `high / den`. -/
def candidate? (num den low high : Nat) (closed : Bool) (lead : Int) (places : Nat) :
    Option Decimal :=
  let exponent := lead - places + 1
  let (up, down) := powers 10 exponent
  let below := num * down / (den * up)
  let inside (d : Nat) : Bool :=
    let x := d * up * den
    if closed then low * down ≤ x && x ≤ high * down else low * down < x && x < high * down
  let lower := inside below
  let upper := inside (below + 1)
  let twice := 2 * (num * down)
  let middle := (2 * below + 1) * (den * up)
  if lower && upper then
    if twice < middle || (twice == middle && below % 2 == 0) then some ⟨below, exponent⟩
    else some ⟨below + 1, exponent⟩
  else if lower then some ⟨below, exponent⟩
  else if upper then some ⟨below + 1, exponent⟩
  else none

/-- The first candidate when the number of digits grows from `places`. -/
def firstCandidate (num den low high : Nat) (closed : Bool) (lead : Int) :
    Nat → Nat → Decimal
  | 0, _ => ⟨0, 0⟩
  | fuel + 1, places =>
    match candidate? num den low high closed lead places with
    | some d => d
    | none => firstCandidate num den low high closed lead fuel (places + 1)

/-- The decimal with the fewest digits among those nearer to the positive number
`significand * 2 ^ exponent` than to any other; seventeen digits always suffice. -/
def shortest (significand : Nat) (exponent : Int) : Decimal :=
  let (up, down) := powers 2 exponent
  let num := 4 * significand * up
  let den := 4 * down
  let below := if significand = Nat.pow 2 52 ∧ -1074 < exponent then 1 else 2
  let low := (4 * significand - below) * up
  let high := (4 * significand + 2) * up
  let lead : Int :=
    if den ≤ num then (digitCount (num / den) : Int) - 1
    else -(digitCount ((den - 1) / num) : Int)
  (firstCandidate num den low high (significand % 2 == 0) lead 18 1).strip 400

/-- Zeros in a row. -/
def zeros (n : Nat) : List Char :=
  List.replicate n '0'

/-- The text of a positive decimal: positional when the first digit's exponent is from -4 to 15,
with `.0` after an integer; otherwise in scientific notation with a signed exponent of two digits
or more. -/
def Decimal.text (d : Decimal) : List Char :=
  let ds := Nat.toDigits 10 d.digits
  let point : Int := d.exponent + ds.length
  if 0 < point ∧ point ≤ 16 then
    let whole := point.toNat
    if whole < ds.length then ds.take whole ++ '.' :: ds.drop whole
    else ds ++ zeros (whole - ds.length) ++ ['.', '0']
  else if -4 < point ∧ point ≤ 0 then
    '0' :: '.' :: zeros (-point).toNat ++ ds
  else
    let e := point - 1
    let fraction := match ds with
      | [] => []
      | [c] => [c]
      | c :: rest => c :: '.' :: rest
    let magnitude := Nat.toDigits 10 e.natAbs
    fraction ++ 'e' :: (if e < 0 then '-' else '+') ::
      zeros (2 - magnitude.length) ++ magnitude

/-- The text of a finite number. -/
def finiteText (negative : Bool) (significand : Nat) (exponent : Int) : String :=
  let body := if significand = 0 then ['0', '.', '0'] else (shortest significand exponent).text
  String.ofList (if negative then '-' :: body else body)

end Binary64

end Lowering
