import Lowering.Proofs.Loading
import Lowering.Proofs.Numerals

/-!
# What fields accept

The values that the readers of fields take, told without the readers: integers and booleans in their
lenient spellings, lists and records of such values, and fields that must be there, may be there, or
go by two names.

* `IsInteger`, `IsBoolean`: the values that are taken as integers and as booleans;
* `Has`, `MayHave`, `MayHaveAs`: an object with a field, possibly with a field, and possibly with a
  field under one of two names;
* `Checked.IsValid`: a check that succeeds, with one lemma per reader.
-/

namespace Lowering

namespace Checked

variable {α β : Type}

/-- A check that succeeds. -/
def IsValid (x : Checked α) : Prop :=
  ∃ a, x = .valid a

@[simp] theorem isValid_valid (a : α) : (Checked.valid a).IsValid :=
  ⟨a, rfl⟩

@[simp] theorem not_isValid_invalid (issues : List Issue) :
    ¬(Checked.invalid issues : Checked α).IsValid := by
  rintro ⟨a, h⟩
  cases h

@[simp] theorem not_isValid_refuse (complaint : Complaint) :
    ¬(Checked.refuse complaint : Checked α).IsValid :=
  not_isValid_invalid _

/-- A check names no failure exactly if it succeeds. -/
theorem failure?_eq_none_iff {x : Checked α} : x.failure? = none ↔ x.IsValid := by
  cases x <;> simp [failure?]

@[simp] theorem isValid_map_iff {f : α → β} {x : Checked α} : (f <$> x).IsValid ↔ x.IsValid := by
  cases x <;> simp

/-- Checks that are made side by side succeed only together; all of them are made in any case. -/
@[simp] theorem isValid_seq_iff {f : Checked (α → β)} {x : Checked α} :
    (f <*> x).IsValid ↔ f.IsValid ∧ x.IsValid := by
  cases f <;> cases x <;> simp

@[simp] theorem isValid_under_iff {step : Step} {x : Checked α} :
    (x.under step).IsValid ↔ x.IsValid := by
  cases x <;> simp [under]

/-- A list passes if each element does, wherever its elements are counted from. -/
theorem isValid_listFrom_iff {check : α → Checked β} {start : Nat} {items : List α} :
    (listFrom check start items).IsValid ↔ ∀ a ∈ items, (check a).IsValid := by
  induction items generalizing start with
  | nil => simp [listFrom]
  | cons a rest ih => simp [listFrom, ih]

end Checked

/-! ## Numbers -/

/-- A floating point number that equals an integer: `±significand * 2 ^ exponent`, where a negative
exponent is a power on the other side. -/
def Binary64.Equals : Binary64 → Int → Prop
  | .finite negative significand exponent, n =>
    (if negative then -(significand : Int) else significand) * Int.pow 2 exponent.toNat =
      n * Int.pow 2 (-exponent).toNat
  | _, _ => False

/-- A quotient counts as an integer exactly if the division leaves no remainder; the sign is put
back after it. -/
theorem Binary64.signedQuotient_eq_some_iff {negative : Bool} {a d : Nat} {n : Int} (hd : 0 < d) :
    (if a % d = 0 then some (if negative then -((a / d : Nat) : Int) else (a / d : Nat)) else none) =
        some n ↔
      (if negative then -(a : Int) else a) = n * d := by
  have hcancel : ∀ {k m : Int}, k * (d : Int) = m * (d : Int) → k = m :=
    fun h => Int.eq_of_mul_eq_mul_right (by omega) h
  by_cases hzero : a % d = 0
  · have hquotient : (a : Int) = ((a / d : Nat) : Int) * d := by
      rw [← Int.natCast_mul, Nat.div_mul_cancel (Nat.dvd_of_mod_eq_zero hzero)]
    rw [if_pos hzero, Option.some_inj]
    cases negative with
    | false =>
      simp only [Bool.false_eq_true, if_false]
      constructor
      · rintro rfl
        exact hquotient
      · exact fun h => hcancel (hquotient.symm.trans h)
    | true =>
      have hneg : -(a : Int) = -((a / d : Nat) : Int) * d := by rw [Int.neg_mul, ← hquotient]
      simp only [if_true]
      constructor
      · rintro rfl
        exact hneg
      · exact fun h => hcancel (hneg.symm.trans h)
  · have hdvd : ∀ m : Int, (a : Int) ≠ m * d := fun m hm =>
      hzero (Nat.mod_eq_zero_of_dvd (Int.natCast_dvd_natCast.mp ⟨m, by rw [hm, Int.mul_comm]⟩))
    rw [if_neg hzero]
    constructor
    · intro h
      cases h
    · intro h
      cases negative with
      | false => exact absurd h (hdvd n)
      | true =>
        refine absurd ?_ (hdvd (-n))
        simp only [if_true] at h
        rw [Int.neg_mul, ← h, Int.neg_neg]

/-- A floating point number becomes the integer that it equals, if there is one. -/
theorem Binary64.integer?_eq_some_iff {negative : Bool} {significand : Nat} {exponent n : Int} :
    Binary64.integer? negative significand exponent = some n ↔
      (Binary64.finite negative significand exponent).Equals n := by
  have hpow : ∀ k : Nat, Int.pow 2 k = (Nat.pow 2 k : Nat) := fun k => (Int.natCast_pow 2 k).symm
  have hscale : (if negative then -(significand : Int) else significand) * Int.pow 2 exponent.toNat =
      if negative then -((significand * Nat.pow 2 exponent.toNat : Nat) : Int)
        else (significand * Nat.pow 2 exponent.toNat : Nat) := by
    rw [hpow, Int.natCast_mul]
    cases negative with
    | false => rfl
    | true => exact Int.neg_mul _ _
  rw [Equals, hscale, hpow]
  exact signedQuotient_eq_some_iff (Nat.pow_pos (by decide))

/-! ## Values -/

/-- A string. -/
def IsString (v : Json) : Prop :=
  ∃ s, v = .str s

/-- A value that is taken as an integer: an integer, a boolean, a floating point number that is an
integer between `-2 ^ 63` and `2 ^ 63`, or a numeral in a string. -/
inductive IsInteger : Json → Prop where
  | int (n : Int) : IsInteger (.int n)
  | bool (b : Bool) : IsInteger (.bool b)
  | float {x : Binary64} {n : Int} (h : x.Equals n) (hsize : n.natAbs < Nat.pow 2 63) :
      IsInteger (.float x)
  | str {s : Text} (h : IntegerText.IsSpelled s) : IsInteger (.str s)

/-- The words that are taken as booleans. -/
def truthWords : List String :=
  ["1", "on", "t", "true", "y", "yes", "0", "off", "f", "false", "n", "no"]

/-- A value that is taken as a boolean: a boolean, the numbers zero and one, or one of a few words
whose letters may be of either case. -/
inductive IsBoolean : Json → Prop where
  | bool (b : Bool) : IsBoolean (.bool b)
  | int {n : Int} (h : n = 0 ∨ n = 1) : IsBoolean (.int n)
  | float {x : Binary64} (h : x.Equals 0 ∨ x.Equals 1) : IsBoolean (.float x)
  | str {cs : List Char} (h : String.ofList (cs.map Char.toLower) ∈ truthWords) :
      IsBoolean (.str (cs.map .char))

/-- An array of such values. -/
def IsListOf (P : Json → Prop) (v : Json) : Prop :=
  ∃ items, v = .arr items ∧ ∀ w ∈ items, P w

/-- An object. -/
def IsObject (v : Json) : Prop :=
  ∃ members, v = .obj members

/-- Null or such a value. -/
def OrNull (P : Json → Prop) (v : Json) : Prop :=
  v = .null ∨ P v

/-- An object with a field that holds such a value. -/
def Has (v : Json) (name : String) (P : Json → Prop) : Prop :=
  ∃ w, v.member? name = some w ∧ P w

/-- A value without a field, or with one that holds such a value. -/
def MayHave (v : Json) (name : String) (P : Json → Prop) : Prop :=
  ∀ w, v.member? name = some w → P w

/-- The same for a field under either of two names, the second of which counts only if the first is
absent. -/
def MayHaveAs (v : Json) (other name : String) (P : Json → Prop) : Prop :=
  MayHave v other P ∧ (v.member? other = none → MayHave v name P)

/-! ## Readers of values -/

namespace Field

@[simp] theorem isValid_string_iff {v : Json} : (string v).IsValid ↔ IsString v := by
  cases v <;> simp [string, IsString]

/-- The bounds for floating point numbers are exclusive on both sides. -/
theorem integral_eq_valid_iff {x : Binary64} {n : Int} :
    integral x = .valid n ↔ x.Equals n ∧ n.natAbs < Nat.pow 2 63 := by
  have hsize : ∀ m : Int, (-Int.pow 2 63 < m ∧ m < Int.pow 2 63) ↔ m.natAbs < Nat.pow 2 63 := by
    intro m
    have hint : Int.pow 2 63 = 9223372036854775808 := rfl
    have hnat : Nat.pow 2 63 = 9223372036854775808 := rfl
    rw [hint, hnat]
    omega
  cases x with
  | nan => simp [integral, Checked.refuse, Binary64.Equals]
  | infinity negative => simp [integral, Checked.refuse, Binary64.Equals]
  | finite negative significand exponent =>
    rw [← Binary64.integer?_eq_some_iff, integral]
    cases Binary64.integer? negative significand exponent with
    | none => simp [Checked.refuse]
    | some m =>
      simp only [hsize]
      by_cases hm : m.natAbs < Nat.pow 2 63
      · rw [if_pos hm]
        simp only [Checked.valid.injEq, Option.some.injEq]
        constructor
        · rintro rfl
          exact ⟨rfl, hm⟩
        · exact fun h => h.1
      · rw [if_neg hm]
        simp only [Checked.refuse, Option.some.injEq]
        constructor
        · intro h
          cases h
        · rintro ⟨rfl, h⟩
          exact absurd h hm

/-- The reader of integers takes the values that count as integers. -/
@[simp] theorem isValid_integer_iff {v : Json} : (integer v).IsValid ↔ IsInteger v := by
  cases v with
  | int n => exact ⟨fun _ => .int n, fun _ => ⟨n, rfl⟩⟩
  | bool b => exact ⟨fun _ => .bool b, fun _ => ⟨_, rfl⟩⟩
  | float x =>
    constructor
    · rintro ⟨n, hn⟩
      obtain ⟨h, hsize⟩ := integral_eq_valid_iff.mp hn
      exact .float h hsize
    · rintro (_ | _ | ⟨h, hsize⟩)
      exact ⟨_, integral_eq_valid_iff.mpr ⟨h, hsize⟩⟩
  | str s =>
    have hread : (integer (.str s)).IsValid ↔ IntegerText.IsSpelled s := IntegerText.exists_read_iff
    rw [hread]
    constructor
    · exact .str
    · rintro (_ | _ | _ | h)
      exact h
  | null | arr | obj =>
    constructor
    · intro h
      exact absurd h (Checked.not_isValid_refuse _)
    · intro h
      cases h

theorem isValid_bit_iff {n : Int} : (bit n).IsValid ↔ n = 0 ∨ n = 1 := by
  unfold bit
  by_cases h₀ : n = 0
  · simp [h₀]
  · by_cases h₁ : n = 1
    · simp [h₁]
    · simp [h₀, h₁]

/-- Only letters of the basic alphabet lose their case, and a text with a surrogate is no word. -/
theorem isValid_word_iff {s : Text} :
    (word s).IsValid ↔
      ∃ cs : List Char, s = cs.map .char ∧ String.ofList (cs.map Char.toLower) ∈ truthWords := by
  have hwords : ∀ w, w ∈ truthWords ↔ trueWords.contains w = true ∨ falseWords.contains w = true := by
    intro w
    rw [List.contains_iff_mem, List.contains_iff_mem, ← List.mem_append]
    rfl
  have hchars : ∀ {cs : List Char}, s.chars? = some cs →
      ((word s).IsValid ↔ String.ofList (cs.map Char.toLower) ∈ truthWords) := by
    intro cs hs
    simp only [word, hs, hwords]
    cases trueWords.contains (String.ofList (cs.map Char.toLower)) with
    | true => simp
    | false => cases falseWords.contains (String.ofList (cs.map Char.toLower)) <;> simp
  constructor
  · intro h
    cases hs : s.chars? with
    | none =>
      rw [word, hs] at h
      exact absurd h (Checked.not_isValid_refuse _)
    | some cs => exact ⟨cs, Text.eq_map_char_of_chars? hs, (hchars hs).mp h⟩
  · rintro ⟨cs, rfl, h⟩
    exact (hchars (Text.chars?_map_char cs)).mpr h

/-- The size of an integer is looked at first, but the two that are taken are small enough. -/
theorem isValid_boolean_int_iff {n : Int} : (boolean (.int n)).IsValid ↔ n = 0 ∨ n = 1 := by
  have hpow : Int.pow 2 63 = 9223372036854775808 := rfl
  simp only [boolean]
  by_cases hsize : -Int.pow 2 63 ≤ n ∧ n < Int.pow 2 63
  · rw [if_pos hsize, isValid_bit_iff]
  · rw [if_neg hsize]
    simp only [Checked.not_isValid_refuse, false_iff]
    omega

theorem isValid_boolean_float_iff {x : Binary64} :
    (boolean (.float x)).IsValid ↔ x.Equals 0 ∨ x.Equals 1 := by
  have hsmall : ∀ n : Int, n = 0 ∨ n = 1 → x.Equals n → integral x = .valid n := by
    intro n hn h
    have hpow : Nat.pow 2 63 = 9223372036854775808 := rfl
    exact integral_eq_valid_iff.mpr ⟨h, by omega⟩
  simp only [boolean]
  constructor
  · intro h
    cases hx : integral x with
    | invalid issues =>
      simp only [hx] at h
      exact absurd h (Checked.not_isValid_refuse _)
    | valid n =>
      simp only [hx, isValid_bit_iff] at h
      obtain ⟨hn, -⟩ := integral_eq_valid_iff.mp hx
      rcases h with rfl | rfl
      · exact .inl hn
      · exact .inr hn
  · rintro (h | h)
    · simp [hsmall 0 (.inl rfl) h, bit]
    · simp [hsmall 1 (.inr rfl) h, bit]

/-- The reader of booleans takes the values that count as booleans. -/
@[simp] theorem isValid_boolean_iff {v : Json} : (boolean v).IsValid ↔ IsBoolean v := by
  cases v with
  | bool b => exact ⟨fun _ => .bool b, fun _ => ⟨b, rfl⟩⟩
  | int n =>
    rw [isValid_boolean_int_iff]
    constructor
    · exact .int
    · rintro (_ | h)
      exact h
  | float x =>
    rw [isValid_boolean_float_iff]
    constructor
    · exact .float
    · rintro (_ | _ | h)
      exact h
  | str s =>
    have hword : (boolean (.str s)).IsValid ↔ _ := isValid_word_iff
    rw [hword]
    constructor
    · rintro ⟨cs, rfl, h⟩
      exact .str h
    · rintro (_ | _ | _ | h)
      exact ⟨_, rfl, h⟩
  | null | arr | obj =>
    constructor
    · intro h
      exact absurd h (Checked.not_isValid_refuse _)
    · intro h
      cases h

variable {α : Type} {read : Json → Checked α}

@[simp] theorem isValid_listOf_iff {v : Json} :
    (listOf read v).IsValid ↔ IsListOf (fun w => (read w).IsValid) v := by
  cases v with
  | arr items => simp [listOf, IsListOf, Checked.isValid_listFrom_iff]
  | _ => simp [listOf, IsListOf]

theorem isValid_recordOf_iff {name : String} {read : Members → Checked α} {v : Json} :
    (recordOf name read v).IsValid ↔ ∃ members, v = .obj members ∧ (read members).IsValid := by
  cases v <;> simp [recordOf]

/-! ## Readers of fields -/

theorem entry?_eq_member? (name : Text) (members : Members) :
    Text.entry? name members = (Json.obj members).member? name :=
  rfl

@[simp] theorem isValid_required_iff {name : String} {members : Members} :
    (required name read members).IsValid ↔ Has (.obj members) name fun w => (read w).IsValid := by
  rw [required, entry?_eq_member?, Has]
  cases (Json.obj members).member? name <;> simp

@[simp] theorem isValid_withDefault_iff {name : String} {default : α} {members : Members} :
    (withDefault name default read members).IsValid ↔
      MayHave (.obj members) name fun w => (read w).IsValid := by
  rw [withDefault, entry?_eq_member?, MayHave]
  cases (Json.obj members).member? name <;> simp

/-- Under an optional field null stands for its absence. -/
@[simp] theorem isValid_optional_iff {name : String} {members : Members} :
    (optional name read members).IsValid ↔
      MayHave (.obj members) name (OrNull fun w => (read w).IsValid) := by
  have hmap : ∀ w, ((read w).map some).IsValid ↔ (read w).IsValid :=
    fun w => Checked.isValid_map_iff (f := some)
  rw [optional, entry?_eq_member?, MayHave]
  cases (Json.obj members).member? name with
  | none => simp
  | some w => cases w <;> simp [OrNull, hmap]

/-- Of the two names of a field the first one hides the second. -/
@[simp] theorem isValid_aliased_iff {other name : String} {default : α} {members : Members} :
    (aliased other name default read members).IsValid ↔
      MayHaveAs (.obj members) other name fun w => (read w).IsValid := by
  rw [aliased, entry?_eq_member?, MayHaveAs]
  cases h : (Json.obj members).member? other <;> simp [h, MayHave]

end Field

end Lowering
