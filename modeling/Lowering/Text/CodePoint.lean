/-!
# Texts

A text is a sequence of code points. Besides characters it may hold surrogates, which stand for no
character by themselves: the texts without surrogates are the texts of strings.

* `Text.ofString` is the text of a string; strings are texts by coercion;
* `Text.toString?` is the string of a text, if it has one;
* `Text.joinWith` puts texts one after the other with a separator between neighbours;
* `Text.entry?` looks a name up in a list of named entries.
-/

namespace Lowering

/-- A code point: a character, or one of the surrogates from U+D800 to U+DFFF. -/
inductive CodePoint where
  | char (c : Char)
  | surrogate (index : Fin 2048)
deriving DecidableEq, Repr

namespace CodePoint

/-- The number of a code point. -/
def toNat : CodePoint → Nat
  | .char c => c.toNat
  | .surrogate index => 0xD800 + index

/-- The code point of a number below 0x110000. -/
def ofNat (n : Nat) : CodePoint :=
  if h : 0xD800 ≤ n ∧ n < 0xE000 then .surrogate ⟨n - 0xD800, by omega⟩ else .char (Char.ofNat n)

/-- The character that a code point is. -/
def char? : CodePoint → Option Char
  | .char c => some c
  | .surrogate _ => none

end CodePoint

/-- A sequence of code points. -/
abbrev Text := List CodePoint

namespace Text

/-- The text of a string. -/
def ofString (s : String) : Text :=
  s.toList.map .char

instance : Coe String Text := ⟨ofString⟩

/-- The characters of a text without surrogates. -/
def chars? : Text → Option (List Char)
  | [] => some []
  | .char c :: rest => (chars? rest).map (c :: ·)
  | .surrogate _ :: _ => none

/-- The string of a text without surrogates. -/
def toString? (t : Text) : Option String :=
  (chars? t).map String.ofList

/-- A text as a string; a surrogate shows as the replacement character. -/
def shown (t : Text) : String :=
  String.ofList (t.map fun p => p.char?.getD '\uFFFD')

/-- The first entry of a name. -/
def entry? {α : Type} (name : Text) (entries : List (Text × α)) : Option α :=
  entries.lookup name

/-- The texts with `separator` between neighbours. -/
def joinWith (separator : Text) : List Text → Text
  | [] => []
  | [t] => t
  | t :: u :: rest => t ++ separator ++ joinWith separator (u :: rest)

@[simp] theorem joinWith_nil (separator : Text) : joinWith separator [] = [] := rfl

@[simp] theorem joinWith_singleton (separator t : Text) : joinWith separator [t] = t := rfl

@[simp] theorem joinWith_cons_cons (separator t u : Text) (rest : List Text) :
    joinWith separator (t :: u :: rest) = t ++ separator ++ joinWith separator (u :: rest) := rfl

theorem chars?_map_char (cs : List Char) : chars? (cs.map .char) = some cs := by
  induction cs with
  | nil => rfl
  | cons c rest ih => simp [chars?, ih]

/-- A string can be read off its text. -/
theorem toString?_ofString (s : String) : toString? (ofString s) = some s := by
  simp [toString?, ofString, chars?_map_char]

end Text

end Lowering
