import Lowering.Script.Statement

/-!
# Reading back UTF-8

The texts that have octets are those without surrogates. The octets between two offsets that lie
between characters of such a text are read back as the text between them. An offset counts octets;
whether it lies between two characters is said of the text, not of what reading makes of the octets.

* `Text.IsClean`, `exists_encode_iff`: the texts without surrogates are those that have octets;
* `OnBoundary`: an offset between two characters of a text;
* `decode_slice`: the octets between two such offsets are read back as the text between them.
-/

namespace Lowering

/-! ## Texts without surrogates -/

namespace Text

/-- A text without surrogates. -/
def IsClean (t : Text) : Prop :=
  ∀ index, CodePoint.surrogate index ∉ t

theorem isClean_nil : IsClean [] :=
  fun _ => List.not_mem_nil

theorem isClean_cons {p : CodePoint} {t : Text} :
    IsClean (p :: t) ↔ (∀ index, p ≠ .surrogate index) ∧ t.IsClean := by
  simp only [IsClean, List.mem_cons, not_or, forall_and, ne_eq, eq_comm]

theorem isClean_append {s t : Text} : (s ++ t).IsClean ↔ s.IsClean ∧ t.IsClean := by
  simp only [IsClean, List.mem_append, not_or, forall_and]

theorem isClean_ofString (s : String) : (ofString s).IsClean := by
  intro index hmem
  obtain ⟨c, -, hc⟩ := List.mem_map.mp hmem
  cases hc

theorem IsClean.of_subset {s t : Text} (h : t.IsClean) (hs : s ⊆ t) : s.IsClean :=
  fun index hmem => h index (hs hmem)

theorem isClean_flatten {ts : List Text} : IsClean ts.flatten ↔ ∀ t ∈ ts, t.IsClean := by
  induction ts with
  | nil => exact iff_of_true isClean_nil (List.forall_mem_nil _)
  | cons t rest ih => rw [List.flatten_cons, isClean_append, ih, List.forall_mem_cons]

theorem isClean_joinWith {separator : Text} (hs : separator.IsClean) {ts : List Text} :
    (joinWith separator ts).IsClean ↔ ∀ t ∈ ts, t.IsClean := by
  induction ts with
  | nil => exact iff_of_true isClean_nil (List.forall_mem_nil _)
  | cons t rest ih =>
    cases rest with
    | nil => rw [joinWith_singleton, List.forall_mem_singleton]
    | cons u rest =>
      rw [joinWith_cons_cons, isClean_append, isClean_append, ih, and_iff_left hs,
        ← List.forall_mem_cons]

end Text

namespace Utf8

/-! ## The octets of a character -/

theorem toNat_octet {n : Nat} (h : n < 256) : (UInt8.ofNat n).toNat = n :=
  UInt8.toNat_ofNat_of_lt' h

theorem opening_two {n : Nat} (hlow : 0xC2 ≤ n) (hhigh : n < 0xE0) :
    opening (UInt8.ofNat n) = .pending ⟨[UInt8.ofNat n], n - 0xC0, 0, 0x80, 0xBF⟩ := by
  have hn : (UInt8.ofNat n).toNat = n := toNat_octet (by omega)
  simp only [opening, hn]
  rw [if_neg (by omega), if_neg (by omega), if_pos (by omega)]

theorem opening_three {n : Nat} (hlow : 0xE0 ≤ n) (hhigh : n < 0xF0) :
    opening (UInt8.ofNat n) =
      .pending ⟨[UInt8.ofNat n], n - 0xE0, 1, if n = 0xE0 then 0xA0 else 0x80,
        if n = 0xED then 0x9F else 0xBF⟩ := by
  have hn : (UInt8.ofNat n).toNat = n := toNat_octet (by omega)
  simp only [opening, hn]
  rw [if_neg (by omega), if_neg (by omega), if_neg (by omega)]
  by_cases h₁ : n = 0xE0
  · subst h₁
    rfl
  · by_cases h₂ : n = 0xED
    · subst h₂
      rfl
    · rw [if_neg h₁, if_neg h₂, if_pos hhigh, if_neg h₁, if_neg h₂]

theorem opening_four {n : Nat} (hlow : 0xF0 ≤ n) (hhigh : n ≤ 0xF4) :
    opening (UInt8.ofNat n) =
      .pending ⟨[UInt8.ofNat n], n - 0xF0, 2, if n = 0xF0 then 0x90 else 0x80,
        if n = 0xF4 then 0x8F else 0xBF⟩ := by
  have hn : (UInt8.ofNat n).toNat = n := toNat_octet (by omega)
  simp only [opening, hn]
  rw [if_neg (by omega), if_neg (by omega), if_neg (by omega), if_neg (by omega), if_neg (by omega),
    if_neg (by omega)]
  by_cases h₁ : n = 0xF0
  · subst h₁
    rfl
  · by_cases h₂ : n = 0xF4
    · subst h₂
      rfl
    · rw [if_neg h₁, if_pos (by omega), if_neg h₁, if_neg h₂]

theorem piecesFrom_first {b : UInt8} {p : Pending} (rest : List UInt8)
    (h : opening b = .pending p) :
    piecesFrom none (b :: rest) = piecesFrom (some p) rest := by
  rw [piecesFrom, h]

theorem piecesFrom_more {p : Pending} {n owed : Nat} (rest : List UInt8)
    (howed : p.owed = owed + 1) (hlow : p.low ≤ n) (hhigh : n ≤ p.high) (hn : n < 256) :
    piecesFrom (some p) (UInt8.ofNat n :: rest) =
      piecesFrom (some ⟨p.seen ++ [UInt8.ofNat n], p.bits * 64 + (n - 0x80), owed, 0x80, 0xBF⟩)
        rest := by
  simp only [piecesFrom, toNat_octet hn, howed]
  rw [if_pos ⟨hlow, hhigh⟩]

theorem piecesFrom_last {p : Pending} {n v : Nat} (rest : List UInt8) (howed : p.owed = 0)
    (hlow : p.low ≤ n) (hhigh : n ≤ p.high) (hn : n < 256)
    (hv : p.bits * 64 + (n - 0x80) = v) :
    piecesFrom (some p) (UInt8.ofNat n :: rest) = .char (Char.ofNat v) :: piecesFrom none rest := by
  simp only [piecesFrom, toNat_octet hn, howed, hv]
  rw [if_pos ⟨hlow, hhigh⟩]

theorem piecesFrom_two {v : Nat} (rest : List UInt8) (hlow : 0x7F < v) (hhigh : v ≤ 0x7FF) :
    piecesFrom none
        (UInt8.ofNat (v / 64 % 32 + 192) :: UInt8.ofNat (v % 64 + 128) :: rest) =
      .char (Char.ofNat v) :: piecesFrom none rest := by
  rw [piecesFrom_first _ (opening_two (by omega) (by omega))]
  exact piecesFrom_last rest rfl (by dsimp only; omega) (by dsimp only; omega) (by omega)
    (by dsimp only; omega)

/-- The range of the second octet excludes what two octets could hold, and the surrogates. -/
theorem piecesFrom_three {v : Nat} (rest : List UInt8) (hlow : 0x7FF < v) (hhigh : v ≤ 0xFFFF)
    (hs : v < 0xD800 ∨ 0xDFFF < v) :
    piecesFrom none
        (UInt8.ofNat (v / 4096 % 16 + 224) :: UInt8.ofNat (v / 64 % 64 + 128) ::
          UInt8.ofNat (v % 64 + 128) :: rest) =
      .char (Char.ofNat v) :: piecesFrom none rest := by
  rw [piecesFrom_first _ (opening_three (by omega) (by omega)),
    piecesFrom_more _ rfl (by dsimp only; split <;> omega) (by dsimp only; split <;> omega)
      (by omega)]
  exact piecesFrom_last rest rfl (by dsimp only; omega) (by dsimp only; omega) (by omega)
    (by dsimp only; omega)

/-- The range of the second octet excludes what three octets could hold, and numbers that are too
large. -/
theorem piecesFrom_four {v : Nat} (rest : List UInt8) (hlow : 0xFFFF < v) (hhigh : v < 0x110000) :
    piecesFrom none
        (UInt8.ofNat (v / 262144 % 8 + 240) :: UInt8.ofNat (v / 4096 % 64 + 128) ::
          UInt8.ofNat (v / 64 % 64 + 128) :: UInt8.ofNat (v % 64 + 128) :: rest) =
      .char (Char.ofNat v) :: piecesFrom none rest := by
  rw [piecesFrom_first _ (opening_four (by omega) (by omega)),
    piecesFrom_more _ rfl (by dsimp only; split <;> omega) (by dsimp only; split <;> omega)
      (by omega),
    piecesFrom_more _ rfl (by dsimp only; omega) (by dsimp only; omega) (by omega)]
  exact piecesFrom_last rest rfl (by dsimp only; omega) (by dsimp only; omega) (by omega)
    (by dsimp only; omega)

/-- The octets of a character are read as that character. -/
theorem piecesFrom_char (c : Char) (rest : List UInt8) :
    piecesFrom none (String.utf8EncodeChar c ++ rest) = .char c :: piecesFrom none rest := by
  have hv : c.val.toNat < 0xD800 ∨ (0xDFFF < c.val.toNat ∧ c.val.toNat < 0x110000) := c.valid
  have hc : Char.ofNat c.val.toNat = c := Char.ofNat_toNat c
  generalize hn : c.val.toNat = v at hv hc
  simp only [String.utf8EncodeChar, hn]
  rw [← hc]
  split
  · have hopen : opening (UInt8.ofNat v) = .char (Char.ofNat v) := by
      simp only [opening, toNat_octet (show v < 256 by omega)]
      rw [if_pos (by omega)]
    simp only [List.cons_append, List.nil_append, piecesFrom, hopen]
  · split
    · exact piecesFrom_two rest (by omega) (by omega)
    · split
      · exact piecesFrom_three rest (by omega) (by omega) (by omega)
      · exact piecesFrom_four rest (by omega) (by omega)

/-! ## The octets of a text -/

theorem pieces_flatMap (cs : List Char) :
    pieces (cs.flatMap String.utf8EncodeChar) = cs.map .char := by
  unfold pieces
  induction cs with
  | nil => rfl
  | cons c rest ih => rw [List.flatMap_cons, piecesFrom_char, ih, List.map_cons]

theorem chars_map_char (offset : Nat) (cs : List Char) :
    chars offset (cs.map .char) = .ok (cs.map .char) := by
  induction cs generalizing offset with
  | nil => rfl
  | cons c rest ih =>
    rw [List.map_cons, chars, ih]
    rfl

theorem decode_flatMap (cs : List Char) :
    decode (cs.flatMap String.utf8EncodeChar) = .ok (cs.map .char) := by
  rw [decode, pieces_flatMap, chars_map_char]

theorem encodeFrom_map_char (offset : Nat) (cs : List Char) :
    encodeFrom offset (cs.map .char) = .ok (cs.flatMap String.utf8EncodeChar) := by
  induction cs generalizing offset with
  | nil => rfl
  | cons c rest ih =>
    rw [List.map_cons, encodeFrom, ih]
    rfl

theorem exists_chars_of_encodeFrom {offset : Nat} {t : Text} {octets : List UInt8}
    (h : encodeFrom offset t = .ok octets) : ∃ cs : List Char, t = cs.map .char := by
  induction t generalizing offset octets with
  | nil => exact ⟨[], rfl⟩
  | cons p rest ih =>
    cases p with
    | surrogate index => cases h
    | char c =>
      rw [encodeFrom] at h
      cases hr : encodeFrom (offset + 1) rest with
      | error e => rw [hr] at h; cases h
      | ok more =>
        obtain ⟨cs, rfl⟩ := ih hr
        exact ⟨c :: cs, rfl⟩

/-- The texts that have octets are those of characters alone. -/
theorem encode_eq_ok_iff {t : Text} {octets : List UInt8} :
    encode t = .ok octets ↔
      ∃ cs : List Char, t = cs.map .char ∧ octets = cs.flatMap String.utf8EncodeChar := by
  constructor
  · intro h
    obtain ⟨cs, rfl⟩ := exists_chars_of_encodeFrom h
    rw [encode, encodeFrom_map_char] at h
    exact ⟨cs, rfl, (Except.ok.inj h).symm⟩
  · rintro ⟨cs, rfl, rfl⟩
    exact encodeFrom_map_char 0 cs

/-- A text has octets exactly if there is no surrogate in it. -/
theorem exists_encode_iff {t : Text} :
    (∃ octets, encode t = .ok octets) ↔ t.IsClean := by
  constructor
  · rintro ⟨octets, h⟩ index hmem
    obtain ⟨cs, rfl, -⟩ := encode_eq_ok_iff.mp h
    obtain ⟨c, -, hc⟩ := List.mem_map.mp hmem
    cases hc
  · intro h
    obtain ⟨cs, rfl⟩ : ∃ cs : List Char, t = cs.map .char := by
      induction t with
      | nil => exact ⟨[], rfl⟩
      | cons p rest ih =>
        cases p with
        | surrogate index => exact absurd List.mem_cons_self (h index)
        | char c =>
          obtain ⟨cs, rfl⟩ := ih fun index hmem => h index (List.mem_cons_of_mem _ hmem)
          exact ⟨c :: cs, rfl⟩
    exact ⟨_, encodeFrom_map_char 0 cs⟩

/-! ## Offsets between characters -/

/-- An offset that lies between two characters of a text, or at one of its ends: the octets in
front of it are those of the text `before`. -/
def OnBoundary (source before : Text) (offset : Int) : Prop :=
  ∃ after octets, source = before ++ after ∧ encode before = .ok octets ∧
    offset = (octets.length : Int)

theorem clip_natCast {length offset : Nat} (h : offset ≤ length) :
    Script.clip length offset = offset := by
  unfold Script.clip
  split <;> omega

theorem prefix_of_map_char {cs before : List Char} {after : Text}
    (h : cs.map CodePoint.char = before.map .char ++ after) : before <+: cs := by
  obtain ⟨cs₁, cs₂, rfl, h₁, -⟩ := List.map_eq_append_iff.mp h
  have hinj : cs₁ = before := (List.map_inj_right fun _ _ h => CodePoint.char.inj h).mp h₁
  exact hinj ▸ List.prefix_append cs₁ cs₂

/-- The octets between two offsets that lie between characters are read as the text between
them. If the second offset comes first, that text is empty. -/
theorem decode_slice {source before upto : Text} {octets : List UInt8} {start stop : Int}
    (h : encode source = .ok octets) (hstart : OnBoundary source before start)
    (hstop : OnBoundary source upto stop) :
    decode (Script.slice octets start stop) = .ok (upto.drop before.length) := by
  obtain ⟨cs, rfl, rfl⟩ := encode_eq_ok_iff.mp h
  obtain ⟨after₁, octets₁, hsplit₁, henc₁, rfl⟩ := hstart
  obtain ⟨after₂, octets₂, hsplit₂, henc₂, rfl⟩ := hstop
  obtain ⟨cs₁, rfl, rfl⟩ := encode_eq_ok_iff.mp henc₁
  obtain ⟨cs₂, rfl, rfl⟩ := encode_eq_ok_iff.mp henc₂
  have hp₁ := prefix_of_map_char hsplit₁
  have hp₂ := prefix_of_map_char hsplit₂
  have hlen : ∀ {xs : List Char}, xs <+: cs →
      (xs.flatMap String.utf8EncodeChar).length ≤ (cs.flatMap String.utf8EncodeChar).length := by
    rintro xs ⟨rest, rfl⟩
    simp
  rw [Script.slice, clip_natCast (hlen hp₁), clip_natCast (hlen hp₂)]
  have htake : (cs.flatMap String.utf8EncodeChar).take
      (cs₂.flatMap String.utf8EncodeChar).length = cs₂.flatMap String.utf8EncodeChar := by
    obtain ⟨rest, rfl⟩ := hp₂
    rw [List.flatMap_append, List.take_left]
  rw [htake, List.length_map]
  rcases List.prefix_or_prefix_of_prefix hp₁ hp₂ with ⟨part, rfl⟩ | ⟨part, rfl⟩
  · rw [List.flatMap_append, List.drop_left, decode_flatMap, List.map_append,
      List.drop_left' (by rw [List.length_map])]
  · rw [List.drop_eq_nil_of_le (by simp), List.drop_eq_nil_of_le (by simp)]
    rfl

end Utf8

end Lowering
