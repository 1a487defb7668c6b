import Lowering.Numeric.Numeral
import Lowering.Text.CodePoint

/-!
# UTF-8

Texts are encoded as octets, and octets are read back piece by piece. A piece is either a
character or a maximal broken part: the longest start of a character that the octets still allow,
or one octet that starts no character.

* `encode` is the octets of a text; a surrogate has none;
* `pieces` splits octets into characters and broken parts;
* `decode` is the text of octets without a broken part, and otherwise says which part is the first
  one, where it starts and why it is broken;
* `lossyLength` counts the pieces, a broken part like one character.
-/

namespace Lowering.Utf8

/-- The first surrogates of a text, and how many code points are in front of them. -/
structure EncodeError where
  offset : Nat
  first : Fin 2048
  count : Nat
deriving DecidableEq, Repr

/-- The octets of a text that starts at an offset. -/
def encodeFrom (offset : Nat) : Text → Except EncodeError (List UInt8)
  | [] => .ok []
  | .char c :: rest => (encodeFrom (offset + 1) rest).map (String.utf8EncodeChar c ++ ·)
  | .surrogate index :: rest =>
    .error ⟨offset, index, (rest.takeWhile fun p => p.char?.isNone).length + 1⟩

/-- The octets of a text. -/
def encode (t : Text) : Except EncodeError (List UInt8) :=
  encodeFrom 0 t

/-- Why a part of an octet sequence is no character. -/
inductive Defect where
  | start
  | continuation
  | truncated
deriving DecidableEq, Repr

/-- A character, or a part that is none. -/
inductive Piece where
  | char (c : Char)
  | broken (octets : List UInt8) (defect : Defect)
deriving DecidableEq, Repr

/-- A character that has begun: the octets seen, the bits collected, the octets owed besides the
next one, and the range in which the next one lies. -/
structure Pending where
  seen : List UInt8
  bits : Nat
  owed : Nat
  low : Nat := 0x80
  high : Nat := 0xBF

/-- What the first octet of a character begins. -/
inductive Opening where
  | char (c : Char)
  | pending (p : Pending)
  | bad

/-- The meaning of an octet between characters. -/
def opening (b : UInt8) : Opening :=
  let n := b.toNat
  if n < 0x80 then .char (Char.ofNat n)
  else if n < 0xC2 then .bad
  else if n < 0xE0 then .pending ⟨[b], n - 0xC0, 0, 0x80, 0xBF⟩
  else if n = 0xE0 then .pending ⟨[b], 0, 1, 0xA0, 0xBF⟩
  else if n = 0xED then .pending ⟨[b], 0xD, 1, 0x80, 0x9F⟩
  else if n < 0xF0 then .pending ⟨[b], n - 0xE0, 1, 0x80, 0xBF⟩
  else if n = 0xF0 then .pending ⟨[b], 0, 2, 0x90, 0xBF⟩
  else if n < 0xF4 then .pending ⟨[b], n - 0xF0, 2, 0x80, 0xBF⟩
  else if n = 0xF4 then .pending ⟨[b], 4, 2, 0x80, 0x8F⟩
  else .bad

/-- The pieces of an octet sequence, with a character possibly begun before it. An octet that
cannot continue the begun character ends it and is read again as a first octet. -/
def piecesFrom : Option Pending → List UInt8 → List Piece
  | none, [] => []
  | some p, [] => [.broken p.seen .truncated]
  | none, b :: rest =>
    match opening b with
    | .char c => .char c :: piecesFrom none rest
    | .pending p => piecesFrom (some p) rest
    | .bad => .broken [b] .start :: piecesFrom none rest
  | some p, b :: rest =>
    let n := b.toNat
    if p.low ≤ n ∧ n ≤ p.high then
      let bits := p.bits * 64 + (n - 0x80)
      match p.owed with
      | 0 => .char (Char.ofNat bits) :: piecesFrom none rest
      | owed + 1 => piecesFrom (some ⟨p.seen ++ [b], bits, owed, 0x80, 0xBF⟩) rest
    else
      .broken p.seen .continuation ::
        match opening b with
        | .char c => .char c :: piecesFrom none rest
        | .pending q => piecesFrom (some q) rest
        | .bad => .broken [b] .start :: piecesFrom none rest

/-- The characters and broken parts of an octet sequence. -/
def pieces (octets : List UInt8) : List Piece :=
  piecesFrom none octets

/-- A broken part and the octets in front of it. -/
structure DecodeError where
  offset : Nat
  octets : List UInt8
  defect : Defect
deriving DecidableEq, Repr

/-- The characters of pieces that start `offset` octets into a sequence, up to the first broken
part. -/
def chars (offset : Nat) : List Piece → Except DecodeError Text
  | [] => .ok []
  | .char c :: rest =>
    (chars (offset + (String.utf8EncodeChar c).length) rest).map (CodePoint.char c :: ·)
  | .broken octets defect :: _ => .error ⟨offset, octets, defect⟩

/-- The text of an octet sequence. -/
def decode (octets : List UInt8) : Except DecodeError Text :=
  chars 0 (pieces octets)

/-- The number of characters when each broken part stands for one. -/
def lossyLength (octets : List UInt8) : Nat :=
  (pieces octets).length

/-- Why the part is broken, in words. -/
def Defect.message : Defect → String
  | .start => "invalid start byte"
  | .continuation => "invalid continuation byte"
  | .truncated => "unexpected end of data"

/-- The first surrogates in words: the surrogate and its offset, or the range of offsets. -/
def EncodeError.message (e : EncodeError) : String :=
  "'utf-8' codec can't encode " ++
    (if e.count = 1 then
      "character '\\u" ++
        String.ofList (Text.hexDigits 4 (CodePoint.surrogate e.first).toNat) ++
        "' in position " ++ toString e.offset
    else
      "characters in position " ++ toString e.offset ++ "-" ++ toString (e.offset + e.count - 1)) ++
    ": surrogates not allowed"

/-- The first broken part in words: the octet and its offset, or the range of offsets. -/
def DecodeError.message (e : DecodeError) : String :=
  match e.octets with
  | [b] =>
    "'utf-8' codec can't decode byte 0x" ++ String.ofList (Text.hexDigits 2 b.toNat) ++
      " in position " ++ toString e.offset ++ ": " ++ e.defect.message
  | octets =>
    "'utf-8' codec can't decode bytes in position " ++ toString e.offset ++ "-" ++
      toString (e.offset + octets.length - 1) ++ ": " ++ e.defect.message

end Lowering.Utf8
