import DumpConversion.Text.Blank

/-! # UTF-8

The encoding form of RFC 3629 between texts and bytes.

* `encode`: the bytes of a text.
* `decodeChar`: the character at the front of a byte string, if a well-formed sequence stands there:
  no overlong form, no surrogate, nothing above U+10FFFF, nothing cut off.
* `decodeFront`: the longest decodable front of a byte string and the bytes after it.
* `decode`: the whole byte string, or the offset of the first byte that belongs to no character.
* `decodeLossy`: every maximal broken sequence becomes one replacement character.
-/

namespace DumpConversion

set_option autoImplicit false

/-- A byte string. -/
abbrev Bytes := List UInt8

namespace Utf8

/-! ## Encoding -/

/-- The bytes of a text. -/
def encode (s : Text) : Bytes := s.flatMap String.utf8EncodeChar

@[simp] theorem encode_nil : encode [] = [] := rfl

@[simp] theorem encode_cons (c : Char) (s : Text) :
    encode (c :: s) = String.utf8EncodeChar c ++ encode s := rfl

@[simp] theorem encode_append (s t : Text) : encode (s ++ t) = encode s ++ encode t := by
  simp [encode]

/-! ## One character -/

/-- A continuation byte. -/
def isTail (b : UInt8) : Bool := decide (0x80 ≤ b) && decide (b ≤ 0xBF)

/-- The second bytes allowed after the lead byte of a sequence of three or four bytes. -/
def isSecond (lead b : UInt8) : Bool :=
  isTail b &&
    (if lead = 0xE0 then decide (0xA0 ≤ b)
    else if lead = 0xED then decide (b ≤ 0x9F)
    else if lead = 0xF0 then decide (0x90 ≤ b)
    else if lead = 0xF4 then decide (b ≤ 0x8F)
    else true)

/-- The payload of a continuation byte. -/
def tailBits (b : UInt8) : Nat := b.toNat % 64

/-- The character at the front of a byte string and the bytes after it, if a well-formed sequence
stands there. -/
def decodeChar : Bytes → Option (Char × Bytes)
  | [] => none
  | a :: s =>
    if a ≤ 0x7F then some (Char.ofNat a.toNat, s)
    else if 0xC2 ≤ a ∧ a ≤ 0xDF then
      match s with
      | b :: s =>
        if isTail b then some (Char.ofNat (a.toNat % 32 * 64 + tailBits b), s) else none
      | _ => none
    else if 0xE0 ≤ a ∧ a ≤ 0xEF then
      match s with
      | b :: c :: s =>
        if isSecond a b && isTail c then
          some (Char.ofNat ((a.toNat % 16 * 64 + tailBits b) * 64 + tailBits c), s)
        else none
      | _ => none
    else if 0xF0 ≤ a ∧ a ≤ 0xF4 then
      match s with
      | b :: c :: d :: s =>
        if isSecond a b && isTail c && isTail d then
          some
            (Char.ofNat (((a.toNat % 8 * 64 + tailBits b) * 64 + tailBits c) * 64 + tailBits d), s)
        else none
      | _ => none
    else none

theorem decodeChar_length {s rest : Bytes} {c : Char} (h : decodeChar s = some (c, rest)) :
    rest.length < s.length := by
  unfold decodeChar at h
  repeat' split at h
  all_goals try contradiction
  all_goals
    simp only [Option.some.injEq, Prod.mk.injEq] at h
    obtain ⟨-, rfl⟩ := h
    simp only [List.length_cons]
    omega

/-! ## Whole byte strings -/

/-- The text of the longest decodable front, and the bytes after it. -/
def decodeFront (s : Bytes) : Text × Bytes :=
  match h : decodeChar s with
  | none => ([], s)
  | some (c, rest) =>
    have : rest.length < s.length := decodeChar_length h
    let r := decodeFront rest
    (c :: r.1, r.2)
termination_by s.length

/-- The text of a byte string, or the length of its longest decodable front. -/
def decode (s : Bytes) : Except Nat Text :=
  match decodeFront s with
  | (text, []) => .ok text
  | (_, rest) => .error (s.length - rest.length)

/-- How many bytes at the front of an undecodable byte string belong to one broken sequence: as many
as could begin a well-formed one, and at least one. -/
def brokenLength : Bytes → Nat
  | a :: b :: s =>
    if 0xE0 ≤ a ∧ a ≤ 0xEF ∧ isSecond a b then 2
    else if 0xF0 ≤ a ∧ a ≤ 0xF4 ∧ isSecond a b then
      match s with
      | c :: _ => if isTail c then 3 else 2
      | [] => 2
    else 1
  | _ => 1

theorem brokenLength_pos (s : Bytes) : 0 < brokenLength s := by
  unfold brokenLength
  repeat' split
  all_goals omega

/-- The character that stands for a broken sequence. -/
def replacement : Char := '\uFFFD'

/-- The text of a byte string in which every broken sequence gives one replacement character. -/
def decodeLossy : Bytes → Text
  | [] => []
  | b :: t =>
    match h : decodeChar (b :: t) with
    | some (c, rest) =>
      have : rest.length < (b :: t).length := decodeChar_length h
      c :: decodeLossy rest
    | none =>
      have := brokenLength_pos (b :: t)
      replacement :: decodeLossy ((b :: t).drop (brokenLength (b :: t)))
termination_by s => s.length
decreasing_by
  · exact this
  · rw [List.length_drop, List.length_cons]
    omega

/-! ## Small lemmas -/

@[simp] theorem decodeChar_nil : decodeChar [] = none := rfl

theorem decodeFront_nil : decodeFront [] = ([], []) := by
  rw [decodeFront]
  rfl

end Utf8

end DumpConversion
