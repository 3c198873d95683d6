import DumpConversion.Bytes.Utf8
import Mathlib.Data.List.Basic

/-! # Encoding and decoding again

What is written as UTF-8 is read back, character by character: the encoding of a character takes one
to four bytes, and the first of them tells how many.

* `Utf8.decodeChar_encode`: the character at the front of an encoded text.
* `Utf8.decode_encode`: the whole text.
-/

namespace DumpConversion.Utf8

set_option autoImplicit false

/-! ## Bytes by their numbers -/

variable {a b : UInt8}

theorem isTail_iff : isTail b = true ↔ 128 ≤ b.toNat ∧ b.toNat ≤ 191 := by
  rw [isTail, Bool.and_eq_true, decide_eq_true_eq, decide_eq_true_eq, UInt8.le_iff_toNat_le,
    UInt8.le_iff_toNat_le]
  rfl

theorem isSecond_of_bounds (hb : 128 ≤ b.toNat ∧ b.toNat ≤ 191)
    (hE0 : a.toNat = 0xE0 → 0xA0 ≤ b.toNat) (hED : a.toNat = 0xED → b.toNat ≤ 0x9F)
    (hF0 : a.toNat = 0xF0 → 0x90 ≤ b.toNat) (hF4 : a.toNat = 0xF4 → b.toNat ≤ 0x8F) :
    isSecond a b = true := by
  rw [isSecond, isTail_iff.mpr hb, Bool.true_and]
  simp only [UInt8.le_iff_toNat_le, ← UInt8.toNat_inj]
  split_ifs with h1 h2 h3 h4
  · exact decide_eq_true (hE0 h1)
  · exact decide_eq_true (hED h2)
  · exact decide_eq_true (hF0 h3)
  · exact decide_eq_true (hF4 h4)
  · rfl

/-! ## Sequences by their first bytes -/

variable {c d : UInt8} {rest : Bytes}

theorem decodeChar_one (ha : a.toNat ≤ 127) :
    decodeChar (a :: rest) = some (Char.ofNat a.toNat, rest) := by
  have h : a ≤ 0x7F := UInt8.le_iff_toNat_le.mpr ha
  unfold decodeChar
  simp only
  rw [if_pos h]

theorem decodeChar_two (ha : 194 ≤ a.toNat ∧ a.toNat ≤ 223) (hb : isTail b = true) :
    decodeChar (a :: b :: rest) =
      some (Char.ofNat (a.toNat % 32 * 64 + tailBits b), rest) := by
  have h1 : ¬ a ≤ 0x7F := fun h => by
    have : a.toNat ≤ 127 := UInt8.le_iff_toNat_le.mp h
    omega
  have h2 : 0xC2 ≤ a ∧ a ≤ 0xDF := ⟨UInt8.le_iff_toNat_le.mpr ha.1, UInt8.le_iff_toNat_le.mpr ha.2⟩
  unfold decodeChar
  simp only
  rw [if_neg h1, if_pos h2, if_pos hb]

theorem decodeChar_three (ha : 224 ≤ a.toNat ∧ a.toNat ≤ 239) (hb : isSecond a b = true)
    (hc : isTail c = true) :
    decodeChar (a :: b :: c :: rest) =
      some (Char.ofNat ((a.toNat % 16 * 64 + tailBits b) * 64 + tailBits c), rest) := by
  have h1 : ¬ a ≤ 0x7F := fun h => by
    have : a.toNat ≤ 127 := UInt8.le_iff_toNat_le.mp h
    omega
  have h2 : ¬ (0xC2 ≤ a ∧ a ≤ 0xDF) := fun h => by
    have : a.toNat ≤ 223 := UInt8.le_iff_toNat_le.mp h.2
    omega
  have h3 : 0xE0 ≤ a ∧ a ≤ 0xEF := ⟨UInt8.le_iff_toNat_le.mpr ha.1, UInt8.le_iff_toNat_le.mpr ha.2⟩
  unfold decodeChar
  simp only
  rw [if_neg h1, if_neg h2, if_pos h3, if_pos (by rw [hb, hc]; rfl)]

theorem decodeChar_four (ha : 240 ≤ a.toNat ∧ a.toNat ≤ 244) (hb : isSecond a b = true)
    (hc : isTail c = true) (hd : isTail d = true) :
    decodeChar (a :: b :: c :: d :: rest) =
      some (Char.ofNat (((a.toNat % 8 * 64 + tailBits b) * 64 + tailBits c) * 64 + tailBits d),
        rest) := by
  have h1 : ¬ a ≤ 0x7F := fun h => by
    have : a.toNat ≤ 127 := UInt8.le_iff_toNat_le.mp h
    omega
  have h2 : ¬ (0xC2 ≤ a ∧ a ≤ 0xDF) := fun h => by
    have : a.toNat ≤ 223 := UInt8.le_iff_toNat_le.mp h.2
    omega
  have h3 : ¬ (0xE0 ≤ a ∧ a ≤ 0xEF) := fun h => by
    have : a.toNat ≤ 239 := UInt8.le_iff_toNat_le.mp h.2
    omega
  have h4 : 0xF0 ≤ a ∧ a ≤ 0xF4 := ⟨UInt8.le_iff_toNat_le.mpr ha.1, UInt8.le_iff_toNat_le.mpr ha.2⟩
  unfold decodeChar
  simp only
  rw [if_neg h1, if_neg h2, if_neg h3, if_pos h4, if_pos (by rw [hb, hc, hd]; rfl)]

/-! ## One character -/

theorem toNat_byte {n : Nat} (h : n < 256) : (UInt8.ofNat n).toNat = n := by
  rw [UInt8.toNat_ofNat']
  exact Nat.mod_eq_of_lt h

theorem toNat_ofNat {n : Nat} (h : n.isValidChar) : (Char.ofNat n).val.toNat = n := by
  rw [Char.ofNat, dif_pos h]
  rfl

theorem isTail_byte (n : Nat) : isTail (UInt8.ofNat (n % 64 + 128)) = true := by
  rw [isTail_iff, toNat_byte (by omega)]
  omega

theorem tailBits_byte (n : Nat) : tailBits (UInt8.ofNat (n % 64 + 128)) = n % 64 := by
  rw [tailBits, toNat_byte (by omega)]
  omega

/-- The bounds of a second byte keep out overlong forms, surrogates and what lies above U+10FFFF. -/
theorem isSecond_byte {a n : Nat} (ha : a < 256) (hE0 : a = 0xE0 → 32 ≤ n % 64)
    (hED : a = 0xED → n % 64 < 32) (hF0 : a = 0xF0 → 16 ≤ n % 64) (hF4 : a = 0xF4 → n % 64 < 16) :
    isSecond (UInt8.ofNat a) (UInt8.ofNat (n % 64 + 128)) = true := by
  apply isSecond_of_bounds
  all_goals rw [toNat_byte (show n % 64 + 128 < 256 by omega)]
  · omega
  all_goals rw [toNat_byte ha]; omega

theorem decodeChar_encode (c : Char) (rest : Bytes) :
    decodeChar (String.utf8EncodeChar c ++ rest) = some (c, rest) := by
  have hvalid : c.val.toNat < 0xD800 ∨ 0xDFFF < c.val.toNat ∧ c.val.toNat < 0x110000 := c.valid
  have hback : Char.ofNat c.val.toNat = c := Char.ofNat_toNat c
  unfold String.utf8EncodeChar
  simp only
  generalize c.val.toNat = v at hvalid hback
  split_ifs with h1 h2 h3
  · have ha := toNat_byte (show v < 256 by omega)
    rw [List.singleton_append, decodeChar_one (by omega), ha, hback]
  · have ha := toNat_byte (show v / 64 % 32 + 192 < 256 by omega)
    have hsum : (v / 64 % 32 + 192) % 32 * 64 + v % 64 = v := by omega
    rw [List.cons_append, List.singleton_append, decodeChar_two (by omega) (isTail_byte v), ha,
      tailBits_byte, hsum, hback]
  · have ha := toNat_byte (show v / 4096 % 16 + 224 < 256 by omega)
    have hb : isSecond (UInt8.ofNat (v / 4096 % 16 + 224)) (UInt8.ofNat (v / 64 % 64 + 128)) = true :=
      isSecond_byte (by omega) (by omega) (by omega) (by omega) (by omega)
    have hsum : ((v / 4096 % 16 + 224) % 16 * 64 + v / 64 % 64) * 64 + v % 64 = v := by omega
    rw [List.cons_append, List.cons_append, List.singleton_append,
      decodeChar_three (by omega) hb (isTail_byte v), ha, tailBits_byte, tailBits_byte, hsum, hback]
  · have ha := toNat_byte (show v / 262144 % 8 + 240 < 256 by omega)
    have hb : isSecond (UInt8.ofNat (v / 262144 % 8 + 240)) (UInt8.ofNat (v / 4096 % 64 + 128)) =
        true :=
      isSecond_byte (by omega) (by omega) (by omega) (by omega) (by omega)
    have hsum : (((v / 262144 % 8 + 240) % 8 * 64 + v / 4096 % 64) * 64 + v / 64 % 64) * 64 +
        v % 64 = v := by omega
    rw [List.cons_append, List.cons_append, List.cons_append, List.singleton_append,
      decodeChar_four (by omega) hb (isTail_byte (v / 64)) (isTail_byte v), ha, tailBits_byte,
      tailBits_byte, tailBits_byte, hsum, hback]

/-! ## Whole texts -/

theorem decodeFront_encode (s : Text) : decodeFront (encode s) = (s, []) := by
  induction s with
  | nil => exact decodeFront_nil
  | cons c s ih =>
    have hchar := decodeChar_encode c (encode s)
    rw [encode_cons, decodeFront]
    split
    · next hnone =>
      rw [hchar] at hnone
      cases hnone
    · next d rest hsome =>
      rw [hchar] at hsome
      cases hsome
      simp only [ih]

theorem decode_encode (s : Text) : decode (encode s) = .ok s := by
  rw [decode, decodeFront_encode]

end DumpConversion.Utf8
