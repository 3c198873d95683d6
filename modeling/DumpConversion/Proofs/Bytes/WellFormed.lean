import DumpConversion.Dump.Scan
import DumpConversion.Proofs.Bytes.RoundTrip

/-! # Well-formed byte strings

A byte string is well formed when it is put together from encoded characters. Reading it character by
character finds them, and where it is not well formed, stops behind the longest front that is.

* `Utf8.Sequence`: the encodings of one character by the number of their bytes. The bounds of the
  second byte leave no overlong form, no surrogate and nothing above U+10FFFF.
* `Utf8.decodeChar_eq_some_iff`: a character is read exactly where its encoding stands.
* `Utf8.WellFormed`, `Utf8.LongestFront`: what decoding is compared with.
* `decode_utf8_longestFront`: what every byte string gives.
-/

namespace DumpConversion

set_option autoImplicit false

namespace Utf8

/-! ## Sequences -/

/-- The encodings of one character, with the code points they stand for. -/
inductive Sequence : Bytes → Nat → Prop where
  | one {a : UInt8} (ha : a.toNat ≤ 127) : Sequence [a] a.toNat
  | two {a b : UInt8} (ha : 194 ≤ a.toNat ∧ a.toNat ≤ 223) (hb : isTail b = true) :
    Sequence [a, b] (a.toNat % 32 * 64 + tailBits b)
  | three {a b c : UInt8} (ha : 224 ≤ a.toNat ∧ a.toNat ≤ 239) (hb : isSecond a b = true)
    (hc : isTail c = true) :
    Sequence [a, b, c] ((a.toNat % 16 * 64 + tailBits b) * 64 + tailBits c)
  | four {a b c d : UInt8} (ha : 240 ≤ a.toNat ∧ a.toNat ≤ 244) (hb : isSecond a b = true)
    (hc : isTail c = true) (hd : isTail d = true) :
    Sequence [a, b, c, d] (((a.toNat % 8 * 64 + tailBits b) * 64 + tailBits c) * 64 + tailBits d)

section

variable {a b : UInt8} {s rest front : Bytes} {c : Char} {v n : Nat}

theorem bounds_of_isSecond (h : isSecond a b = true) :
    (128 ≤ b.toNat ∧ b.toNat ≤ 191) ∧ (a.toNat = 0xE0 → 0xA0 ≤ b.toNat) ∧
      (a.toNat = 0xED → b.toNat ≤ 0x9F) ∧ (a.toNat = 0xF0 → 0x90 ≤ b.toNat) ∧
      (a.toNat = 0xF4 → b.toNat ≤ 0x8F) := by
  rw [isSecond, Bool.and_eq_true, isTail_iff] at h
  obtain ⟨hb, hlead⟩ := h
  simp only [UInt8.le_iff_toNat_le, ← UInt8.toNat_inj, UInt8.reduceToNat] at hlead
  split_ifs at hlead with h1 h2 h3 h4 <;> simp only [decide_eq_true_eq] at hlead <;> omega

theorem exists_sequence_of_decodeChar (h : decodeChar s = some (c, rest)) :
    ∃ front v, Sequence front v ∧ s = front ++ rest ∧ c = Char.ofNat v := by
  cases s with
  | nil => cases h
  | cons a s =>
    simp only [decodeChar] at h
    split_ifs at h with h1 h2 h3 h4
    · cases h
      exact ⟨[a], _, .one (UInt8.le_iff_toNat_le.mp h1), rfl, rfl⟩
    · have ha : 194 ≤ a.toNat ∧ a.toNat ≤ 223 :=
        ⟨UInt8.le_iff_toNat_le.mp h2.1, UInt8.le_iff_toNat_le.mp h2.2⟩
      split at h
      · next b t =>
        split_ifs at h with hb
        cases h
        exact ⟨[a, b], _, .two ha hb, rfl, rfl⟩
      · cases h
    · have ha : 224 ≤ a.toNat ∧ a.toNat ≤ 239 :=
        ⟨UInt8.le_iff_toNat_le.mp h3.1, UInt8.le_iff_toNat_le.mp h3.2⟩
      split at h
      · next b c t =>
        split_ifs at h with hbc
        obtain ⟨hb, hc⟩ := Bool.and_eq_true_iff.mp hbc
        cases h
        exact ⟨[a, b, c], _, .three ha hb hc, rfl, rfl⟩
      · cases h
    · have ha : 240 ≤ a.toNat ∧ a.toNat ≤ 244 :=
        ⟨UInt8.le_iff_toNat_le.mp h4.1, UInt8.le_iff_toNat_le.mp h4.2⟩
      split at h
      · next b c d t =>
        split_ifs at h with hbcd
        obtain ⟨hbc, hd⟩ := Bool.and_eq_true_iff.mp hbcd
        obtain ⟨hb, hc⟩ := Bool.and_eq_true_iff.mp hbc
        cases h
        exact ⟨[a, b, c, d], _, .four ha hb hc hd, rfl, rfl⟩
      · cases h

theorem ofNat_eq_byte (h : n = b.toNat) : UInt8.ofNat n = b := by
  rw [h]
  exact UInt8.ofNat_toNat

/-- No sequence is overlong, a surrogate or above U+10FFFF: each is the encoding of its character. -/
theorem Sequence.eq_encode (h : Sequence s v) : String.utf8EncodeChar (Char.ofNat v) = s := by
  cases h with
  | @one a ha =>
    have hv := toNat_ofNat (n := a.toNat) (.inl (by omega))
    simp only [String.utf8EncodeChar, hv, if_pos ha, UInt8.ofNat_toNat]
  | @two a b ha hb =>
    rw [isTail_iff] at hb
    simp only [tailBits]
    generalize hn : a.toNat % 32 * 64 + b.toNat % 64 = n
    have hv := toNat_ofNat (n := n) (.inl (by omega))
    simp only [String.utf8EncodeChar, hv]
    rw [if_neg (by omega), if_pos (by omega), ofNat_eq_byte (b := a) (by omega),
      ofNat_eq_byte (b := b) (by omega)]
  | @three a b c ha hb hc =>
    obtain ⟨hb, hE0, hED, -, -⟩ := bounds_of_isSecond hb
    rw [isTail_iff] at hc
    simp only [tailBits]
    generalize hn : (a.toNat % 16 * 64 + b.toNat % 64) * 64 + c.toNat % 64 = n
    have hv := toNat_ofNat (n := n) (by unfold Nat.isValidChar; omega)
    simp only [String.utf8EncodeChar, hv]
    rw [if_neg (by omega), if_neg (by omega), if_pos (by omega),
      ofNat_eq_byte (b := a) (by omega), ofNat_eq_byte (b := b) (by omega),
      ofNat_eq_byte (b := c) (by omega)]
  | @four a b c d ha hb hc hd =>
    obtain ⟨hb, -, -, hF0, hF4⟩ := bounds_of_isSecond hb
    rw [isTail_iff] at hc hd
    simp only [tailBits]
    generalize hn :
      ((a.toNat % 8 * 64 + b.toNat % 64) * 64 + c.toNat % 64) * 64 + d.toNat % 64 = n
    have hv := toNat_ofNat (n := n) (by unfold Nat.isValidChar; omega)
    simp only [String.utf8EncodeChar, hv]
    rw [if_neg (by omega), if_neg (by omega), if_neg (by omega),
      ofNat_eq_byte (b := a) (by omega), ofNat_eq_byte (b := b) (by omega),
      ofNat_eq_byte (b := c) (by omega), ofNat_eq_byte (b := d) (by omega)]

theorem decodeChar_eq_some_iff :
    decodeChar s = some (c, rest) ↔ s = String.utf8EncodeChar c ++ rest := by
  constructor
  · intro h
    obtain ⟨front, v, hfront, rfl, rfl⟩ := exists_sequence_of_decodeChar h
    rw [hfront.eq_encode]
  · rintro rfl
    exact decodeChar_encode c rest

theorem exists_sequence_encode (c : Char) : ∃ v, Sequence (String.utf8EncodeChar c) v := by
  have h := decodeChar_encode c []
  obtain ⟨front, v, hfront, happend, -⟩ := exists_sequence_of_decodeChar h
  rw [List.append_nil, List.append_nil] at happend
  rw [happend]
  exact ⟨v, hfront⟩

/-! ## Fronts -/

theorem decodeFront_of_none (h : decodeChar s = none) : decodeFront s = ([], s) := by
  rw [decodeFront]
  split
  · rfl
  · next c rest hsome =>
    rw [h] at hsome
    cases hsome

theorem decodeFront_encode_cons (c : Char) (rest : Bytes) :
    decodeFront (String.utf8EncodeChar c ++ rest) =
      (c :: (decodeFront rest).1, (decodeFront rest).2) := by
  have hchar := decodeChar_encode c rest
  rw [decodeFront]
  split
  · next hnone =>
    rw [hchar] at hnone
    cases hnone
  · next d t hsome =>
    rw [hchar] at hsome
    cases hsome
    rfl

theorem decodeFront_encode_append (text : Text) (rest : Bytes) :
    decodeFront (encode text ++ rest) =
      (text ++ (decodeFront rest).1, (decodeFront rest).2) := by
  induction text with
  | nil => rfl
  | cons c text ih =>
    rw [encode_cons, List.append_assoc, decodeFront_encode_cons, ih]
    rfl

theorem encode_decodeFront (s : Bytes) : encode (decodeFront s).1 ++ (decodeFront s).2 = s := by
  induction s using decodeFront.induct with
  | case1 s hnone =>
    rw [decodeFront_of_none hnone]
    rfl
  | case2 s c rest hsome _ ih =>
    obtain rfl := decodeChar_eq_some_iff.mp hsome
    rw [decodeFront_encode_cons, encode_cons, List.append_assoc, ih]

end

/-! ## Well-formed byte strings -/

/-- The byte string is put together from encoded characters. -/
def WellFormed (s : Bytes) : Prop := ∃ text, encode text = s

/-- The first `n` bytes are well formed, and no longer front is. -/
structure LongestFront (s : Bytes) (n : Nat) : Prop where
  le_length : n ≤ s.length
  wellFormed : WellFormed (s.take n)
  longest : ∀ k ≤ s.length, WellFormed (s.take k) → k ≤ n

theorem decode_eq_ok_iff {s : Bytes} {text : Text} : decode s = .ok text ↔ encode text = s := by
  constructor
  · intro h
    have hs := encode_decodeFront s
    rw [decode] at h
    split at h
    · next t heq =>
      cases h
      rwa [heq, List.append_nil] at hs
    · cases h
  · rintro rfl
    exact decode_encode text

theorem length_decodeFront (s : Bytes) :
    (encode (decodeFront s).1).length + (decodeFront s).2.length = s.length := by
  rw [← List.length_append, encode_decodeFront]

theorem take_length_decodeFront (s : Bytes) :
    s.take (encode (decodeFront s).1).length = encode (decodeFront s).1 := by
  calc s.take (encode (decodeFront s).1).length
      = (encode (decodeFront s).1 ++ (decodeFront s).2).take (encode (decodeFront s).1).length := by
        rw [encode_decodeFront]
    _ = encode (decodeFront s).1 := List.take_left

theorem longestFront_decodeFront (s : Bytes) : LongestFront s (encode (decodeFront s).1).length := by
  have hlength := length_decodeFront s
  refine ⟨by omega, ⟨_, (take_length_decodeFront s).symm⟩, ?_⟩
  rintro k hk ⟨text, htext⟩
  -- the characters of a well-formed front are the first of those that are read
  have hread : (decodeFront s).1 = text ++ (decodeFront (s.drop k)).1 := by
    have h := decodeFront_encode_append text (s.drop k)
    rw [htext, List.take_append_drop] at h
    rw [h]
  have hk' : (encode text).length = k := by
    rw [htext, List.length_take, Nat.min_eq_left hk]
  rw [hread, encode_append, List.length_append]
  omega

theorem decode_of_not_wellFormed {s : Bytes} (h : ¬ WellFormed s) :
    decode s = .error (encode (decodeFront s).1).length := by
  have hlength := length_decodeFront s
  rw [decode]
  split
  · next text hfront =>
    have hs := encode_decodeFront s
    rw [hfront, List.append_nil] at hs
    exact absurd ⟨text, hs⟩ h
  · next text rest _ hfront =>
    rw [hfront] at hlength ⊢
    rw [← hlength, Nat.add_sub_cancel]

end Utf8

/-- A byte string is decoded exactly when it is well formed, and the text encodes to it again. Any
other gives the length of its longest well-formed front, which is also all that a scan of it gives. -/
theorem decode_utf8_longestFront (raw : Bytes) :
    ((∃ text, Charset.utf8.decode raw = .ok text) ↔ Utf8.WellFormed raw) ∧
    (∀ text, Charset.utf8.decode raw = .ok text → Utf8.encode text = raw) ∧
    (¬ Utf8.WellFormed raw → ∃ offset, Utf8.LongestFront raw offset ∧
      Charset.utf8.decode raw = .error offset ∧
      sanitize .utf8 raw = .error (.undecodable .utf8 offset)) := by
  refine ⟨exists_congr fun text => Utf8.decode_eq_ok_iff, fun text => Utf8.decode_eq_ok_iff.mp,
    fun hill => ?_⟩
  have herror : Charset.utf8.decode raw = .error (Utf8.encode (Utf8.decodeFront raw).1).length :=
    Utf8.decode_of_not_wellFormed hill
  exact ⟨_, Utf8.longestFront_decodeFront raw, herror, sanitize_of_undecodable herror⟩

end DumpConversion
