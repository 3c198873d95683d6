import DumpConversion.Proofs.Bytes.WellFormed

/-! # Lossy decoding

A byte string that is not well formed is still read to its end: where no character stands, the bytes
that could begin one are passed over together, and one replacement character takes their place.

* `Utf8.BrokenAt`: how many bytes are passed over together.
* `Utf8.ReadsLossy`: the text of a byte string, by its characters and its broken sequences.
* `Utf8.readsLossy_iff`: every byte string has exactly one such text, which is what decoding gives.
-/

namespace DumpConversion.Utf8

set_option autoImplicit false

/-! ## Broken sequences -/

/-- The encoding of some character begins with the bytes. -/
def Begins (s : Bytes) : Prop := ∃ c, s <+: String.utf8EncodeChar c

/-- No character stands at the front, and the first `n` bytes are the longest front that begins a
character, or a single byte where none does. -/
structure BrokenAt (s : Bytes) (n : Nat) : Prop where
  no_char : ∀ c, ¬ String.utf8EncodeChar c <+: s
  pos : 0 < n
  le_length : n ≤ s.length
  begins : n = 1 ∨ Begins (s.take n)
  longest : ∀ k, n < k → k ≤ s.length → ¬ Begins (s.take k)

/-- The text of a byte string in which each broken sequence counts as one replacement character. -/
inductive ReadsLossy : Bytes → Text → Prop where
  | nil : ReadsLossy [] []
  | char {c : Char} {rest : Bytes} {text : Text} (h : ReadsLossy rest text) :
    ReadsLossy (String.utf8EncodeChar c ++ rest) (c :: text)
  | broken {s : Bytes} {n : Nat} {text : Text} (hs : BrokenAt s n)
    (h : ReadsLossy (s.drop n) text) : ReadsLossy s (replacement :: text)

variable {a b c : UInt8} {s t front rest : Bytes} {v n k : Nat}

theorem Sequence.begins (h : Sequence (front ++ rest) v) : Begins front :=
  ⟨Char.ofNat v, by rw [h.eq_encode]; exact List.prefix_append front rest⟩

theorem decodeChar_eq_none_iff : decodeChar s = none ↔ ∀ c, ¬ String.utf8EncodeChar c <+: s := by
  rw [Option.eq_none_iff_forall_not_mem]
  constructor
  · rintro h c ⟨rest, hs⟩
    exact h (c, rest) (decodeChar_eq_some_iff.mpr hs.symm)
  · rintro h ⟨c, rest⟩ hsome
    exact h c ⟨rest, (decodeChar_eq_some_iff.mp hsome).symm⟩

theorem BrokenAt.unique (hn : BrokenAt s n) (hk : BrokenAt s k) : n = k := by
  have hle {i j : Nat} (hi : BrokenAt s i) (hj : BrokenAt s j) : j ≤ i := by
    by_contra hlt
    have hpos := hi.pos
    rcases hj.begins with hone | hbegins
    · omega
    · exact hi.longest j (by omega) hj.le_length hbegins
  exact Nat.le_antisymm (hle hk hn) (hle hn hk)

/-! ## The length of a broken sequence -/

theorem lead_three_iff : 0xE0 ≤ a ∧ a ≤ 0xEF ↔ 224 ≤ a.toNat ∧ a.toNat ≤ 239 := by
  rw [UInt8.le_iff_toNat_le, UInt8.le_iff_toNat_le]
  rfl

theorem lead_four_iff : 0xF0 ≤ a ∧ a ≤ 0xF4 ↔ 240 ≤ a.toNat ∧ a.toNat ≤ 244 := by
  rw [UInt8.le_iff_toNat_le, UInt8.le_iff_toNat_le]
  rfl

theorem brokenLength_le (hs : s ≠ []) : brokenLength s ≤ s.length := by
  unfold brokenLength
  split
  · split_ifs
    · simp
    · split
      · split_ifs <;> simp
      · simp
    · simp
  · exact List.length_pos_iff.mpr hs

theorem brokenLength_three (ha : 224 ≤ a.toNat ∧ a.toNat ≤ 239) (hb : isSecond a b = true) :
    brokenLength (a :: b :: t) = 2 := by
  obtain ⟨h1, h2⟩ := lead_three_iff.mpr ha
  unfold brokenLength
  simp only
  rw [if_pos ⟨h1, h2, hb⟩]

theorem two_le_brokenLength (ha : 240 ≤ a.toNat ∧ a.toNat ≤ 244) (hb : isSecond a b = true) :
    2 ≤ brokenLength (a :: b :: t) := by
  obtain ⟨h1, h2⟩ := lead_four_iff.mpr ha
  unfold brokenLength
  simp only
  split_ifs with h3 h4
  · exact Nat.le_refl 2
  · split
    · split_ifs <;> omega
    · exact Nat.le_refl 2
  · exact absurd ⟨h1, h2, hb⟩ h4

theorem brokenLength_four (ha : 240 ≤ a.toNat ∧ a.toNat ≤ 244) (hb : isSecond a b = true)
    (hc : isTail c = true) : brokenLength (a :: b :: c :: t) = 3 := by
  obtain ⟨h1, h2⟩ := lead_four_iff.mpr ha
  have hthree : ¬ (0xE0 ≤ a ∧ a ≤ 0xEF ∧ isSecond a b = true) := by
    rintro ⟨h3, h4, -⟩
    have := lead_three_iff.mp ⟨h3, h4⟩
    omega
  unfold brokenLength
  simp only
  rw [if_neg hthree, if_pos ⟨h1, h2, hb⟩, if_pos hc]

theorem begins_take_brokenLength (s : Bytes) :
    brokenLength s = 1 ∨ Begins (s.take (brokenLength s)) := by
  have htail : isTail 0x80 = true := by decide
  unfold brokenLength
  split
  · next a b s =>
    split_ifs with h3 h4
    · obtain ⟨h1, h2, hb⟩ := h3
      exact .inr (Sequence.three (lead_three_iff.mp ⟨h1, h2⟩) hb htail).begins
    · obtain ⟨h1, h2, hb⟩ := h4
      have ha := lead_four_iff.mp ⟨h1, h2⟩
      have htwo : Begins [a, b] := (Sequence.four ha hb htail htail).begins
      split
      · next c s =>
        split_ifs with hc
        · exact .inr (Sequence.four ha hb hc htail).begins
        · exact .inr htwo
      · exact .inr htwo
    · exact .inl rfl
  · exact .inl rfl

theorem le_brokenLength_of_begins (hs : decodeChar s = none) (hk : k ≤ s.length)
    (hbegins : Begins (s.take k)) : k ≤ brokenLength s := by
  obtain ⟨ch, hprefix⟩ := hbegins
  have hfront : s.take k = (String.utf8EncodeChar ch).take k := by
    have h := List.prefix_iff_eq_take.mp hprefix
    rwa [List.length_take, Nat.min_eq_left hk] at h
  have hlt : k < (String.utf8EncodeChar ch).length := by
    by_contra hle
    rw [List.take_of_length_le (Nat.le_of_not_lt hle)] at hfront
    exact decodeChar_eq_none_iff.mp hs ch (hfront ▸ List.take_prefix k s)
  have hpos := brokenLength_pos s
  have hsplit := List.take_append_drop k s
  obtain ⟨v, hsequence⟩ := exists_sequence_encode ch
  generalize String.utf8EncodeChar ch = whole at hfront hlt hsequence
  rw [hfront] at hsplit
  cases hsequence with
  | one _ =>
    simp only [List.length_cons, List.length_nil] at hlt
    omega
  | two _ _ =>
    simp only [List.length_cons, List.length_nil] at hlt
    omega
  | three ha hb _ =>
    simp only [List.length_cons, List.length_nil] at hlt
    by_cases htwo : k = 2
    · subst htwo
      rw [← hsplit]
      exact Nat.le_of_eq (brokenLength_three ha hb).symm
    · omega
  | four ha hb hc _ =>
    simp only [List.length_cons, List.length_nil] at hlt
    by_cases hthree : k = 3
    · subst hthree
      rw [← hsplit]
      exact Nat.le_of_eq (brokenLength_four ha hb hc).symm
    · by_cases htwo : k = 2
      · subst htwo
        rw [← hsplit]
        exact two_le_brokenLength ha hb
      · omega

theorem brokenAt_brokenLength (h : decodeChar s = none) (hs : s ≠ []) :
    BrokenAt s (brokenLength s) where
  no_char := decodeChar_eq_none_iff.mp h
  pos := brokenLength_pos s
  le_length := brokenLength_le hs
  begins := begins_take_brokenLength s
  longest k hlt hk hbegins := by
    have := le_brokenLength_of_begins h hk hbegins
    omega

/-! ## Whole byte strings -/

theorem decodeLossy_encode_append (ch : Char) (rest : Bytes) :
    decodeLossy (String.utf8EncodeChar ch ++ rest) = ch :: decodeLossy rest := by
  have hchar := decodeChar_encode ch rest
  generalize String.utf8EncodeChar ch ++ rest = s at hchar
  cases s with
  | nil => cases hchar
  | cons b t =>
    rw [decodeLossy]
    split
    · next d more hsome =>
      rw [hchar] at hsome
      cases hsome
      rfl
    · next hnone =>
      rw [hchar] at hnone
      cases hnone

theorem decodeLossy_of_none (hs : s ≠ []) (h : decodeChar s = none) :
    decodeLossy s = replacement :: decodeLossy (s.drop (brokenLength s)) := by
  cases s with
  | nil => exact absurd rfl hs
  | cons b t =>
    rw [decodeLossy]
    split
    · next d more hsome =>
      rw [h] at hsome
      cases hsome
    · rfl

theorem readsLossy_decodeLossy (s : Bytes) : ReadsLossy s (decodeLossy s) := by
  induction s using decodeLossy.induct with
  | case1 =>
    rw [decodeLossy]
    exact .nil
  | case2 a s ch rest hsome _ ih =>
    rw [decodeChar_eq_some_iff.mp hsome, decodeLossy_encode_append]
    exact .char ih
  | case3 a s hnone _ ih =>
    rw [decodeLossy_of_none (List.cons_ne_nil a s) hnone]
    exact .broken (brokenAt_brokenLength hnone (List.cons_ne_nil a s)) ih

theorem BrokenAt.decodeLossy (h : BrokenAt s n) :
    Utf8.decodeLossy s = replacement :: Utf8.decodeLossy (s.drop n) := by
  have hnone := decodeChar_eq_none_iff.mpr h.no_char
  have hs : s ≠ [] := List.length_pos_iff.mp (Nat.lt_of_lt_of_le h.pos h.le_length)
  rw [decodeLossy_of_none hs hnone, h.unique (brokenAt_brokenLength hnone hs)]

/-- Every byte string has exactly one text in which each broken sequence is one replacement
character. -/
theorem readsLossy_iff {text : Text} : ReadsLossy s text ↔ text = decodeLossy s := by
  constructor
  · intro h
    induction h with
    | nil => rw [decodeLossy]
    | char _ ih => rw [decodeLossy_encode_append, ih]
    | broken hs _ ih => rw [hs.decodeLossy, ih]
  · rintro rfl
    exact readsLossy_decodeLossy s

end DumpConversion.Utf8
