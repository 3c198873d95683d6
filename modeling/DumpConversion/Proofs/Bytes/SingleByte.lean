import DumpConversion.Proofs.Bytes.RoundTrip
import DumpConversion.Proofs.Dump.Refusal
import Mathlib.Data.List.Forall2
import Mathlib.Logic.Function.Basic

/-! # Single-byte encodings lose nothing

An encoding that gives every byte a character of its own, and ASCII bytes the usual one, keeps apart
what differs and finds the lines of a text where the bytes have them.

* `SingleByte.latin1_injective`, `SingleByte.windows1252_injective`: no two bytes have one character.
* `SingleByte.splitOn_map`, `SingleByte.infix_map_iff`: what decoding byte by byte does to pieces
  and to literals.
* `Charset.Lossless`: what a single-byte encoding keeps.
* `decode_singleByte_lossless`: both encodings keep it, and differ in the bytes 0x80 to 0x9F only.
-/

namespace DumpConversion

set_option autoImplicit false

/-! ## Characters of bytes -/

namespace SingleByte

variable {a b : UInt8} {c : Char}

theorem toNat_latin1 (b : UInt8) : (latin1 b).toNat = b.toNat := by
  have hb := b.toNat_lt
  exact Utf8.toNat_ofNat (.inl (by omega))

theorem latin1_injective : Function.Injective latin1 := by
  intro a b h
  rw [← UInt8.toNat_inj, ← toNat_latin1, ← toNat_latin1, h]

/-- The bytes for which the two encodings have characters of their own. -/
def IsUpper (b : UInt8) : Prop := 0x80 ≤ b.toNat ∧ b.toNat ≤ 0x9F

theorem windows1252_of_not_upper (h : ¬ IsUpper b) : windows1252 b = latin1 b := by
  by_cases hlt : b < 0x80
  · exact windows1252_eq_latin1_of_lt hlt
  · have hle : 0x80 ≤ b.toNat := by
      rw [UInt8.lt_iff_toNat_lt] at hlt
      exact Nat.le_of_not_lt hlt
    have hlength : windowsUpper.length ≤ b.toNat - 0x80 := by
      rw [windowsUpper_length]
      unfold IsUpper at h
      omega
    rw [windows1252, if_neg hlt, List.getD_eq_getElem?_getD, List.getElem?_eq_none hlength]
    rfl

theorem windows1252_of_upper (h : IsUpper b) :
    windowsUpper[b.toNat - 0x80]? = some (windows1252 b) := by
  have hlt : ¬ b < 0x80 := by
    rw [UInt8.lt_iff_toNat_lt]
    exact Nat.not_lt.mpr h.1
  have hlength : b.toNat - 0x80 < windowsUpper.length := by
    rw [windowsUpper_length]
    have := h.2
    omega
  rw [windows1252, if_neg hlt, List.getD_eq_getElem?_getD, List.getElem?_eq_getElem hlength]
  rfl

/-- The upper characters are control characters of the same range or lie above all bytes. -/
theorem not_latin1_of_mem_windowsUpper (hc : c ∈ windowsUpper) (hb : ¬ IsUpper b) :
    latin1 b ≠ c := by
  have hrange : windowsUpper.all fun c =>
      decide (0x80 ≤ c.toNat) && (decide (c.toNat ≤ 0x9F) || decide (0xFF < c.toNat)) := by decide
  have hc' := List.all_eq_true.mp hrange c hc
  simp only [Bool.and_eq_true, Bool.or_eq_true, decide_eq_true_eq] at hc'
  have hlt := b.toNat_lt
  intro h
  rw [← h, toNat_latin1] at hc'
  unfold IsUpper at hb
  omega

theorem windowsUpper_nodup : windowsUpper.Nodup := by decide

theorem windows1252_injective : Function.Injective windows1252 := by
  intro a b h
  by_cases ha : IsUpper a
  · have hmem := List.mem_of_getElem? (windows1252_of_upper ha)
    by_cases hb : IsUpper b
    · have hlength : a.toNat - 0x80 < windowsUpper.length :=
        (List.getElem?_eq_some_iff.mp (windows1252_of_upper ha)).1
      have hindex : a.toNat - 0x80 = b.toNat - 0x80 := by
        rw [← List.getElem?_inj hlength windowsUpper_nodup, windows1252_of_upper ha,
          windows1252_of_upper hb, h]
      have ha := ha.1
      have hb := hb.1
      rw [← UInt8.toNat_inj]
      omega
    · rw [h, windows1252_of_not_upper hb] at hmem
      exact absurd rfl (not_latin1_of_mem_windowsUpper hmem hb)
  · rw [windows1252_of_not_upper ha] at h
    by_cases hb : IsUpper b
    · exact absurd h (not_latin1_of_mem_windowsUpper
        (List.mem_of_getElem? (windows1252_of_upper hb)) ha)
    · rw [windows1252_of_not_upper hb] at h
      exact latin1_injective h

/-! ## Byte by byte -/

variable {f : UInt8 → Char}

theorem splitOn_map {sep : UInt8} (hf : Function.Injective f) (s : Bytes) :
    Text.splitOn (f sep) (s.map f) = (s.splitOn sep).map (List.map f) := by
  rw [List.splitOn_eq_splitOnP]
  induction s with
  | nil => rfl
  | cons b s ih =>
    rw [List.map_cons, List.splitOnP_cons_eq_if_modifyHead]
    by_cases hb : b = sep
    · rw [Text.splitOn, if_pos (congrArg f hb), ih, if_pos (by simpa using hb)]
      rfl
    · rw [Text.splitOn, if_neg (fun h => hb (hf h)), ih, if_neg (by simpa using hb)]
      cases hs : List.splitOnP (fun x => x == sep) s with
      | nil => exact absurd hs (List.splitOnP_ne_nil _ s)
      | cons piece rest => rfl

theorem infix_map_iff (hf : Function.Injective f) {p s : Bytes} :
    p.map f <:+: s.map f ↔ p <:+: s := by
  constructor
  · rintro ⟨front, rest, h⟩
    obtain ⟨t, rest, rfl, ht, -⟩ := List.map_eq_append_iff.mp h.symm
    obtain ⟨front, q, rfl, -, hq⟩ := List.map_eq_append_iff.mp ht
    obtain rfl := List.map_injective_iff.mpr hf hq
    exact ⟨front, rest, rfl⟩
  · exact fun h => h.map f

end SingleByte

/-! ## Encodings -/

/-- The encoding reads every byte string. Each byte is one character, whatever stands around it, and
no two byte strings have one text; ASCII bytes are read as they are, the lines of the text are the
lines of the bytes, and no scan fails because of the encoding. -/
structure Charset.Lossless (e : Charset) : Prop where
  decodes (raw : Bytes) : ∃ text, e.decode raw = .ok text ∧
    List.Forall₂ (fun b c => e.decode [b] = .ok [c]) raw text
  injective (raw other : Bytes) : e.decode raw = e.decode other → raw = other
  ascii (raw : Bytes) : (∀ b ∈ raw, b < 0x80) →
    e.decode raw = .ok (raw.map fun b => Char.ofNat b.toNat)
  lines (raw : Bytes) (text : Text) : e.decode raw = .ok text →
    List.Forall₂ (fun piece line => e.decode piece = .ok line) (raw.splitOn 0x0A)
      (Text.lines text) ∧
    (['\r', '\n'] <:+: text ↔ [0x0D, 0x0A] <:+: raw)
  sanitizes (raw : Bytes) (encoding : Charset) (offset : Nat) :
    sanitize e raw ≠ .error (.undecodable encoding offset)

theorem sanitizeText_ne_undecodable (s : Text) (encoding : Charset) (offset : Nat) :
    sanitizeText s ≠ .error (.undecodable encoding offset) := by
  intro h
  obtain ⟨_, _, _, _, _, _, hcause⟩ :=
    ScanState.scanLines_after_error_iff.mp (sanitizeText_eq_error_iff.mp h)
  cases hcause

/-- What decides it is that no two bytes have one character and ASCII bytes have their own. -/
theorem Charset.lossless_of_injective {e : Charset} {f : UInt8 → Char}
    (hdecode : ∀ raw, e.decode raw = .ok (raw.map f)) (hf : Function.Injective f)
    (hascii : ∀ b, b < 0x80 → f b = SingleByte.latin1 b) : e.Lossless where
  decodes raw := by
    refine ⟨raw.map f, hdecode raw, ?_⟩
    rw [List.forall₂_map_right_iff, List.forall₂_same]
    exact fun b _ => hdecode [b]
  injective raw other h := by
    rw [hdecode, hdecode] at h
    exact List.map_injective_iff.mpr hf (Except.ok.inj h)
  ascii raw h := by
    rw [hdecode]
    exact congrArg Except.ok (List.map_congr_left fun b hb => hascii b (h b hb))
  lines raw text h := by
    rw [hdecode] at h
    obtain rfl := Except.ok.inj h
    have hnewline : f 0x0A = '\n' := hascii 0x0A (by decide)
    have hreturn : f 0x0D = '\r' := hascii 0x0D (by decide)
    constructor
    · rw [Text.lines, ← hnewline, SingleByte.splitOn_map hf, List.forall₂_map_right_iff,
        List.forall₂_same]
      exact fun piece _ => hdecode piece
    · rw [← SingleByte.infix_map_iff hf, List.map_cons, List.map_cons, hnewline, hreturn]
      rfl
  sanitizes raw encoding offset := by
    rw [sanitize_of_decode (hdecode raw)]
    exact sanitizeText_ne_undecodable _ encoding offset

/-- Both single-byte encodings lose nothing, and they read alike what has no byte from 0x80 to
0x9F. -/
theorem decode_singleByte_lossless :
    Charset.windows1252.Lossless ∧ Charset.latin1.Lossless ∧
    ∀ raw : Bytes, (∀ b ∈ raw, b < 0x80 ∨ 0x9F < b) →
      Charset.windows1252.decode raw = Charset.latin1.decode raw := by
  refine ⟨Charset.lossless_of_injective Charset.decode_windows1252
      SingleByte.windows1252_injective fun _ => SingleByte.windows1252_eq_latin1_of_lt,
    Charset.lossless_of_injective Charset.decode_latin1 SingleByte.latin1_injective
      fun _ _ => rfl, fun raw h => ?_⟩
  rw [Charset.decode_windows1252, Charset.decode_latin1]
  refine congrArg Except.ok (List.map_congr_left fun b hb => ?_)
  have hb := h b hb
  rw [UInt8.lt_iff_toNat_lt, UInt8.lt_iff_toNat_lt] at hb
  refine SingleByte.windows1252_of_not_upper fun hupper => ?_
  obtain ⟨hlow, hhigh⟩ := hupper
  rcases hb with hb | hb
  · exact Nat.not_lt.mpr hlow hb
  · exact Nat.not_lt.mpr hhigh hb

end DumpConversion
