import DumpConversion.Text.Numeral
import Mathlib.Data.List.TakeWhile
import Mathlib.Data.Nat.Digits.Defs
import Mathlib.Tactic.Ring

/-! # Decimal numerals and their values

The digits of a numeral are read from the left with a limit, and reading stops at the first digit that
passes it. Since a longer row of digits never has a smaller value, that is the same as comparing the
value of all leading digits with the limit.

* `Text.numeralValue`: the value of a row of digits in base ten.
* `Text.Denotes`: a numeral with an optional plus sign, and its value.
* `Text.leadingDigits`: the digits of a text up to the first other character, behind a plus sign.
* `Text.readUnsigned_eq_ok_iff`, `Text.readUnsigned_eq_tooLarge_iff`: what is read, and what is
  refused for its size.
-/

namespace DumpConversion.Text

set_option autoImplicit false

/-! ## Values -/

/-- The number that a row of digits denotes; the last digit counts ones. -/
def numeralValue (digits : Text) : Nat := Nat.ofDigits 10 (digits.map digitValue).reverse

variable {limit v n : Nat} {c : Char} {s t : Text}

theorem numeralValue_cons (c : Char) (s : Text) :
    numeralValue (c :: s) = digitValue c * 10 ^ s.length + numeralValue s := by
  rw [numeralValue, List.map_cons, List.reverse_cons, Nat.ofDigits_append, Nat.ofDigits_singleton,
    List.length_reverse, List.length_map, numeralValue]
  ring

/-- The value of a row of digits that goes on behind the value `v`. -/
def valueFrom (v : Nat) (s : Text) : Nat := v * 10 ^ s.length + numeralValue s

theorem valueFrom_nil (v : Nat) : valueFrom v [] = v := by
  simp [valueFrom, numeralValue]

theorem valueFrom_zero (s : Text) : valueFrom 0 s = numeralValue s := by
  simp [valueFrom]

theorem valueFrom_cons (v : Nat) (c : Char) (s : Text) :
    valueFrom v (c :: s) = valueFrom (v * 10 + digitValue c) s := by
  rw [valueFrom, valueFrom, numeralValue_cons, List.length_cons]
  ring

theorem le_valueFrom (v : Nat) (s : Text) : v ≤ valueFrom v s := by
  have h : v * 1 ≤ v * 10 ^ s.length := Nat.mul_le_mul_left v (Nat.one_le_pow _ 10 (by omega))
  rw [valueFrom]
  omega

/-! ## Rows of digits -/

/-- What is read of a row of digits hangs on the value of its leading digits. -/
theorem readDigits_eq (hv : v ≤ limit) (s : Text) : readDigits limit v s =
    if limit < valueFrom v (s.takeWhile isDigit) then .error .tooLarge
    else if s.all isDigit then .ok (valueFrom v s) else .error .invalidDigit := by
  induction s generalizing v with
  | nil =>
    rw [List.takeWhile_nil, valueFrom_nil, if_neg (Nat.not_lt.mpr hv), if_pos List.all_nil]
    rfl
  | cons c s ih =>
    by_cases hc : isDigit c = true
    · rw [readDigits, if_pos hc, List.takeWhile_cons_of_pos hc, valueFrom_cons, valueFrom_cons]
      simp only [List.all_cons, hc, Bool.true_and]
      by_cases hnext : v * 10 + digitValue c ≤ limit
      · rw [if_pos hnext, ih hnext]
      · -- the digits that follow only add to the value
        have hle := le_valueFrom (v * 10 + digitValue c) (s.takeWhile isDigit)
        rw [if_neg hnext, if_pos (by omega)]
    · rw [readDigits, if_neg hc, List.takeWhile_cons_of_neg hc, valueFrom_nil,
        if_neg (Nat.not_lt.mpr hv), if_neg (by simp [hc])]

/-! ## Numerals -/

/-- The text is an optional plus sign and one or more digits, which denote the number. -/
def Denotes (s : Text) (n : Nat) : Prop :=
  ∃ sign digits, s = sign ++ digits ∧ (sign = [] ∨ sign = ['+']) ∧ digits ≠ [] ∧
    (∀ c ∈ digits, isDigit c = true) ∧ numeralValue digits = n

/-- The text behind a plus sign, if it begins with one. -/
def behindPlus (s : Text) : Text := if s.head? = some '+' then s.tail else s

/-- The digits before the first character that is none, behind an optional plus sign. -/
def leadingDigits (s : Text) : Text := (behindPlus s).takeWhile isDigit

theorem behindPlus_of_ne (h : s.head? ≠ some '+') : behindPlus s = s := if_neg h

theorem denotes_iff : Denotes s n ↔ behindPlus s ≠ [] ∧
    (∀ c ∈ behindPlus s, isDigit c = true) ∧ numeralValue (behindPlus s) = n := by
  constructor
  · rintro ⟨sign, digits, rfl, hsign, hdigits⟩
    rcases hsign with rfl | rfl
    · -- a plus sign at the front would be one of the digits
      have hplus : digits.head? ≠ some '+' := by
        intro h
        have hdigit := hdigits.2.1 '+' (List.mem_of_mem_head? h)
        exact absurd hdigit (by decide)
      rwa [List.nil_append, behindPlus_of_ne hplus]
    · exact hdigits
  · intro h
    by_cases hplus : s.head? = some '+'
    · obtain ⟨rest, rfl⟩ := List.head?_eq_some_iff.mp hplus
      exact ⟨['+'], rest, rfl, .inr rfl, h⟩
    · rw [behindPlus_of_ne hplus] at h
      exact ⟨[], s, rfl, .inl rfl, h⟩

theorem readMagnitude_eq (s : Text) : readMagnitude limit s =
    if limit < numeralValue (s.takeWhile isDigit) then .error .tooLarge
    else if s ≠ [] ∧ s.all isDigit = true then .ok (numeralValue s)
    else .error .invalidDigit := by
  cases s with
  | nil => simp [readMagnitude, numeralValue]
  | cons c s =>
    rw [readMagnitude, readDigits_eq (Nat.zero_le limit), valueFrom_zero, valueFrom_zero]
    · simp
    · simp

theorem readUnsigned_eq (s : Text) : readUnsigned limit s =
    if s = [] then .error .empty
    else if limit < numeralValue (leadingDigits s) then .error .tooLarge
    else if behindPlus s ≠ [] ∧ (behindPlus s).all isDigit = true then
      .ok (numeralValue (behindPlus s))
    else .error .invalidDigit := by
  rw [leadingDigits, ← readMagnitude_eq]
  cases s with
  | nil => rfl
  | cons c s =>
    rw [if_neg (List.cons_ne_nil c s)]
    by_cases hc : c = '+'
    · rw [hc]
      rfl
    · have hplus : (c :: s).head? ≠ some '+' := by simpa using hc
      rw [behindPlus_of_ne hplus, readUnsigned, readMagnitude]
      · simp
      · simp
      · simpa using hc

/-! ## What is read and what is refused -/

theorem Denotes.ne_nil (h : Denotes s n) : s ≠ [] := by
  rintro rfl
  exact (denotes_iff.mp h).1 rfl

theorem Denotes.leadingDigits (h : Denotes s n) : numeralValue (Text.leadingDigits s) = n := by
  obtain ⟨-, hdigits, hvalue⟩ := denotes_iff.mp h
  have hall : (behindPlus s).takeWhile isDigit = behindPlus s :=
    List.takeWhile_eq_self_iff.mpr hdigits
  rw [Text.leadingDigits, hall, hvalue]

theorem Denotes.unique {m : Nat} (hn : Denotes s n) (hm : Denotes s m) : n = m :=
  hn.leadingDigits.symm.trans hm.leadingDigits

theorem readUnsigned_eq_ok_iff : readUnsigned limit s = .ok n ↔ Denotes s n ∧ n ≤ limit := by
  rw [readUnsigned_eq]
  split_ifs with hs hlarge hnumeral
  · exact iff_of_false (by simp) fun h => h.1.ne_nil hs
  · refine iff_of_false (by simp) fun h => ?_
    rw [h.1.leadingDigits] at hlarge
    omega
  · have hself : Denotes s (numeralValue (behindPlus s)) :=
      denotes_iff.mpr ⟨hnumeral.1, List.all_eq_true.mp hnumeral.2, rfl⟩
    rw [hself.leadingDigits] at hlarge
    constructor
    · intro h
      obtain rfl := Except.ok.inj h
      exact ⟨hself, Nat.not_lt.mp hlarge⟩
    · rintro ⟨h, -⟩
      rw [(denotes_iff.mp h).2.2]
  · refine iff_of_false (by simp) fun h => ?_
    obtain ⟨hne, hdigits, -⟩ := denotes_iff.mp h.1
    exact hnumeral ⟨hne, List.all_eq_true.mpr hdigits⟩

theorem readUnsigned_eq_empty_iff : readUnsigned limit s = .error .empty ↔ s = [] := by
  rw [readUnsigned_eq]
  split_ifs with hs <;> simp [hs]

theorem readUnsigned_eq_tooLarge_iff :
    readUnsigned limit s = .error .tooLarge ↔ limit < numeralValue (leadingDigits s) := by
  rw [readUnsigned_eq]
  split_ifs with hs hlarge
  · rw [hs]
    simp [leadingDigits, behindPlus, numeralValue]
  · simp [hlarge]
  · simp [hlarge]
  · simp [hlarge]

end DumpConversion.Text
