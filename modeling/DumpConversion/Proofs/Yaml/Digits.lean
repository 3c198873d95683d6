import DumpConversion.Output.Yaml
import Mathlib.Data.List.Basic
import Mathlib.Data.Nat.Digits.Defs

/-! # Numbers in digits

A number that is written in digits is read back, in base ten as in the hexadecimal digits of an
escape.

* `Document.accumulate`: digits read on from a value.
* `Document.accumulate_toDigits`: the digits of a number have its value.
* `Document.readNumber_decimal`: a decimal numeral is read as its number.
* `Yaml.accumulate_upperHex`: the digits of an escape have the value of the character.
-/

namespace DumpConversion

set_option autoImplicit false

/-! ## Values of digits -/

namespace Document

/-- Reads digits on from a value. -/
def accumulate (base value : Nat) (s : Text) : Option Nat :=
  s.foldl (fun n c => n.bind fun n => (digitIn base c).map fun d => n * base + d) (some value)

theorem readBase_eq_accumulate {base : Nat} {s : Text} (h : s ≠ []) :
    readBase base s = accumulate base 0 s := by
  simp [readBase, accumulate, h]

theorem accumulate_cons {base value : Nat} {c : Char} {s : Text} {d : Nat}
    (h : digitIn base c = some d) :
    accumulate base value (c :: s) = accumulate base (value * base + d) s := by
  simp [accumulate, h]

theorem accumulate_append {base value n : Nat} {s : Text} (t : Text)
    (h : accumulate base value s = some n) :
    accumulate base value (s ++ t) = accumulate base n t := by
  rw [accumulate, List.foldl_append]
  exact congrArg (fun v => t.foldl _ v) h

theorem accumulate_zeros (base k : Nat) (s : Text) (h : 0 < base) :
    accumulate base 0 (List.replicate k '0' ++ s) = accumulate base 0 s := by
  induction k with
  | zero => rfl
  | succ k ih =>
    have hzero : digitIn base '0' = some 0 := by simp [digitIn, Yaml.hexValue?, h]
    rw [List.replicate_succ, List.cons_append, accumulate_cons hzero, Nat.zero_mul]
    exact ih

/-- A way to write digits, in which every digit below the base can be read. -/
def Writes (base : Nat) (shape : Char → Char) : Prop :=
  ∀ d < base, digitIn base (shape d.digitChar) = some d

theorem writes_ten : Writes 10 id := by
  unfold Writes
  decide

theorem writes_sixteen : Writes 16 Char.toUpper := by
  unfold Writes
  decide

/-- The digits of a number have its value. -/
theorem accumulate_toDigits {base : Nat} {shape : Char → Char} (hbase : 1 < base)
    (hshape : Writes base shape) (n : Nat) :
    accumulate base 0 ((Nat.toDigits base n).map shape) = some n := by
  induction n using Nat.strongRecOn with
  | _ n ih =>
    rw [Nat.toDigits_eq_if hbase]
    split
    · rename_i hlt
      rw [List.map_singleton, accumulate_cons (hshape n hlt), Nat.zero_mul, Nat.zero_add]
      rfl
    · rename_i hle
      have hlast : n % base < base := Nat.mod_lt n (by omega)
      have hfront := ih (n / base) (Nat.div_lt_self (by omega) hbase)
      rw [List.map_append, accumulate_append _ hfront, List.map_singleton,
        accumulate_cons (hshape _ hlast), Nat.div_add_mod']
      rfl

/-! ## Decimal numerals -/

theorem isDigit_of_mem_decimal {n : Nat} {c : Char} (h : c ∈ Text.decimal n) : c.isDigit = true :=
  Nat.isDigit_of_mem_toDigits (by decide) (by decide) h

theorem decimal_ne_nil (n : Nat) : Text.decimal n ≠ [] := Nat.toDigits_ne_nil

/-- Only the numeral of zero begins with a zero. -/
theorem head?_decimal {n : Nat} (h : (Text.decimal n).head? = some '0') : n = 0 := by
  induction n using Nat.strongRecOn with
  | _ n ih =>
    rw [Text.decimal, Nat.toDigits_eq_if (by decide)] at h
    split at h
    · rename_i hlt
      have hvalue : digitIn 10 n.digitChar = some n := writes_ten n hlt
      rw [List.head?_singleton, Option.some_inj] at h
      rw [h] at hvalue
      exact (Option.some_inj.mp hvalue).symm
    · rename_i hle
      rw [List.head?_append_of_ne_nil _ Nat.toDigits_ne_nil] at h
      have hzero := ih (n / 10) (Nat.div_lt_self (by omega) (by decide)) h
      omega

theorem not_mem_decimal {n : Nat} {c : Char} (h : c.isDigit = false) : c ∉ Text.decimal n := by
  intro hmem
  rw [isDigit_of_mem_decimal hmem] at h
  cases h

theorem readMarked_decimal (n : Nat) : readMarked (Text.decimal n) = none := by
  unfold readMarked
  split
  · rename_i digits heq
    exact absurd (heq ▸ by simp) (not_mem_decimal (n := n) (c := 'x') (by decide))
  · rename_i digits heq
    exact absurd (heq ▸ by simp) (not_mem_decimal (n := n) (c := 'o') (by decide))
  · rename_i digits heq
    exact absurd (heq ▸ by simp) (not_mem_decimal (n := n) (c := 'b') (by decide))
  · rfl

theorem isPadded_decimal (n : Nat) : isPadded (Text.decimal n) = false := by
  by_cases hzero : (Text.decimal n).head? = some '0'
  · rw [head?_decimal hzero]
    decide
  · simp [isPadded, hzero]

/-- A decimal numeral is read as its number. -/
theorem readNumber_decimal (n : Nat) : readNumber (Text.decimal n) = some n := by
  have hplus : (Text.decimal n).head? ≠ some '+' :=
    fun h => not_mem_decimal (by decide) (List.mem_of_head? h)
  have hvalue : accumulate 10 0 (Text.decimal n) = some n := by
    simpa [Text.decimal] using accumulate_toDigits (by decide) writes_ten n
  rw [readNumber]
  simp only [if_neg hplus, readMarked_decimal, isPadded_decimal, Bool.false_eq_true, if_false]
  rw [readBase_eq_accumulate (decimal_ne_nil n), hvalue]

end Document

/-! ## Hexadecimal digits of an escape -/

namespace Yaml

open Document

theorem accumulate_upperHex (width n : Nat) : accumulate 16 0 (upperHex width n) = some n := by
  rw [upperHex, accumulate_zeros _ _ _ (by decide)]
  exact accumulate_toDigits (by decide) writes_sixteen n

theorem length_upperHex {width n : Nat} (hwidth : 0 < width) (h : n < 16 ^ width) :
    (upperHex width n).length = width := by
  have hdigits := Nat.toDigits_length 16 n width hwidth h
  rw [upperHex, List.length_append, List.length_replicate, List.length_map]
  omega

end Yaml

end DumpConversion
