import DumpConversion.Text.Blank
import Mathlib.Data.List.Basic

/-! # Trimmed texts

A text is its trimmed form between two runs of blanks. So a text that trimming leaves as it is can be
told from its two ends, and two texts that differ in outer blanks have the same trimmed form.

* `Text.IsTrimmed`: no blank stands at either end.
* `Text.exists_trim`: the blanks that trimming takes away.
* `Text.trim_eq_self_iff`, `Text.trim_surrounded`: the trimmed form from either side.
-/

namespace DumpConversion.Text

set_option autoImplicit false

/-! ## Blank texts -/

theorem isBlankText_iff {s : Text} : isBlankText s = true ↔ ∀ c ∈ s, isBlank c = true := by
  simp [isBlankText]

theorem isBlankText_append_iff {s t : Text} :
    isBlankText (s ++ t) = true ↔ isBlankText s = true ∧ isBlankText t = true := by
  simp [isBlankText, List.all_append]

/-! ## The start of a text -/

theorem trimStart_append {b s : Text} (hb : isBlankText b = true)
    (hs : s.head?.all (fun c => !isBlank c) = true) : trimStart (b ++ s) = s := by
  have hdrop : s.dropWhile isBlank = s := by
    cases s with
    | nil => rfl
    | cons c s =>
      have hc : isBlank c = false := by simpa using hs
      rw [List.dropWhile_cons_of_neg (by simp [hc])]
  rw [trimStart, List.dropWhile_append_of_pos (isBlankText_iff.mp hb), hdrop]

theorem exists_blanks_trimStart (s : Text) :
    ∃ b, isBlankText b = true ∧ s = b ++ trimStart s ∧
      (s.head?.any isBlank = true → b ≠ []) ∧
      (trimStart s).head?.all (fun c => !isBlank c) = true := by
  refine ⟨s.takeWhile isBlank, ?_, ?_, ?_, ?_⟩
  · exact List.all_takeWhile
  · exact List.takeWhile_append_dropWhile.symm
  · intro hs
    cases s with
    | nil => simp at hs
    | cons c s =>
      have hc : isBlank c = true := by simpa using hs
      simp [List.takeWhile_cons_of_pos hc]
  · unfold trimStart
    cases h : s.dropWhile isBlank with
    | nil => rfl
    | cons c rest =>
      have hc := List.head_dropWhile_not isBlank (l := s) (by simp [h])
      simpa [h] using hc

/-! ## The end of a text -/

theorem dropTrailing_append_of_pos {p : Char → Bool} {tail : Text} (h : ∀ c ∈ tail, p c = true)
    (s : Text) : dropTrailing p (s ++ tail) = dropTrailing p s := by
  have hreverse : ∀ c ∈ tail.reverse, p c = true := fun c hc => h c (List.mem_reverse.mp hc)
  rw [dropTrailing, dropTrailing, List.reverse_append, List.dropWhile_append_of_pos hreverse]

/-! ## Both ends -/

theorem trimEnd_eq (s : Text) : trimEnd s = (trimStart s.reverse).reverse := rfl

/-- The text neither begins nor ends with a blank. -/
def IsTrimmed (s : Text) : Prop :=
  (∀ c, s.head? = some c → isBlank c = false) ∧ ∀ c, s.getLast? = some c → isBlank c = false

theorem head?_all_not_blank {s : Text} :
    s.head?.all (fun c => !isBlank c) = true ↔ ∀ c, s.head? = some c → isBlank c = false := by
  cases s with
  | nil => simp
  | cons c s => simp

theorem IsTrimmed.reverse {s : Text} (h : s.IsTrimmed) : IsTrimmed s.reverse := by
  refine ⟨fun c hc => h.2 c ?_, fun c hc => h.1 c ?_⟩
  · rwa [List.head?_reverse] at hc
  · rwa [List.getLast?_reverse] at hc

/-- Blanks around a text without outer blanks do not matter. -/
theorem trim_surrounded {a s b : Text} (ha : isBlankText a = true) (hs : s.IsTrimmed)
    (hb : isBlankText b = true) : trim (a ++ (s ++ b)) = s := by
  have hreverse : isBlankText b.reverse = true := by
    rw [isBlankText_iff] at hb ⊢
    exact fun c hc => hb c (List.mem_reverse.mp hc)
  have hend : ∀ {t : Text}, t.IsTrimmed → trimEnd (t ++ b) = t := by
    intro t ht
    rw [trimEnd_eq, List.reverse_append, trimStart_append hreverse
      (head?_all_not_blank.mpr ht.reverse.1), List.reverse_reverse]
  cases s with
  | nil =>
    have hall : isBlankText (a ++ b) = true := isBlankText_append_iff.mpr ⟨ha, hb⟩
    have hnil : trimStart (a ++ b) = [] := by
      have h := trimStart_append (s := []) hall rfl
      rwa [List.append_nil] at h
    rw [trim, List.nil_append, hnil]
    rfl
  | cons c s =>
    rw [trim, trimStart_append ha (by simpa using hs.1 c rfl), hend hs]

/-- The blanks that trimming takes away. -/
theorem exists_trim (s : Text) :
    ∃ a b, isBlankText a = true ∧ isBlankText b = true ∧ s = a ++ (trim s ++ b) ∧
      (trim s).IsTrimmed := by
  obtain ⟨a, ha, hs, -, hstart⟩ := exists_blanks_trimStart s
  obtain ⟨b, hb, hend, -, hlast⟩ := exists_blanks_trimStart (trimStart s).reverse
  have htrim : trimStart s = trim s ++ b.reverse := by
    have h := congrArg List.reverse hend
    rwa [List.reverse_reverse, List.reverse_append] at h
  refine ⟨a, b.reverse, ha, ?_, ?_, fun c hc => ?_, fun c hc => ?_⟩
  · rw [isBlankText_iff] at hb ⊢
    exact fun c hc => hb c (List.mem_reverse.mp hc)
  · rw [← htrim]
    exact hs
  · refine head?_all_not_blank.mp hstart c ?_
    rw [htrim, List.head?_append, hc]
    rfl
  · refine head?_all_not_blank.mp hlast c ?_
    rw [trim, trimEnd_eq, List.getLast?_reverse] at hc
    exact hc

theorem isTrimmed_trim (s : Text) : (trim s).IsTrimmed := by
  obtain ⟨-, -, -, -, -, h⟩ := exists_trim s
  exact h

theorem trim_eq_self_iff {s : Text} : trim s = s ↔ s.IsTrimmed := by
  constructor
  · intro h
    rw [← h]
    exact isTrimmed_trim s
  · intro h
    have hself := trim_surrounded (a := []) (b := []) rfl h rfl
    rwa [List.nil_append, List.append_nil] at hself

@[simp] theorem trim_trim (s : Text) : trim (trim s) = trim s :=
  trim_eq_self_iff.mpr (isTrimmed_trim s)

theorem trim_append_of_blank {b : Text} (hb : isBlankText b = true) (s : Text) :
    trim (s ++ b) = trim s := by
  obtain ⟨a, c, ha, hc, hs, htrim⟩ := exists_trim s
  have hcb : isBlankText (c ++ b) = true := isBlankText_append_iff.mpr ⟨hc, hb⟩
  calc trim (s ++ b) = trim (a ++ (trim s ++ (c ++ b))) := by
        conv_lhs => rw [hs]
        simp only [List.append_assoc]
    _ = trim s := trim_surrounded ha htrim hcb

theorem length_trim_le (s : Text) : (trim s).length ≤ s.length := by
  obtain ⟨a, b, -, -, hs, -⟩ := exists_trim s
  have hlen := congrArg List.length hs
  rw [List.length_append, List.length_append] at hlen
  omega

theorem trim_eq_self_of_length_le {s : Text} (h : s.length ≤ (trim s).length) : trim s = s := by
  obtain ⟨a, b, -, -, hs, -⟩ := exists_trim s
  have hlen := congrArg List.length hs
  rw [List.length_append, List.length_append] at hlen
  have ha : a = [] := List.length_eq_zero_iff.mp (by omega)
  have hb : b = [] := List.length_eq_zero_iff.mp (by omega)
  rw [ha, hb, List.nil_append, List.append_nil] at hs
  exact hs.symm

end DumpConversion.Text
