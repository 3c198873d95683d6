import DumpConversion.Proofs.Dump.NormalForm

/-! # Lines that the rules leave as they are

Every rule but the last takes something off the line when it finds what it looks for, and the last one
changes a character in its place. So a line that comes out as it went in was normal, and no rule can
make up for what another one took.

* `Clause.length_strip_lt`, `Text.length_remove_lt`: a rule that finds something shortens the line.
* `Line.quoted_eq_self_iff`: doubling quotes changes every line with an escaped quote.
* `Line.rewritten_eq_self_iff`: the lines that the four rules leave as they are.
-/

namespace DumpConversion

set_option autoImplicit false

/-! ## Rules that take something off -/

theorem Clause.length_strip_lt {k : Clause} (hk : k.IsKeyword) {line : Text}
    (h : k.occurs line = true) : (k.strip line).1.length < line.length := by
  rcases Clause.exists_firstCut hk none line with hno | ⟨a, m, r, rfl, hcut⟩
  · rw [Clause.occurs, hno] at h
    cases h
  · have hm := List.length_pos_iff.mpr hcut.isClause.ne_nil
    have hr := (Line.stripFrom_sublist k 0 (Clause.charBefore none (a ++ m)) r).length_le
    rw [Clause.strip, hcut.stripFrom hk]
    simp only [List.length_append]
    omega

theorem Text.length_remove_lt {w s : Text} (hw : w ≠ []) (h : w <:+: s) :
    (Text.replaceAll w [] s).1.length < s.length := by
  induction s with
  | nil => exact absurd (List.infix_nil.mp h) hw
  | cons c s ih =>
    cases hmatch : w.isPrefixOf (c :: s) with
    | true =>
      have hrest := (Line.removeFrom_sublist w 0 (s.drop (w.length - 1))).length_le
      have hdrop : (s.drop (w.length - 1)).length ≤ s.length := (List.drop_sublist _ s).length_le
      rw [Text.replaceAll_cons_of_match hmatch, List.nil_append, List.length_cons]
      exact Nat.lt_succ_of_le (hrest.trans hdrop)
    | false =>
      have hlater : w <:+: s := by
        rcases List.infix_cons_iff.mp h with hhere | hlater
        · rw [← List.isPrefixOf_iff_prefix, hmatch] at hhere
          cases hhere
        · exact hlater
      rw [Text.replaceAll_cons_of_no_match hmatch, List.length_cons, List.length_cons]
      exact Nat.succ_lt_succ (ih hlater)

theorem Text.replaceAll_of_not_infix {w q s : Text} (h : ¬ w <:+: s) :
    Text.replaceAll w q s = (s, 0) := by
  induction s with
  | nil => rfl
  | cons c s ih =>
    rw [List.infix_cons_iff, not_or, ← List.isPrefixOf_iff_prefix, Bool.not_eq_true] at h
    rw [Text.replaceAll_cons_of_no_match h.1, ih h.2]

namespace Line

/-! ## Doubling quotes -/

theorem quoted_eq_self_iff {line : Text} : quoted line = line ↔ ¬ backslashQuote <:+: line := by
  induction line with
  | nil => simp [quoted, backslashQuote]
  | cons c s ih =>
    have hhere : backslashQuote <+: c :: s ↔ c = '\\' ∧ s.head? = some '\'' := by
      rw [backslashQuote, List.cons_prefix_cons, List.head?_eq_some_iff]
      exact and_congr eq_comm (exists_congr fun _ => eq_comm)
    rw [quoted, List.cons.injEq, ih, List.infix_cons_iff, hhere, not_or]
    refine and_congr_left fun _ => ?_
    split
    · next h => simp [h]
    · next h => simp [h]

/-! ## All four rules -/

theorem length_unqualified_le (line : Text) : (unqualified line).length ≤ line.length :=
  (unqualified_sublist line).length_le

theorem length_rewritten_le (line : Text) : (rewritten line).length ≤ line.length := by
  rw [rewritten_eq_quoted, length_quoted]
  exact length_unqualified_le line

theorem unqualified_eq_self {line : Text} (hcollation : Clause.collate.occurs line = false)
    (hcharacterSet : Clause.characterSet.occurs line = false)
    (hunsigned : ¬ unsignedQualifier <:+: line) : unqualified line = line := by
  have hclauses : clauseFree line = line := by
    rw [clauseFree, dropCollations, Clause.strip_eq_self hcollation, dropCharacterSets,
      Clause.strip_eq_self hcharacterSet]
  rw [unqualified, hclauses, dropUnsigned, Text.replaceAll_of_not_infix hunsigned]

/-- A line that is as long after the rules as before is untouched by the first three. -/
theorem absent_of_length_le {line : Text} (h : line.length ≤ (unqualified line).length) :
    Clause.collate.occurs line = false ∧ Clause.characterSet.occurs line = false ∧
      ¬ unsignedQualifier <:+: line := by
  have hcollated : (dropCollations line).1.Sublist line := stripFrom_sublist _ 0 none line
  have hfree : (clauseFree line).Sublist (dropCollations line).1 := stripFrom_sublist _ 0 none _
  have hbare : (unqualified line).Sublist (clauseFree line) := removeFrom_sublist _ 0 _
  have hone : (dropCollations line).1 = line :=
    hcollated.eq_of_length_le (h.trans (hbare.length_le.trans hfree.length_le))
  have htwo : clauseFree line = line := by
    rw [hone] at hfree
    exact hfree.eq_of_length_le (h.trans hbare.length_le)
  refine ⟨?_, ?_, ?_⟩
  · rw [Bool.eq_false_iff]
    intro hoccurs
    have hlt := Clause.length_strip_lt Clause.collate_isKeyword hoccurs
    rw [← dropCollations, hone] at hlt
    exact Nat.lt_irrefl _ hlt
  · rw [Bool.eq_false_iff]
    intro hoccurs
    have hlt := Clause.length_strip_lt Clause.characterSet_isKeyword hoccurs
    rw [clauseFree, hone] at htwo
    rw [← dropCharacterSets, htwo] at hlt
    exact Nat.lt_irrefl _ hlt
  · intro hinfix
    have hlt := Text.length_remove_lt (by decide) hinfix
    rw [unqualified, htwo] at h
    exact Nat.lt_irrefl _ (h.trans_lt hlt)

theorem rewritten_eq_self_of_length_le {line : Text} (h : line.length ≤ (unqualified line).length) :
    rewritten line = quoted line := by
  obtain ⟨hcollation, hcharacterSet, hunsigned⟩ := absent_of_length_le h
  rw [rewritten_eq_quoted, unqualified_eq_self hcollation hcharacterSet hunsigned]

/-- The rules leave a line without a key word as it is exactly when it is normal. -/
theorem rewritten_eq_self_iff {line : Text} (hkey : ¬ keyWord <:+: line) :
    rewritten line = line ↔ IsNormal line := by
  constructor
  · intro h
    have hlength : line.length ≤ (unqualified line).length := by
      rw [← length_quoted (unqualified line), ← rewritten_eq_quoted, h]
    obtain ⟨hcollation, hcharacterSet, hunsigned⟩ := absent_of_length_le hlength
    rw [rewritten_eq_self_of_length_le hlength, quoted_eq_self_iff] at h
    exact ⟨hkey, hcollation, hcharacterSet, hunsigned, h⟩
  · intro h
    rw [rewritten_eq_quoted, unqualified_eq_self h.collation h.characterSet h.unsigned,
      quoted_eq_self_iff]
    exact h.quote

end Line
end DumpConversion
