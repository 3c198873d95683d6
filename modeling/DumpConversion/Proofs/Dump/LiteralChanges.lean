import DumpConversion.Proofs.Dump.Quotes
import DumpConversion.Proofs.Text.Positions

/-! # The two literal rules, position by position

The unsigned qualifier and the escaped quote are literals that cannot overlap themselves. So both
rules act on every place of the line at once: neither the order of the search nor what the rule puts
in matters.

* `Text.Deletes`: every occurrence of a literal goes, and nothing else.
* `Line.EscapesAt`, `Line.Doubles`: every backslash directly before a quote becomes a quote, and
  nothing else changes.
* `Line.literal_changes_by_position`: what the two rules do, on every line.
-/

namespace DumpConversion

set_option autoImplicit false

/-! ## What the rules come to -/

/-- The result is the text without the characters of the occurrences of `w`, which share none, and
their number. -/
structure Text.Deletes (w s : Text) (result : Text × Nat) : Prop where
  apart : ∀ i ∈ positions w s, ∀ j ∈ positions w s, i < j → i + w.length ≤ j
  text : result.1 = uncovered w s
  count : result.2 = (positions w s).length

namespace Line

/-- At position `i` stands a backslash, directly before a quote. -/
def EscapesAt (s : Text) (i : Nat) : Prop := s[i]? = some '\\' ∧ s[i + 1]? = some '\''

instance (s : Text) (i : Nat) : Decidable (EscapesAt s i) := instDecidableAnd

/-- The result is the line with a quote for every backslash directly before a quote, and the number
of these backslashes. -/
structure Doubles (s : Text) (result : Text × Nat) : Prop where
  length : result.1.length = s.length
  char : ∀ i < s.length, result.1[i]? = if EscapesAt s i then some '\'' else s[i]?
  count : result.2 = ((List.range s.length).filter fun i => EscapesAt s i).length

/-! ## The qualifier -/

theorem unsignedQualifier_not_selfOverlaps : ¬ Text.SelfOverlaps unsignedQualifier := by decide

theorem dropUnsigned_deletes (line : Text) :
    Text.Deletes unsignedQualifier line (dropUnsigned line) where
  apart := fun _ hi _ hj hij =>
    Text.positions_apart (by decide) unsignedQualifier_not_selfOverlaps hi hj hij
  text := Text.removeAll_eq_uncovered (by decide) unsignedQualifier_not_selfOverlaps line
  count := Text.replaceAll_count (by decide) unsignedQualifier_not_selfOverlaps [] line

/-! ## Quotes -/

theorem backslashQuote_prefix_drop_iff {line : Text} {i : Nat} :
    backslashQuote <+: line.drop i ↔ EscapesAt line i := by
  have htwo : ∀ s : Text, backslashQuote <+: s ↔ s[0]? = some '\\' ∧ s[1]? = some '\'' := by
    intro s
    match s with
    | [] => simp [backslashQuote]
    | [c] => simp [backslashQuote]
    | c :: d :: s => simp [backslashQuote, List.cons_prefix_cons, eq_comm]
  rw [htwo, List.getElem?_drop, List.getElem?_drop, Nat.add_zero, EscapesAt]

theorem quoted_getElem? (s : Text) (i : Nat) :
    (quoted s)[i]? = if EscapesAt s i then some '\'' else s[i]? := by
  induction s generalizing i with
  | nil => rfl
  | cons c s ih =>
    cases i with
    | zero =>
      have hhere : EscapesAt (c :: s) 0 ↔ c = '\\' ∧ s.head? = some '\'' := by
        rw [EscapesAt, List.getElem?_cons_zero, List.getElem?_cons_succ, Option.some_inj,
          List.head?_eq_getElem?]
      rw [quoted, List.getElem?_cons_zero, List.getElem?_cons_zero, if_congr hhere rfl rfl]
      split
      · rfl
      · rfl
    | succ i =>
      rw [quoted, List.getElem?_cons_succ, ih i]
      rfl

theorem doubleQuotes_doubles (line : Text) : Doubles line (doubleQuotes line) where
  length := by rw [doubleQuotes_line, length_quoted]
  char := fun i _ => by rw [doubleQuotes_line, quoted_getElem?]
  count := by
    have hstands : Text.standsAt backslashQuote line = fun i => decide (EscapesAt line i) := by
      funext i
      rw [Bool.eq_iff_iff, decide_eq_true_iff]
      exact Text.standsAt_iff.trans backslashQuote_prefix_drop_iff
    rw [doubleQuotes, Text.replaceAll_count (by decide) (by decide), Text.positions, hstands]

/-! ## Every line -/

/-- The qualifier rule deletes all occurrences of its literal at once, and the quote rule keeps the
length of the line and changes exactly the backslashes that stand directly before a quote. Both
report how many places there were. -/
theorem literal_changes_by_position (line : Text) :
    Text.Deletes unsignedQualifier line (dropUnsigned line) ∧ Doubles line (doubleQuotes line) :=
  ⟨dropUnsigned_deletes line, doubleQuotes_doubles line⟩

/-- Of three backslashes before a quote only the last one is an escape, and quotes that are put in
escape nothing. -/
example : doubleQuotes "\\\\\\''\\'".toList = ("\\\\'''''".toList, 2) := by decide

end Line
end DumpConversion
