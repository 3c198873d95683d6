import DumpConversion.Dump.Line
import Mathlib.Data.List.Basic

/-! # Doubled quotes

Doubling the escaped quotes of a line only turns backslashes into quotes, each of them in its place.

* `Line.quoted`: the new line character by character.
* `Line.plain`: a text in which backslashes and quotes are not told apart; it is the same before and
  after.
* `Line.backslashQuote_infix_quoted_iff`: an escaped quote is left behind exactly where two
  backslashes stood before a quote.
-/

namespace DumpConversion

set_option autoImplicit false

namespace Line

/-! ## The new line -/

/-- The line with every backslash before a quote turned into a quote. -/
def quoted : Text → Text
  | [] => []
  | c :: s => (if c = '\\' ∧ s.head? = some '\'' then '\'' else c) :: quoted s

theorem quoted_quote (s : Text) : quoted ('\'' :: s) = '\'' :: quoted s := by
  rw [quoted, if_neg (by simp)]

theorem doubleQuotes_line (line : Text) : (doubleQuotes line).1 = quoted line := by
  induction hn : line.length using Nat.strongRecOn generalizing line with
  | ind n ih =>
    cases line with
    | nil => rfl
    | cons c s =>
      by_cases h : c = '\\' ∧ s.head? = some '\''
      · obtain ⟨rfl, hs⟩ := h
        obtain ⟨s, rfl⟩ := List.head?_eq_some_iff.mp hs
        have hmatch : backslashQuote.isPrefixOf ('\\' :: '\'' :: s) = true := by
          simp [backslashQuote, List.isPrefixOf]
        have ihs := ih s.length (by rw [← hn, List.length_cons, List.length_cons]; omega) s rfl
        unfold doubleQuotes at ihs ⊢
        rw [Text.replaceAll_cons_of_match hmatch, quoted, if_pos ⟨rfl, rfl⟩, quoted_quote, ← ihs]
        rfl
      · have hmatch : backslashQuote.isPrefixOf (c :: s) = false := by
          rw [Bool.eq_false_iff, Ne, List.isPrefixOf_iff_prefix]
          rintro ⟨t, ht⟩
          rw [backslashQuote, List.cons_append, List.cons.injEq] at ht
          exact h ⟨ht.1.symm, by rw [← ht.2]; rfl⟩
        have ihs := ih s.length (by simp [← hn]) s rfl
        unfold doubleQuotes at ihs ⊢
        rw [Text.replaceAll_cons_of_no_match hmatch, quoted, if_neg h, ← ihs]

theorem length_quoted (line : Text) : (quoted line).length = line.length := by
  induction line with
  | nil => rfl
  | cons c s ih => rw [quoted, List.length_cons, List.length_cons, ih]

theorem mem_of_mem_quoted {c : Char} {line : Text} (h : c ∈ quoted line) : c ∈ line ∨ c = '\'' := by
  induction line with
  | nil => cases h
  | cons d s ih =>
    rw [quoted, List.mem_cons] at h
    rcases h with rfl | h
    · split
      · exact .inr rfl
      · exact .inl List.mem_cons_self
    · exact (ih h).imp (List.mem_cons_of_mem d) id

/-! ## What stays the same -/

/-- A quote for a backslash, and every other character for itself. -/
def plainChar (c : Char) : Char := if c = '\\' then '\'' else c

/-- The text with quotes for backslashes. -/
def plain (s : Text) : Text := s.map plainChar

theorem plain_quoted (line : Text) : plain (quoted line) = plain line := by
  induction line with
  | nil => rfl
  | cons c s ih =>
    have hc : plainChar (if c = '\\' ∧ s.head? = some '\'' then '\'' else c) = plainChar c := by
      split
      · next h => rw [h.1]; rfl
      · rfl
    rw [quoted, plain, List.map_cons, hc]
    exact congrArg (plainChar c :: ·) ih

theorem plainChar_eq_iff {w : Text} (hw : '\\' ∉ w ∧ '\'' ∉ w) {x : Char} (hx : x ∈ w) {c : Char} :
    plainChar c = x ↔ c = x := by
  have hbackslash : '\\' ≠ x := by
    rintro rfl
    exact hw.1 hx
  have hquote : '\'' ≠ x := by
    rintro rfl
    exact hw.2 hx
  unfold plainChar
  split
  · next h => simp [h, hbackslash, hquote]
  · rfl

/-! ## What is left behind -/

theorem quoted_head?_eq_quote_iff {s : Text} :
    (quoted s).head? = some '\'' ↔ s.head? = some '\'' ∨ ['\\', '\''] <+: s := by
  cases s with
  | nil => simp [quoted]
  | cons c s =>
    have htwo : ['\\', '\''] <+: c :: s ↔ c = '\\' ∧ s.head? = some '\'' := by
      rw [List.cons_prefix_cons, List.head?_eq_some_iff]
      exact and_congr eq_comm ⟨fun ⟨t, ht⟩ => ⟨t, ht.symm⟩, fun ⟨t, ht⟩ => ⟨t, ht.symm⟩⟩
    rw [htwo, quoted, List.head?_cons, List.head?_cons, Option.some_inj, Option.some_inj]
    split
    · next h => simp [h]
    · next h => simp [h]

theorem backslashQuote_prefix_quoted_cons_iff {c : Char} {s : Text} :
    backslashQuote <+: quoted (c :: s) ↔ ['\\', '\\', '\''] <+: c :: s := by
  have hquote : ['\''] <+: quoted s ↔ (quoted s).head? = some '\'' := by
    cases quoted s with
    | nil => simp
    | cons d t => simp [eq_comm]
  rw [backslashQuote, quoted, List.cons_prefix_cons, hquote, quoted_head?_eq_quote_iff,
    List.cons_prefix_cons]
  split
  · next h =>
    -- the backslash went, and what follows it is the quote itself
    obtain ⟨-, hs⟩ := h
    obtain ⟨t, rfl⟩ := List.head?_eq_some_iff.mp hs
    simp
  · next h =>
    constructor
    · rintro ⟨rfl, hs | hs⟩
      · exact absurd ⟨rfl, hs⟩ h
      · exact ⟨rfl, hs⟩
    · rintro ⟨rfl, hs⟩
      exact ⟨rfl, .inr hs⟩

/-- An escaped quote is found after the quotes have been doubled exactly when two backslashes stood
before a quote. -/
theorem backslashQuote_infix_quoted_iff {line : Text} :
    backslashQuote <:+: quoted line ↔ ['\\', '\\', '\''] <:+: line := by
  induction line with
  | nil => simp [quoted, backslashQuote]
  | cons c s ih =>
    have hcons : backslashQuote <:+: quoted (c :: s) ↔
        backslashQuote <+: quoted (c :: s) ∨ backslashQuote <:+: quoted s := by
      rw [quoted]
      exact List.infix_cons_iff
    rw [hcons, backslashQuote_prefix_quoted_cons_iff, ih, List.infix_cons_iff]

end Line
end DumpConversion
