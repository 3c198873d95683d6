import DumpConversion.Proofs.Dump.Unchanged

/-! # What the clause rules do to a line

A rule for clauses takes whole clauses off a line and nothing else, each with all the blanks before
it. The rule for collations leaves none. The rule for character sets can leave one: its keyword has two
words, and they may meet where a clause that stood between them is taken off.

* `Clause.StandsBetween`: a clause with what stands before it and behind it on the line.
* `Clause.Removes`: a rule's result as the pieces that stay between the clauses.
* `dropClauses_cut`: both rules, alone and one after the other.
-/

namespace DumpConversion

set_option autoImplicit false

namespace Clause

/-! ## A clause on its line -/

/-- The text in the middle is a clause of the line: all the blanks before the keyword, the words of
the keyword from the start of a word on, blanks after each of them, and a name that reaches to a blank,
to a delimiter or to the end of the line. -/
def StandsBetween (k : Clause) (before m behind : Text) : Prop :=
  ∃ b words name, m = b ++ (words ++ name) ∧ Text.isBlankText b = true ∧
    (∀ c, before.getLast? = some c → Text.isBlank c = false) ∧
    startsWord (charBefore none (before ++ b)) = true ∧ SpacedWords k.words words ∧
    name ≠ [] ∧ (∀ c ∈ name, isNameChar c = true) ∧ EndsName behind

/-- The result is what stays of the line between the clauses that are cut out of it, and their
number. -/
structure Removes (k : Clause) (line : Text) (result : Text × Nat) (c : Cuts) : Prop where
  line : c.line = line
  kept : result.1 = c.kept
  count : result.2 = c.pieces.length
  standsBetween : ∀ front a m back, c.pieces = front ++ (a, m) :: back →
    k.StandsBetween (Cuts.line ⟨front, a⟩) m (Cuts.line ⟨back, c.last⟩)

theorem Cuts.line_split (front : List (Text × Text)) (a m : Text) (back : List (Text × Text))
    (s : Text) : line ⟨front ++ (a, m) :: back, s⟩ = line ⟨front, a⟩ ++ (m ++ line ⟨back, s⟩) := by
  induction front with
  | nil => rfl
  | cons p front ih =>
    obtain ⟨x, n⟩ := p
    rw [List.cons_append, line_cons, line_cons, ih, List.append_assoc, List.append_assoc]

section

variable {k : Clause} {front back : List (Text × Text)} {a m s : Text}

theorem CutOut.not_blank (hk : k.IsKeyword) (h : k.CutOut none ⟨front ++ (a, m) :: back, s⟩)
    {d : Char} (hd : (Cuts.line ⟨front, a⟩).getLast? = some d) : Text.isBlank d = false := by
  rcases List.eq_nil_or_concat a with rfl | ⟨a, e, rfl⟩
  · rcases List.eq_nil_or_concat front with rfl | ⟨front, p, rfl⟩
    · cases hd
    · -- the clause before ends in a name
      obtain ⟨x, n⟩ := p
      rw [List.concat_eq_append, List.append_assoc, List.singleton_append] at h
      obtain ⟨n, c, rfl, hc⟩ := h.firstCut.isClause.exists_concat
      rw [List.concat_eq_append, Cuts.line_split, Cuts.line_nil, List.append_nil,
        ← List.append_assoc, List.getLast?_concat, Option.some_inj] at hd
      rw [← hd]
      exact isBlank_of_isNameChar hc
  · refine h.firstCut.not_blank hk ?_
    rw [Cuts.line_append, List.concat_eq_append, ← List.append_assoc, List.getLast?_concat] at hd
    simpa using hd

theorem CutOut.standsBetween (hk : k.IsKeyword) (h : k.CutOut none ⟨front ++ (a, m) :: back, s⟩) :
    k.StandsBetween (Cuts.line ⟨front, a⟩) m (Cuts.line ⟨back, s⟩) := by
  have hfirst := h.firstCut
  obtain ⟨b, words, name, rfl, hb, hspaced, hname, hnameChar⟩ := hfirst.isClause
  refine ⟨b, words, name, rfl, hb, fun c hc => h.not_blank hk hc, ?_, hspaced, hname, hnameChar,
    hfirst.endsName⟩
  have hstart := hfirst.startsWord
  obtain ⟨c, words, rfl, hc⟩ := hspaced.exists_cons hk.words_ne hk.word_ne hk.isNameChar
  rw [← charBefore_append, ← Cuts.line_append] at hstart
  rw [charBefore_append]
  exact startsWord_charBefore hb (by simp [isBlank_of_isNameChar hc]) hstart

end

/-! ## The rule for a kind of clause -/

/-- What a rule leaves of a line holds a clause again exactly when a cut parts the words of its
keyword. -/
theorem exists_removes {k : Clause} (hk : k.IsKeyword) (line : Text) :
    ∃ c, k.Removes line (k.strip line) c ∧
      (k.occurs (k.strip line).1 = true ↔ k.Parts none c) := by
  obtain ⟨c, rfl, hc⟩ := exists_cutOut hk none line
  have hstrip : k.strip c.line = (c.kept, c.pieces.length) := hc.stripFrom hk
  refine ⟨c, ⟨rfl, by rw [hstrip], by rw [hstrip], fun front a m back hsplit => ?_⟩, ?_⟩
  · obtain ⟨pieces, last⟩ := c
    subst hsplit
    exact hc.standsBetween hk
  · rw [hstrip]
    exact occurs_kept_iff hk hc

theorem strip_eq_self_iff {k : Clause} (hk : k.IsKeyword) {line : Text} :
    k.strip line = (line, 0) ↔ k.occurs line = false := by
  refine ⟨fun h => ?_, strip_eq_self⟩
  rw [Bool.eq_false_iff]
  intro hoccurs
  have hlt := length_strip_lt hk hoccurs
  rw [h] at hlt
  exact Nat.lt_irrefl _ hlt

end Clause

/-! ## Both rules -/

/-- The rule for collations takes the clauses off the line that it is given and leaves the rest, in
which no collation clause is left, so that a second time changes nothing. The rule for character sets
does the same, but leaves a clause, which a second time takes off, exactly when the two words of a
keyword were parted by a clause. One after the other the two rules leave no collation clause, and a
character set clause exactly in this way. -/
theorem dropClauses_cut (line : Text) :
    (∃ c, Clause.collate.Removes line (Line.dropCollations line) c) ∧
    Clause.collate.occurs (Line.dropCollations line).1 = false ∧
    Line.dropCollations (Line.dropCollations line).1 = ((Line.dropCollations line).1, 0) ∧
    (∃ c, Clause.characterSet.Removes line (Line.dropCharacterSets line) c ∧
      (Clause.characterSet.occurs (Line.dropCharacterSets line).1 = true ↔
        Clause.characterSet.Parts none c) ∧
      (Line.dropCharacterSets (Line.dropCharacterSets line).1 =
        ((Line.dropCharacterSets line).1, 0) ↔ ¬ Clause.characterSet.Parts none c)) ∧
    Clause.collate.occurs (Line.clauseFree line) = false ∧
    ∃ c, Clause.characterSet.Removes (Line.dropCollations line).1
        (Line.dropCharacterSets (Line.dropCollations line).1) c ∧
      (Clause.characterSet.occurs (Line.clauseFree line) = true ↔
        Clause.characterSet.Parts none c) := by
  have hcollate := Clause.collate_isKeyword
  have hcharacterSet := Clause.characterSet_isKeyword
  have hnone := Clause.occurs_strip_of_word hcollate rfl line
  obtain ⟨collations, hcollations, -⟩ := Clause.exists_removes hcollate line
  obtain ⟨sets, hsets, hparts⟩ := Clause.exists_removes hcharacterSet line
  refine ⟨⟨collations, hcollations⟩, hnone, (Clause.strip_eq_self_iff hcollate).mpr hnone,
    ⟨sets, hsets, hparts, ?_⟩, Line.collate_occurs_clauseFree line,
    Clause.exists_removes hcharacterSet (Line.dropCollations line).1⟩
  rw [← hparts, Bool.not_eq_true]
  exact Clause.strip_eq_self_iff hcharacterSet

/-- A clause between the two words of a keyword is taken off, and the words meet: a clause is left,
by the rule alone and by both rules, and a second time takes it off. -/
theorem dropCharacterSets_leaves_clause :
    ¬ ∀ line : Text, Clause.characterSet.occurs (Line.dropCharacterSets line).1 = false ∧
      Line.dropCharacterSets (Line.dropCharacterSets line).1 =
        ((Line.dropCharacterSets line).1, 0) ∧
      Clause.characterSet.occurs (Line.clauseFree line) = false := by
  intro h
  have hleft : (Line.dropCharacterSets "CHARACTER CHARACTER SET x SET y".toList).1 =
      "CHARACTER SET y".toList := rfl
  have hnone := (h "CHARACTER CHARACTER SET x SET y".toList).1
  rw [hleft] at hnone
  exact absurd hnone (by decide +kernel)

end DumpConversion
