import DumpConversion.Proofs.Dump.Lookahead

/-! # The history of retained lines

Lines are added and repaired in any order. A repair may empty a line of commas, so that the next
repair goes further back, and still every line can be told from what was added.

* `Retained.Change`, `Retained.perform`, `Retained.performAll`: what may be done with retained lines,
  once and again and again.
* `Retained.Remembers`: the lines are those that were added, in order, without some of the commas at
  their ends, and the missing commas are counted.
* `Retained.Repairs`: what one repair does, and when there is nothing to repair.
* `Retained.perform_remembers`, `Retained.performAll_remembers`: every change keeps the history, and
  so does every sequence of changes.
-/

namespace DumpConversion

set_option autoImplicit false

namespace Retained

/-! ## The line that a repair changes -/

theorem dropCommas_append {blanks older : List Text} {line : Text}
    (hblanks : ∀ b ∈ blanks, Text.isBlankText b = true) (hline : Text.isBlankText line = false) :
    dropCommas (blanks ++ line :: older) =
      some (blanks ++ withoutTrailingCommas line :: older, Line.trailingCommas line) := by
  induction blanks with
  | nil =>
    have hlength := Line.length_withoutTrailingCommas line
    have hcount : line.length - (withoutTrailingCommas line).length = Line.trailingCommas line := by
      omega
    simp [dropCommas, hline, hcount]
  | cons b blanks ih =>
    obtain ⟨hb, hblanks⟩ := List.forall_mem_cons.mp hblanks
    rw [List.cons_append, dropCommas, if_pos hb, ih hblanks]
    rfl

/-- The repair goes over the blank lines at the end to the line before them. -/
theorem exists_dropTrailingCommas {r : Retained} {older blanks : List Text} {line : Text}
    (hlines : r.lines = older ++ line :: blanks) (hline : Text.isBlankText line = false)
    (hblanks : ∀ b ∈ blanks, Text.isBlankText b = true) :
    ∃ repaired, r.dropTrailingCommas = some (repaired, Line.trailingCommas line) ∧
      repaired.lines = older ++ withoutTrailingCommas line :: blanks := by
  have hnewest : r.newestFirst = blanks.reverse ++ line :: older.reverse := by
    have h := congrArg List.reverse hlines
    rw [lines, List.reverse_reverse, List.reverse_append, List.reverse_cons, List.append_assoc] at h
    exact h
  have hreverse : ∀ b ∈ blanks.reverse, Text.isBlankText b = true :=
    fun b hb => hblanks b (List.mem_reverse.mp hb)
  refine ⟨⟨blanks.reverse ++ withoutTrailingCommas line :: older.reverse⟩, ?_, ?_⟩
  · rw [dropTrailingCommas, hnewest, dropCommas_append hreverse hline]
    rfl
  · simp only [lines, List.reverse_append, List.reverse_cons, List.reverse_reverse,
      List.append_assoc, List.singleton_append]

/-- Lines that are not all blank have a last one that is not. -/
theorem exists_split_at_shown {ls : List Text} (h : ¬ ∀ line ∈ ls, Text.isBlankText line = true) :
    ∃ older line blanks, ls = older ++ line :: blanks ∧ Text.isBlankText line = false ∧
      ∀ b ∈ blanks, Text.isBlankText b = true := by
  induction ls using List.reverseRecOn with
  | nil => exact absurd (fun _ hmem => absurd hmem List.not_mem_nil) h
  | append_singleton ls last ih =>
    cases hlast : Text.isBlankText last with
    | false => exact ⟨ls, last, [], rfl, hlast, fun _ hmem => absurd hmem List.not_mem_nil⟩
    | true =>
      have hearlier : ¬ ∀ line ∈ ls, Text.isBlankText line = true := by
        intro hall
        refine h fun line hmem => ?_
        rcases List.mem_append.mp hmem with hmem | hmem
        · exact hall line hmem
        · rw [List.mem_singleton.mp hmem, hlast]
      obtain ⟨older, line, blanks, rfl, hline, hblanks⟩ := ih hearlier
      refine ⟨older, line, blanks ++ [last], by simp, hline, fun b hb => ?_⟩
      rcases List.mem_append.mp hb with hb | hb
      · exact hblanks b hb
      · rw [List.mem_singleton.mp hb, hlast]

theorem getLast?_withoutTrailingCommas (line : Text) :
    (withoutTrailingCommas line).getLast? ≠ some ',' := by
  rw [withoutTrailingCommas, Text.dropTrailing, List.getLast?_reverse]
  intro h
  have hnot := List.head?_dropWhile_not (· == ',') line.reverse
  rw [h] at hnot
  simp at hnot

/-! ## Changes -/

/-- What may be done with retained lines. -/
inductive Change where
  | add (line : Text)
  | repair
  deriving DecidableEq, Repr

/-- What a change answers, and the lines after it. Only a repair has something to answer, and without
an answer it has done nothing. -/
def perform (r : Retained) : Change → Option Nat × Retained
  | .add line => (none, r.add line)
  | .repair =>
    match r.dropTrailingCommas with
    | some (repaired, commas) => (some commas, repaired)
    | none => (none, r)

/-- The answers of consecutive changes, and the lines after them. -/
def performAll : List Change → Retained → List (Option Nat) × Retained
  | [], r => ([], r)
  | change :: rest, r =>
    let one := r.perform change
    let more := performAll rest one.2
    (one.1 :: more.1, more.2)

/-- The lines that the changes add, in order. -/
def added (changes : List Change) : List Text :=
  changes.filterMap fun
    | .add line => some line
    | .repair => none

/-- The sum of numbers. -/
def sumOf (numbers : List Nat) : Nat := numbers.foldr (· + ·) 0

theorem sumOf_cons (n : Nat) (numbers : List Nat) : sumOf (n :: numbers) = n + sumOf numbers := rfl

theorem sumOf_append (front back : List Nat) : sumOf (front ++ back) = sumOf front + sumOf back := by
  induction front with
  | nil => exact (Nat.zero_add _).symm
  | cons n front ih => rw [List.cons_append, sumOf_cons, sumOf_cons, ih, Nat.add_assoc]

/-- The sum of the numbers among the answers. -/
def answered (answers : List (Option Nat)) : Nat := sumOf (answers.filterMap id)

/-! ## What a repair does -/

/-- A repair that answers nothing leaves the lines as they are, which it does exactly if all of them
are blank. Any other repair takes the commas that it answers off the end of the last line that is not
blank. -/
structure Repairs (r : Retained) (answer : Option Nat) (after : Retained) : Prop where
  idle_iff : answer = none ↔ ∀ line ∈ r.lines, Text.isBlankText line = true
  idle : answer = none → after = r
  busy : ∀ commas, answer = some commas → ∃ older line blanks kept,
    r.lines = older ++ line :: blanks ∧ Text.isBlankText line = false ∧
    (∀ b ∈ blanks, Text.isBlankText b = true) ∧ after.lines = older ++ kept :: blanks ∧
    line = kept ++ List.replicate commas ',' ∧ kept.getLast? ≠ some ','

theorem perform_repairs (r : Retained) :
    r.Repairs (r.perform .repair).1 (r.perform .repair).2 := by
  by_cases hblank : ∀ line ∈ r.lines, Text.isBlankText line = true
  · have hnone := dropTrailingCommas_eq_none_iff.mpr hblank
    simp only [perform, hnone]
    exact ⟨⟨fun _ => hblank, fun _ => rfl⟩, fun _ => rfl, fun _ h => nomatch h⟩
  · obtain ⟨older, line, blanks, hlines, hline, hblanks⟩ := exists_split_at_shown hblank
    obtain ⟨repaired, hsome, hrepaired⟩ := exists_dropTrailingCommas hlines hline hblanks
    simp only [perform, hsome]
    refine ⟨⟨fun h => (nomatch h), fun h => absurd h hblank⟩, fun h => (nomatch h), ?_⟩
    rintro commas ⟨⟩
    exact ⟨older, line, blanks, withoutTrailingCommas line, hlines, hline, hblanks, hrepaired,
      (Line.withoutTrailingCommas_append line).symm, getLast?_withoutTrailingCommas line⟩

/-! ## What is remembered -/

/-- The line with commas behind it. -/
def withCommas (line : Text) (commas : Nat) : Text := line ++ List.replicate commas ','

/-- The lines are the given ones, in order, each without some commas at its end: `lost` has a number
for each of them. -/
structure RemembersBy (r : Retained) (original : List Text) (lost : List Nat) : Prop where
  lines_length : r.lines.length = original.length
  lost_length : lost.length = original.length
  original_eq : List.zipWith withCommas r.lines lost = original

/-- The lines are the given ones, in order, each without some commas at its end, and `total` commas
are missing in all. -/
def Remembers (r : Retained) (original : List Text) (total : Nat) : Prop :=
  ∃ lost, r.RemembersBy original lost ∧ sumOf lost = total

theorem remembers_empty : Remembers empty [] 0 := ⟨[], ⟨rfl, rfl, rfl⟩, rfl⟩

theorem Remembers.add {r : Retained} {original : List Text} {total : Nat}
    (h : r.Remembers original total) (line : Text) :
    (r.add line).Remembers (original ++ [line]) total := by
  obtain ⟨lost, ⟨hlines, hlost, horiginal⟩, htotal⟩ := h
  refine ⟨lost ++ [0], ⟨?_, ?_, ?_⟩, ?_⟩
  · rw [lines_add, List.length_append, List.length_append, hlines]
  · rw [List.length_append, List.length_append, hlost]
    rfl
  · rw [lines_add, List.zipWith_append (hlines.trans hlost.symm), horiginal]
    simp [withCommas]
  · rw [sumOf_append, htotal]
    rfl

/-- A repair moves its commas from the end of one line to the count for that line. -/
theorem Remembers.repair {r after : Retained} {original : List Text} {total commas : Nat}
    (h : r.Remembers original total) {older blanks : List Text} {line kept : Text}
    (hlines : r.lines = older ++ line :: blanks) (hafter : after.lines = older ++ kept :: blanks)
    (hline : line = kept ++ List.replicate commas ',') :
    after.Remembers original (total + commas) := by
  obtain ⟨lost, ⟨hlength, hlost, rfl⟩, rfl⟩ := h
  rw [List.length_zipWith] at hlength hlost
  -- the numbers for the lines before, for the line itself and for the lines behind it
  obtain ⟨front, n, back, rfl, hfront⟩ :
      ∃ front n back, lost = front ++ n :: back ∧ older.length = front.length := by
    have hlt : older.length < lost.length := by
      rw [hlines, List.length_append, List.length_cons] at hlength
      omega
    refine ⟨lost.take older.length, lost[older.length], lost.drop (older.length + 1), ?_, ?_⟩
    · rw [List.getElem_cons_drop hlt, List.take_append_drop]
    · rw [List.length_take, Nat.min_eq_left (Nat.le_of_lt hlt)]
  refine ⟨front ++ (commas + n) :: back, ⟨?_, ?_, ?_⟩, ?_⟩
  · rw [hlines] at hlength ⊢
    rw [hafter, List.length_zipWith]
    simpa using hlength
  · rw [List.length_zipWith]
    simpa using hlost
  · rw [hlines, hafter, List.zipWith_append hfront, List.zipWith_append hfront,
      List.zipWith_cons_cons, List.zipWith_cons_cons, hline]
    simp only [withCommas, List.append_assoc, List.replicate_append_replicate]
  · simp only [sumOf_append, sumOf_cons]
    omega

/-- A change adds its line to what is remembered and its answer to the commas that are missing. -/
theorem perform_remembers {r : Retained} {original : List Text} {total : Nat}
    (h : r.Remembers original total) (change : Change) :
    (r.perform change).2.Remembers (original ++ added [change])
      (total + answered [(r.perform change).1]) := by
  cases change with
  | add line => exact h.add line
  | repair =>
    have hrepairs := r.perform_repairs
    have hadded : original ++ added [.repair] = original := List.append_nil original
    rw [hadded]
    cases hanswer : (r.perform .repair).1 with
    | none =>
      rw [hrepairs.idle hanswer]
      exact h
    | some commas =>
      obtain ⟨older, line, blanks, kept, hlines, -, -, hafter, hline, -⟩ :=
        hrepairs.busy commas hanswer
      exact h.repair hlines hafter hline

/-- So does every sequence of changes. -/
theorem performAll_remembers (changes : List Change) {r : Retained} {original : List Text}
    {total : Nat} (h : r.Remembers original total) :
    (performAll changes r).2.Remembers (original ++ added changes)
      (total + answered (performAll changes r).1) := by
  induction changes generalizing r original total with
  | nil => simpa [performAll, added, answered, sumOf] using h
  | cons change rest ih =>
    have hmore := ih (perform_remembers h change)
    have hadded : added (change :: rest) = added [change] ++ added rest :=
      List.filterMap_append (l := [change])
    have hanswered : ∀ a as, answered (a :: as) = answered [a] + answered as := by
      intro a as
      rw [answered, answered, answered, ← sumOf_append, ← List.filterMap_append]
      rfl
    rw [performAll, hadded, hanswered, ← List.append_assoc, ← Nat.add_assoc]
    exact hmore

/-- After any changes, the retained lines are the lines that were added, in order, each without some
of the commas at its end, and as many commas are missing as the repairs have answered. A repair then
finds nothing to do exactly if every line is blank; otherwise it changes at most the last line that is
not blank, and leaves it without a comma at its end. -/
theorem performAll_history (changes : List Change) :
    let run := performAll changes empty
    run.2.Remembers (added changes) (answered run.1) ∧
      run.2.Repairs (run.2.perform .repair).1 (run.2.perform .repair).2 := by
  have h := performAll_remembers changes remembers_empty
  rw [List.nil_append, Nat.zero_add] at h
  exact ⟨h, perform_repairs _⟩

/-- A repair that empties a line of commas sends the next one to the line before it. -/
example : performAll [.add "a,,".toList, .add ",".toList, .repair, .repair, .add [], .repair] empty =
    ([none, none, some 1, some 2, none, some 0], ⟨[[], [], "a".toList]⟩) := by decide

end Retained
end DumpConversion
