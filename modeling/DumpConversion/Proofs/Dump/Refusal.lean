import DumpConversion.Proofs.Dump.Lookahead

/-! # Refused dumps

A line that closes a table is refused as long as nothing can be seen before it. What stood before it
is judged after the four rules and after the commas that earlier lines took off, and a closing line
that has passed can be seen itself. So the scan refuses the first closing line or none.

* `Dump.Closes`, `Dump.Hidden`: a retained line that closes a table, and lines of which nothing can
  be seen.
* `ScanState.scanLines_after_error_iff`: where a scan stops, and with which number.
* `Dump.FirstClosing`: the lines before the first closing line.
* `sanitizeText_refused_iff`: the dumps that are refused.
-/

namespace DumpConversion

set_option autoImplicit false

/-! ## Closing lines and hidden lines -/

namespace Dump

/-- The line is retained and closes a table. -/
def Closes (raw : Text) : Prop :=
  Line.declaresKey (Text.trim raw) = false ∧ Line.closesTable (Text.trim raw) = true

/-- Nothing can be seen of what a scan retains of the lines. -/
def Hidden (raws : List Text) : Prop := ∀ line ∈ retained raws, Line.isVisible line = false

theorem Closes.mem_retained {raws : List Text} {raw : Text} (h : Closes raw) (hraw : raw ∈ raws) :
    Text.trim raw ∈ retained raws :=
  List.mem_filter.mpr ⟨List.mem_map_of_mem hraw, by rw [h.1]; rfl⟩

/-- A line that closes a table can be seen. -/
theorem Hidden.not_closes {raws : List Text} (h : Hidden raws) {raw : Text} (hraw : raw ∈ raws) :
    ¬ Closes raw := by
  intro hcloses
  have hvisible := Line.isVisible_of_closesTable hcloses.2
  rw [h _ (hcloses.mem_retained hraw)] at hvisible
  cases hvisible

theorem hidden_iff {raws : List Text} :
    Hidden raws ↔ ∀ raw ∈ raws, Line.declaresKey (Text.trim raw) = false →
      Text.isBlankText (Line.rewritten (Text.trim raw)) = true := by
  constructor
  · intro h raw hraw hkey
    have hmem : Text.trim raw ∈ retained raws :=
      List.mem_filter.mpr ⟨List.mem_map_of_mem hraw, by rw [hkey]; rfl⟩
    simpa [Line.isVisible] using h _ hmem
  · intro h line hline
    obtain ⟨hmem, hkey⟩ := List.mem_filter.mp hline
    obtain ⟨raw, hraw, rfl⟩ := List.mem_map.mp hmem
    rw [Line.isVisible, h raw hraw (by simpa using hkey)]
    rfl

end Dump

/-! ## Where a scan stops -/

namespace ScanState

theorem scanLine_of_hidden {raws : List Text} {raw : Text} (hcloses : Dump.Closes raw)
    (hhidden : Dump.Hidden raws) (number : Nat) :
    (after raws).scanLine number raw = .error (.nothingToClose number) := by
  rw [scanLine_after, if_pos]
  simp only [hcloses.1, hcloses.2, Bool.not_false, Bool.true_and, List.all_eq_true]
  exact fun line hline => by rw [hhidden line hline]; rfl

theorem scanLine_of_passing {raws : List Text} {raw : Text}
    (h : ¬ (Dump.Closes raw ∧ Dump.Hidden raws)) (number : Nat) :
    (after raws).scanLine number raw = .ok (after (raws ++ [raw])) := by
  rw [scanLine_after, if_neg]
  intro hrefused
  simp only [Bool.and_eq_true, Bool.not_eq_true', List.all_eq_true] at hrefused
  exact h hrefused

/-- A scan stops at a closing line that is preceded by hidden lines only, with the number of that
line. -/
theorem scanLines_after_error_iff {rest raws : List Text} {number : Nat} {e : DumpError} :
    (after raws).scanLines number rest = .error e ↔
      ∃ before raw later, rest = before ++ raw :: later ∧ Dump.Closes raw ∧
        Dump.Hidden (raws ++ before) ∧ e = .nothingToClose (number + before.length) := by
  induction rest generalizing raws number with
  | nil => simp [scanLines]
  | cons first rest ih =>
    by_cases hstop : Dump.Closes first ∧ Dump.Hidden raws
    · -- no later line can be the one: this one would be seen before it
      rw [scanLines, scanLine_of_hidden hstop.1 hstop.2]
      constructor
      · rintro ⟨rfl⟩
        exact ⟨[], first, rest, rfl, hstop.1, by simpa using hstop.2, rfl⟩
      · rintro ⟨before, raw, later, hsplit, -, hhidden, rfl⟩
        cases before with
        | nil => rfl
        | cons x before =>
          rw [List.cons_append, List.cons.injEq] at hsplit
          obtain ⟨rfl, -⟩ := hsplit
          exact absurd hstop.1 (hhidden.not_closes (by simp))
    · rw [scanLines, scanLine_of_passing hstop]
      simp only
      rw [ih]
      constructor
      · rintro ⟨before, raw, later, rfl, hcloses, hhidden, rfl⟩
        refine ⟨first :: before, raw, later, rfl, hcloses, by simpa using hhidden, ?_⟩
        rw [List.length_cons, Nat.add_assoc, Nat.add_comm 1]
      · rintro ⟨before, raw, later, hsplit, hcloses, hhidden, rfl⟩
        cases before with
        | nil =>
          rw [List.nil_append, List.cons.injEq] at hsplit
          obtain ⟨rfl, -⟩ := hsplit
          exact absurd ⟨hcloses, by simpa using hhidden⟩ hstop
        | cons x before =>
          rw [List.cons_append, List.cons.injEq] at hsplit
          obtain ⟨rfl, rfl⟩ := hsplit
          refine ⟨before, raw, later, rfl, hcloses, by simpa using hhidden, ?_⟩
          rw [List.length_cons, Nat.add_assoc, Nat.add_comm 1]

/-- A scan that has passed over a closing line does not stop at a later one. -/
theorem scanLines_of_passed {front rest : List Text} {raw : Text} {number : Nat} {st : ScanState}
    (hscan : (after []).scanLines number front = .ok st) (hraw : raw ∈ front)
    (hcloses : Dump.Closes raw) (e : DumpError) :
    (after []).scanLines number (front ++ rest) ≠ .error e := by
  intro herror
  obtain ⟨before, stopper, later, hsplit, hstopper, hhidden, -⟩ :=
    scanLines_after_error_iff.mp herror
  rw [List.nil_append] at hhidden
  rcases List.append_eq_append_iff.mp hsplit with ⟨more, rfl, -⟩ | ⟨more, rfl, hmore⟩
  · exact hhidden.not_closes (List.mem_append_left more hraw) hcloses
  · cases more with
    | nil =>
      rw [List.append_nil] at hraw
      exact hhidden.not_closes hraw hcloses
    | cons x more =>
      -- the scan would have stopped among the lines it has passed over
      rw [List.cons_append, List.cons.injEq] at hmore
      obtain ⟨rfl, -⟩ := hmore
      have hstop : (after []).scanLines number (before ++ stopper :: more) =
          .error (.nothingToClose (number + before.length)) :=
        scanLines_after_error_iff.mpr
          ⟨before, stopper, more, rfl, hstopper, by rwa [List.nil_append], rfl⟩
      rw [hscan] at hstop
      cases hstop

end ScanState

/-! ## Refused dumps -/

theorem sanitizeText_eq_error_iff {s : Text} {e : DumpError} :
    sanitizeText s = .error e ↔ (ScanState.after []).scanLines 1 (Text.lines s) = .error e := by
  rw [sanitizeText, ScanState.after_nil]
  cases ScanState.initial.scanLines 1 (Text.lines s) with
  | ok st => simp [Except.map]
  | error f => simp [Except.map]

/-- The lines before the first of the given lines that is retained and closes a table. -/
structure Dump.FirstClosing (raws before : List Text) : Prop where
  closes : ∃ raw later, raws = before ++ raw :: later ∧ Closes raw
  open_before : ∀ raw ∈ before, ¬ Closes raw

/-- A dump is refused exactly when it has a retained line that closes a table and every retained line
before the first such line is blank after the four rules. The refusal names the number of that line
among all lines. A scan that has passed over a closing line is not refused any more. -/
theorem sanitizeText_refused_iff (s : Text) :
    (∀ e, sanitizeText s = .error e ↔ ∃ before, Dump.FirstClosing (Text.lines s) before ∧
      (∀ raw ∈ before, Line.declaresKey (Text.trim raw) = false →
        Text.isBlankText (Line.rewritten (Text.trim raw)) = true) ∧
      e = .nothingToClose (before.length + 1)) ∧
    ∀ front rest raw st, Text.lines s = front ++ rest → raw ∈ front → Dump.Closes raw →
      ScanState.initial.scanLines 1 front = .ok st → ∃ out, sanitizeText s = .ok out := by
  have hstops : ∀ e, sanitizeText s = .error e ↔ ∃ before raw later,
      Text.lines s = before ++ raw :: later ∧ Dump.Closes raw ∧ Dump.Hidden before ∧
        e = .nothingToClose (before.length + 1) := by
    intro e
    rw [sanitizeText_eq_error_iff, ScanState.scanLines_after_error_iff]
    simp only [List.nil_append, Nat.add_comm 1]
  refine ⟨fun e => ?_, fun front rest raw st hsplit hraw hcloses hscan => ?_⟩
  · rw [hstops]
    constructor
    · rintro ⟨before, raw, later, hsplit, hcloses, hhidden, rfl⟩
      exact ⟨before, ⟨⟨raw, later, hsplit, hcloses⟩, fun _ => hhidden.not_closes⟩,
        Dump.hidden_iff.mp hhidden, rfl⟩
    · rintro ⟨before, ⟨⟨raw, later, hsplit, hcloses⟩, -⟩, hblank, rfl⟩
      exact ⟨before, raw, later, hsplit, hcloses, Dump.hidden_iff.mpr hblank, rfl⟩
  · cases hresult : sanitizeText s with
    | ok out => exact ⟨out, rfl⟩
    | error e =>
      rw [sanitizeText_eq_error_iff, hsplit] at hresult
      exact absurd hresult (ScanState.scanLines_of_passed hscan hraw hcloses e)

end DumpConversion
