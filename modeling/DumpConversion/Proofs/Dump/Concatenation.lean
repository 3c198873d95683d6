import DumpConversion.Proofs.Dump.FinalForm
import DumpConversion.Proofs.Text.Joining

/-! # Dumps one after the other

A scan of two dumps with a line ending between them is the scan of the first followed by that of the
second. The comma repair looks back, but never over the seam: a dump that is accepted on its own
shows a line of its own before it closes a table.

* `Statistics.plus`: the counts of two scans taken together.
* `ScanState.scanLines_append`: a scan of appended lines goes on from where the first lines led.
* `Dump.finalLines_append`: lines after which no table is closed first lose nothing to lines before
  them.
* `sanitizeText_append`: the dump of both, the text and the counts.
-/

namespace DumpConversion

set_option autoImplicit false

/-! ## Cutting and joining -/

namespace Text

/-- Up to outer blanks, two texts with a line ending between them have the lines of both. -/
theorem map_trim_lines_append (e : LineEnding) (a b : Text) :
    (lines (a ++ e.separator ++ b)).map trim = (lines a ++ lines b).map trim := by
  obtain ⟨front, last, ha, hac⟩ := splitOn_append_of_not_mem e.not_mem_carriage a
  have hcut : lines (a ++ e.separator ++ b) = lines (a ++ e.carriage) ++ lines b := by
    rw [LineEnding.separator_eq, ← List.append_assoc, List.append_assoc (a ++ e.carriage),
      List.singleton_append]
    exact splitOn_append_sep '\n' (a ++ e.carriage) b
  have hseam : (lines (a ++ e.carriage)).map trim = (lines a).map trim := by
    rw [lines, lines, ha, hac, List.map_append, List.map_append, List.map_singleton,
      List.map_singleton, trim_append_of_blank e.isBlankText_carriage]
  rw [hcut, List.map_append, List.map_append, hseam]

end Text

/-! ## Counts -/

/-- The counts of two scans taken together. -/
def Statistics.plus (x y : Statistics) : Statistics where
  read := x.read + y.read
  written := x.written + y.written
  keyLines := x.keyLines + y.keyLines
  trailingCommas := x.trailingCommas + y.trailingCommas
  collations := x.collations + y.collations
  characterSets := x.characterSets + y.characterSets
  unsigned := x.unsigned + y.unsigned
  quotes := x.quotes + y.quotes

/-- No more lines are dropped than were read. -/
theorem Statistics.finish_plus {x y : Statistics} (hx : x.keyLines ≤ x.read)
    (hy : y.keyLines ≤ y.read) : (x.plus y).finish = x.finish.plus y.finish := by
  have hwritten : x.read + y.read - (x.keyLines + y.keyLines) =
      x.read - x.keyLines + (y.read - y.keyLines) := by omega
  rw [finish, plus, hwritten]
  rfl

namespace Dump

theorem total_append (count : Text → Nat) (a b : List Text) :
    total count (a ++ b) = total count a + total count b := by
  induction a with
  | nil => exact (Nat.zero_add _).symm
  | cons line a ih => rw [List.cons_append, total, total, ih, Nat.add_assoc]

theorem length_retained (raws : List Text) :
    (retained raws).length + raws.countP (fun raw => Line.declaresKey (Text.trim raw)) =
      raws.length := by
  have hsplit := raws.length_eq_countP_add_countP fun raw => Line.declaresKey (Text.trim raw)
  have hretained : (retained raws).length =
      raws.countP fun raw => decide ¬Line.declaresKey (Text.trim raw) = true := by
    rw [retained, ← List.countP_eq_length_filter, List.countP_map]
    refine List.countP_congr fun raw _ => ?_
    simp
  rw [hretained, hsplit, Nat.add_comm]

/-! ## Lines after which no table is closed first -/

theorem closesNext_append {b : List Text} (h : closesNext b = false) (a : List Text) :
    closesNext (a ++ b) = closesNext a := by
  rw [closesNext, closesNext, List.find?_append]
  cases a.find? Line.isVisible with
  | none => exact h
  | some line => rfl

theorem finalLines_append {b : List Text} (h : closesNext b = false) (a : List Text) :
    finalLines (a ++ b) = finalLines a ++ finalLines b ∧
      totalCommasLost (a ++ b) = totalCommasLost a + totalCommasLost b := by
  induction a with
  | nil => exact ⟨rfl, (Nat.zero_add _).symm⟩
  | cons line a ih =>
    obtain ⟨hlines, hcommas⟩ := ih
    have hloses : losesCommas line (a ++ b) = losesCommas line a := by
      rw [losesCommas, losesCommas, closesNext_append h]
    constructor
    · rw [List.cons_append, finalLines_cons, finalLines_cons, finalLine, finalLine, hloses, hlines,
        List.cons_append]
    · rw [List.cons_append, totalCommasLost_cons, totalCommasLost_cons, commasLost, commasLost,
        hloses, hcommas, Nat.add_assoc]

/-- A retained line comes from a line that is no key line, and so do the retained lines before it. -/
theorem exists_of_retained_eq {raws between later : List Text} {line : Text}
    (h : retained raws = between ++ line :: later) :
    ∃ before raw after, raws = before ++ raw :: after ∧ retained before = between ∧
      Text.trim raw = line ∧ Line.declaresKey (Text.trim raw) = false := by
  obtain ⟨front, back, hsplit, hfront, hback⟩ := List.filter_eq_append_iff.mp h
  obtain ⟨skipped, after, rfl, hskipped, hline, -⟩ := List.filter_eq_cons_iff.mp hback
  rw [← List.append_assoc] at hsplit
  obtain ⟨before, rest, rfl, hbefore, hrest⟩ := List.map_eq_append_iff.mp hsplit
  obtain ⟨raw, after', rfl, hraw, -⟩ := List.map_eq_cons_iff.mp hrest
  refine ⟨before, raw, after', rfl, ?_, hraw, ?_⟩
  · rw [retained, hbefore, List.filter_append, hfront,
      List.filter_eq_nil_iff.mpr hskipped, List.append_nil]
  · rw [hraw]
    simpa using hline

end Dump

/-- An accepted dump shows something before it closes a table. -/
theorem closesNext_of_accepted {s : Text} {out : SanitizedDump} (h : sanitizeText s = .ok out) :
    Dump.closesNext (Dump.retained (Text.lines s)) = false := by
  rw [Bool.eq_false_iff]
  intro hcloses
  obtain ⟨between, closing, later, hretained, hbetween, hclosing⟩ :=
    Dump.closesNext_iff.mp hcloses
  obtain ⟨before, raw, after, hlines, rfl, rfl, hkey⟩ := Dump.exists_of_retained_eq hretained
  obtain ⟨line, hline, hvisible⟩ :=
    sanitizeText_isOk_iff.mp ⟨out, h⟩ before raw after hlines hkey hclosing
  rw [hbetween line hline] at hvisible
  cases hvisible

/-! ## Scans of appended lines -/

namespace ScanState

/-- A scan sees lines without their outer blanks. -/
theorem scanLines_congr {number : Nat} {xs ys : List Text} {st : ScanState}
    (h : xs.map Text.trim = ys.map Text.trim) : st.scanLines number xs = st.scanLines number ys := by
  induction xs generalizing number ys st with
  | nil =>
    rw [List.map_nil, eq_comm, List.map_eq_nil_iff] at h
    rw [h]
  | cons x xs ih =>
    obtain ⟨y, ys, rfl, hy, hys⟩ := List.map_eq_cons_iff.mp h.symm
    have hline : st.scanLine number x = st.scanLine number y := by
      rw [scanLine, scanLine, hy]
    rw [scanLines, scanLines, hline]
    cases st.scanLine number y with
    | ok next => exact ih hys.symm
    | error e => rfl

theorem scanLines_append {number : Nat} {xs : List Text} {st mid : ScanState}
    (h : st.scanLines number xs = .ok mid) (ys : List Text) :
    st.scanLines number (xs ++ ys) = mid.scanLines (number + xs.length) ys := by
  induction xs generalizing number st with
  | nil =>
    cases h
    rfl
  | cons x xs ih =>
    rw [scanLines] at h
    rw [List.cons_append, scanLines]
    cases hline : st.scanLine number x with
    | error e =>
      rw [hline] at h
      cases h
    | ok next =>
      rw [hline] at h
      simp only at h ⊢
      rw [ih h, List.length_cons, Nat.add_assoc, Nat.add_comm 1]

/-- What the scan holds after lines and accepted lines behind them. -/
theorem after_append {a b : List Text} (h : Dump.closesNext (Dump.retained b) = false) :
    (after (a ++ b)).retained.lines = (after a).retained.lines ++ (after b).retained.lines ∧
      (after (a ++ b)).statistics = (after a).statistics.plus (after b).statistics := by
  obtain ⟨hlines, hcommas⟩ := Dump.finalLines_append h (Dump.retained a)
  constructor
  · simp only [after, Retained.lines, List.reverse_reverse, Dump.retained_append, hlines]
  · simp only [after, Statistics.plus, Dump.retained_append, hcommas, Dump.total_append,
      List.length_append, List.countP_append]

end ScanState

theorem scanLines_of_accepted {s : Text} {out : SanitizedDump} (h : sanitizeText s = .ok out) :
    (ScanState.after []).scanLines 1 (Text.lines s) = .ok (ScanState.after (Text.lines s)) := by
  rw [sanitizeText, ← ScanState.after_nil] at h
  cases hscan : (ScanState.after []).scanLines 1 (Text.lines s) with
  | error e =>
    rw [hscan] at h
    cases h
  | ok st => rw [ScanState.scanLines_after hscan, List.nil_append]

/-- Where a dump was accepted, accepted lines may follow it. -/
theorem scanLines_append_of_accepted {a b : Text} {x y : SanitizedDump}
    (ha : sanitizeText a = .ok x) (hb : sanitizeText b = .ok y) :
    (ScanState.after []).scanLines 1 (Text.lines a ++ Text.lines b) =
      .ok (ScanState.after (Text.lines a ++ Text.lines b)) := by
  rw [ScanState.scanLines_append (scanLines_of_accepted ha)]
  have haccepted := sanitizeText_isOk_iff.mp ⟨y, hb⟩
  have hscan := @ScanState.scanLines_after_isOk_iff (Text.lines b) (Text.lines a)
    (1 + (Text.lines a).length)
  obtain ⟨st, hst⟩ := hscan.mpr fun before raw later hlines hkey hcloses => by
      obtain ⟨line, hline, hvisible⟩ := haccepted before raw later hlines hkey hcloses
      refine ⟨line, ?_, hvisible⟩
      rw [Dump.retained_append]
      exact List.mem_append_right _ hline
  rw [hst, ScanState.scanLines_after hst]

/-! ## Two dumps -/

/-- Something is written exactly when a line is retained. -/
theorem finalLines_ne_nil_of_written {s : Text} {out : SanitizedDump} (h : sanitizeText s = .ok out)
    (hwritten : 0 < out.statistics.written) :
    (ScanState.after (Text.lines s)).retained.lines ≠ [] := by
  intro hnil
  have hlength := congrArg List.length hnil
  simp only [ScanState.after, Retained.lines, List.reverse_reverse, Dump.length_finalLines,
    List.length_nil] at hlength
  have hkeys := Dump.length_retained (Text.lines s)
  rw [sanitizeText_eq_after h] at hwritten
  simp only [Statistics.finish, ScanState.after] at hwritten
  omega

/-- Two accepted dumps that both write a line, with the line ending of all three texts between them,
make an accepted dump. It comes out as the two come out, with the line ending between them, and each
of its counts is the sum of theirs. -/
theorem sanitizeText_append {a b : Text} {x y : SanitizedDump} {e : LineEnding}
    (ha : sanitizeText a = .ok x) (hb : sanitizeText b = .ok y)
    (hx : 0 < x.statistics.written) (hy : 0 < y.statistics.written)
    (hea : LineEnding.ofText a = e) (heb : LineEnding.ofText b = e)
    (he : LineEnding.ofText (a ++ e.separator ++ b) = e) :
    sanitizeText (a ++ e.separator ++ b) =
      .ok ⟨x.text ++ e.separator ++ y.text, e, x.statistics.plus y.statistics⟩ := by
  have hscan : ScanState.initial.scanLines 1 (Text.lines (a ++ e.separator ++ b)) =
      .ok (ScanState.after (Text.lines a ++ Text.lines b)) := by
    rw [ScanState.scanLines_congr (Text.map_trim_lines_append e a b), ← ScanState.after_nil,
      scanLines_append_of_accepted ha hb]
  obtain ⟨hlines, hcounts⟩ := ScanState.after_append (a := Text.lines a) (closesNext_of_accepted hb)
  have hkeys : ∀ s : Text, (ScanState.after (Text.lines s)).statistics.keyLines ≤
      (ScanState.after (Text.lines s)).statistics.read := fun s => List.countP_le_length
  have htext : (ScanState.after (Text.lines a ++ Text.lines b)).retained.joinedBy e.separator =
      x.text ++ e.separator ++ y.text := by
    rw [Retained.joinedBy, hlines, Text.joinWith_append (finalLines_ne_nil_of_written ha hx)
      (finalLines_ne_nil_of_written hb hy), sanitizeText_eq_after ha, sanitizeText_eq_after hb,
      hea, heb]
    rfl
  have hstatistics : (ScanState.after (Text.lines a ++ Text.lines b)).statistics.finish =
      x.statistics.plus y.statistics := by
    rw [hcounts, Statistics.finish_plus (hkeys a) (hkeys b), sanitizeText_eq_after ha,
      sanitizeText_eq_after hb]
  rw [sanitizeText, he, hscan]
  simp only [Except.map, htext, hstatistics]

/-- At the seam stand a comma, a key line, a line of commas and blank lines. The closing line of the
second dump takes the comma of its own line and not the one before the seam. -/
theorem sanitizeText_append_of_two_tables :
    let a := "x,\r\nKEY,\r\n,\r\n".toList
    let b := "\r\n y,\r\n)".toList
    let x : SanitizedDump := ⟨"x,\r\n,\r\n".toList, .crlf, ⟨4, 3, 1, 0, 0, 0, 0, 0⟩⟩
    let y : SanitizedDump := ⟨"\r\ny\r\n)".toList, .crlf, ⟨3, 3, 0, 1, 0, 0, 0, 0⟩⟩
    sanitizeText a = .ok x ∧ sanitizeText b = .ok y ∧
      sanitizeText (a ++ LineEnding.crlf.separator ++ b) =
        .ok ⟨x.text ++ LineEnding.crlf.separator ++ y.text, .crlf,
          x.statistics.plus y.statistics⟩ := by
  intro a b x y
  have ha : sanitizeText a = .ok x := rfl
  have hb : sanitizeText b = .ok y := rfl
  exact ⟨ha, hb, sanitizeText_append ha hb (by decide) (by decide) rfl rfl rfl⟩

end DumpConversion
