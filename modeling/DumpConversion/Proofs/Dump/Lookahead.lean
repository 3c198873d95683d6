import DumpConversion.Dump.Scan
import Mathlib.Data.List.Infix

/-! # The scan by one line of lookahead

The scan holds a buffer of retained lines and takes commas off an older one when a line that closes
a table arrives. Here the same text is given without a buffer: each retained line is changed by the
four rules, and whether it then loses its trailing commas hangs on the first visible line after it.

* `Line.rewritten`, `Line.isVisible`: a line after the four changes, and whether it is visible then.
* `Dump.finalLine`: a line as it stands in the output, from the retained lines after it.
* `ScanState.after`: the closed form of what the scan holds after the given lines.
* `ScanState.scanLines_after`: a scan that goes through holds this closed form after every line.
-/

namespace DumpConversion

set_option autoImplicit false

/-! ## Lines -/

namespace Line

/-- The line after the four changes. -/
def rewritten (line : Text) : Text :=
  (doubleQuotes (dropUnsigned (dropCharacterSets (dropCollations line).1).1).1).1

theorem adapt_line (line : Text) : (adapt line).line = rewritten line := rfl

/-- Something of the line can be seen after the four changes. -/
def isVisible (line : Text) : Bool := !Text.isBlankText (rewritten line)

/-- The number of commas at the end of a line. -/
def trailingCommas (line : Text) : Nat := (line.reverse.takeWhile (· == ',')).length

theorem withoutTrailingCommas_append (line : Text) :
    Retained.withoutTrailingCommas line ++ List.replicate (trailingCommas line) ',' = line := by
  have hcommas : line.reverse.takeWhile (· == ',') =
      List.replicate (trailingCommas line) ',' := by
    rw [List.eq_replicate_iff]
    refine ⟨rfl, fun c hc => ?_⟩
    simpa using List.all_eq_true.mp List.all_takeWhile c hc
  have hsplit := congrArg List.reverse
    (List.takeWhile_append_dropWhile (p := (· == ',')) (l := line.reverse))
  rwa [List.reverse_append, List.reverse_reverse, hcommas, List.reverse_replicate] at hsplit

theorem length_withoutTrailingCommas (line : Text) :
    (Retained.withoutTrailingCommas line).length + trailingCommas line = line.length := by
  have h := congrArg List.length (withoutTrailingCommas_append line)
  rwa [List.length_append, List.length_replicate] at h

/-! ## A line that closes a table -/

theorem strip_of_closing (k : Clause) {w : Text} {ws : List Text} (hk : k.words = w :: ws)
    (hw : w.head?.any (fun c => c != ')') = true) (s : Text) :
    ∃ t, (k.strip (')' :: s)).1 = ')' :: t := by
  obtain ⟨a, w, rfl⟩ : ∃ a w', w = a :: w' := by
    cases w with
    | nil => simp at hw
    | cons a w => exact ⟨a, w, rfl⟩
  have ha : a ≠ ')' := by simpa using hw
  have hnone : k.rest? none (')' :: s) = none := by
    apply Clause.rest?_eq_none_of_afterWords
    have htrim : Text.trimStart (')' :: s) = ')' :: s := by
      rw [Text.trimStart, List.dropWhile_cons_of_neg (by decide)]
    rw [htrim, hk, Clause.afterWords, if_neg]
    simp [ha]
  refine ⟨(k.stripFrom 0 (some ')') s).1, ?_⟩
  rw [Clause.strip, Clause.stripFrom, hnone]

theorem replaceAll_of_closing {p : Text} (hp : p.head?.any (fun c => c != ')') = true)
    (q s : Text) :
    ∃ t, (Text.replaceAll p q (')' :: s)).1 = ')' :: t := by
  have hmatch : p.isPrefixOf (')' :: s) = false := by
    cases p with
    | nil => simp at hp
    | cons a p =>
      have ha : a ≠ ')' := by simpa using hp
      simp [List.isPrefixOf, ha]
  exact ⟨_, by rw [Text.replaceAll_cons_of_no_match hmatch]⟩

theorem rewritten_of_closing (s : Text) : ∃ t, rewritten (')' :: s) = ')' :: t := by
  obtain ⟨a, ha⟩ := strip_of_closing Clause.collate rfl rfl s
  obtain ⟨b, hb⟩ := strip_of_closing Clause.characterSet rfl rfl a
  obtain ⟨c, hc⟩ := replaceAll_of_closing (p := unsignedQualifier) rfl [] b
  obtain ⟨d, hd⟩ := replaceAll_of_closing (p := backslashQuote) rfl quotePair c
  refine ⟨d, ?_⟩
  unfold rewritten doubleQuotes dropUnsigned dropCharacterSets dropCollations
  rw [ha, hb, hc, hd]

theorem isVisible_of_closesTable {line : Text} (h : closesTable line = true) :
    isVisible line = true := by
  obtain ⟨s, rfl⟩ := closesTable_iff.mp h
  obtain ⟨t, ht⟩ := rewritten_of_closing s
  have hc : Text.isBlank ')' = false := by decide
  simp [isVisible, ht, Text.isBlankText, hc]

end Line

/-! ## The lines of the output -/

namespace Dump

/-- The trimmed lines that a scan of the given lines retains. -/
def retained (raws : List Text) : List Text :=
  (raws.map Text.trim).filter fun line => !Line.declaresKey line

theorem retained_concat_of_key (raws : List Text) {raw : Text}
    (h : Line.declaresKey (Text.trim raw) = true) :
    retained (raws ++ [raw]) = retained raws := by
  simp [retained, h]

theorem retained_concat_of_no_key (raws : List Text) {raw : Text}
    (h : Line.declaresKey (Text.trim raw) = false) :
    retained (raws ++ [raw]) = retained raws ++ [Text.trim raw] := by
  simp [retained, h]

theorem retained_append (a b : List Text) : retained (a ++ b) = retained a ++ retained b := by
  rw [retained, List.map_append, List.filter_append]
  rfl

theorem retained_of_map_trim_eq {a b : List Text} (h : a.map Text.trim = b.map Text.trim) :
    retained a = retained b := by
  rw [retained, retained, h]

/-- The first visible one of the given lines closes a table. -/
def closesNext (rest : List Text) : Bool := (rest.find? Line.isVisible).any Line.closesTable

/-- A retained line loses its trailing commas when it is visible and the first visible one of the
retained lines after it closes a table. -/
def losesCommas (line : Text) (rest : List Text) : Bool := Line.isVisible line && closesNext rest

/-- A retained line as it stands in the output, from the retained lines after it. -/
def finalLine (line : Text) (rest : List Text) : Text :=
  if losesCommas line rest then Retained.withoutTrailingCommas (Line.rewritten line)
  else Line.rewritten line

/-- The number of commas that a retained line loses. -/
def commasLost (line : Text) (rest : List Text) : Nat :=
  if losesCommas line rest then Line.trailingCommas (Line.rewritten line) else 0

/-- The lines of the output, from the retained lines. -/
def finalLines (lines : List Text) : List Text :=
  lines.mapIdx fun i line => finalLine line (lines.drop (i + 1))

/-- The number of commas that the retained lines lose. -/
def totalCommasLost : List Text → Nat
  | [] => 0
  | line :: rest => commasLost line rest + totalCommasLost rest

@[simp] theorem finalLines_nil : finalLines [] = [] := rfl

@[simp] theorem finalLines_cons (line : Text) (rest : List Text) :
    finalLines (line :: rest) = finalLine line rest :: finalLines rest := by
  simp [finalLines, List.mapIdx_cons]

@[simp] theorem totalCommasLost_nil : totalCommasLost [] = 0 := rfl

@[simp] theorem totalCommasLost_cons (line : Text) (rest : List Text) :
    totalCommasLost (line :: rest) = commasLost line rest + totalCommasLost rest := rfl

theorem closesNext_of_invisible {rest : List Text}
    (h : ∀ line ∈ rest, Line.isVisible line = false) :
    closesNext rest = false := by
  have hf : rest.find? Line.isVisible = none := by
    rw [List.find?_eq_none]
    intro line hl
    simp [h line hl]
  rw [closesNext, hf]
  rfl

theorem finalLine_of_not_losesCommas {line : Text} {rest : List Text}
    (h : losesCommas line rest = false) : finalLine line rest = Line.rewritten line := by
  simp [finalLine, h]

theorem finalLine_append_commas (line : Text) (rest : List Text) :
    finalLine line rest ++ List.replicate (commasLost line rest) ',' = Line.rewritten line := by
  rw [finalLine, commasLost]
  split
  · exact Line.withoutTrailingCommas_append (Line.rewritten line)
  · exact List.append_nil _

/-- The output shows something exactly when a retained line is visible: commas are taken off a line
only when a visible line follows. -/
theorem finalLines_all_blank_iff (lines : List Text) :
    (∀ line ∈ finalLines lines, Text.isBlankText line = true) ↔
      ∀ line ∈ lines, Line.isVisible line = false := by
  induction lines with
  | nil => simp
  | cons line rest ih =>
    rw [finalLines_cons, List.forall_mem_cons, List.forall_mem_cons, ih]
    constructor
    · rintro ⟨hline, hrest⟩
      have hlose : losesCommas line rest = false := by
        rw [losesCommas, closesNext_of_invisible hrest, Bool.and_false]
      rw [finalLine_of_not_losesCommas hlose] at hline
      exact ⟨by simp [Line.isVisible, hline], hrest⟩
    · rintro ⟨hline, hrest⟩
      have hlose : losesCommas line rest = false := by rw [losesCommas, hline, Bool.false_and]
      rw [finalLine_of_not_losesCommas hlose]
      exact ⟨by simpa [Line.isVisible] using hline, hrest⟩

/-- Invisible lines have nothing to lose, whatever follows them. -/
theorem finalLines_append_of_invisible {lines : List Text} (rest : List Text)
    (h : ∀ line ∈ lines, Line.isVisible line = false) :
    finalLines (lines ++ rest) = finalLines lines ++ finalLines rest ∧
      totalCommasLost (lines ++ rest) = totalCommasLost rest := by
  induction lines with
  | nil => simp
  | cons line lines ih =>
    obtain ⟨hline, hlines⟩ := List.forall_mem_cons.mp h
    obtain ⟨ihl, iht⟩ := ih hlines
    have hlose : ∀ after : List Text, losesCommas line after = false := by
      intro after
      rw [losesCommas, hline, Bool.false_and]
    simp [finalLine, commasLost, hlose, ihl, iht]

/-! ## One more retained line -/

theorem closesNext_concat (rest : List Text) (line : Text) :
    closesNext (rest ++ [line]) =
      if rest.all (fun l => !Line.isVisible l) then Line.isVisible line && Line.closesTable line
      else closesNext rest := by
  unfold closesNext
  rw [List.find?_append]
  cases hf : rest.find? Line.isVisible with
  | some l =>
    have hall : rest.all (fun l => !Line.isVisible l) = false := by
      rw [List.all_eq_false]
      exact ⟨l, List.mem_of_find?_eq_some hf, by simp [List.find?_some hf]⟩
    simp [hall]
  | none =>
    have hall : rest.all (fun l => !Line.isVisible l) = true := by
      simpa [List.find?_eq_none] using hf
    cases hv : Line.isVisible line <;> simp [hall, hv]

theorem finalLines_concat_of_open (lines : List Text) {last : Text}
    (h : Line.closesTable last = false) :
    finalLines (lines ++ [last]) = finalLines lines ++ [Line.rewritten last] ∧
      totalCommasLost (lines ++ [last]) = totalCommasLost lines := by
  have hlast : losesCommas last [] = false := by simp [losesCommas, closesNext]
  have hnext : ∀ rest : List Text, closesNext (rest ++ [last]) = closesNext rest := by
    intro rest
    rw [closesNext_concat, h, Bool.and_false]
    split
    · next hall =>
      rw [closesNext_of_invisible (by simpa using hall)]
    · rfl
  induction lines with
  | nil => simp [finalLine, commasLost, hlast]
  | cons line rest ih =>
    have hlose : losesCommas line (rest ++ [last]) = losesCommas line rest := by
      rw [losesCommas, losesCommas, hnext]
    simp only [List.cons_append, finalLines_cons, totalCommasLost_cons, finalLine, commasLost, hlose,
      ih.1, ih.2]
    exact ⟨trivial, trivial⟩

theorem dropCommas_concat (newer : List Text) (oldest : Text) :
    Retained.dropCommas (newer ++ [oldest]) =
      match Retained.dropCommas newer with
      | some (kept, n) => some (kept ++ [oldest], n)
      | none =>
        if Text.isBlankText oldest then none
        else some (newer ++ [Retained.withoutTrailingCommas oldest],
          oldest.length - (Retained.withoutTrailingCommas oldest).length) := by
  induction newer with
  | nil => simp [Retained.dropCommas]
  | cons line newer ih =>
    by_cases hb : Text.isBlankText line = true
    · simp only [List.cons_append, Retained.dropCommas, hb, if_true, ih]
      cases Retained.dropCommas newer with
      | some p => rfl
      | none => by_cases ho : Text.isBlankText oldest = true <;> simp [ho]
    · simp [Retained.dropCommas, hb]

/-- What the comma repair makes of the buffer is what lookahead makes of the lines once the closing
line is known to follow; the repair fails exactly when no line is visible. -/
theorem dropCommas_finalLines (lines : List Text) {last : Text}
    (h : Line.closesTable last = true) :
    match Retained.dropCommas (finalLines lines).reverse with
    | some (kept, n) =>
      finalLines (lines ++ [last]) = kept.reverse ++ [Line.rewritten last] ∧
        totalCommasLost (lines ++ [last]) = totalCommasLost lines + n
    | none => ∀ line ∈ lines, Line.isVisible line = false := by
  have hlast : losesCommas last [] = false := by simp [losesCommas, closesNext]
  have hclose : (Line.isVisible last && Line.closesTable last) = true := by
    rw [Line.isVisible_of_closesTable h, h]
    rfl
  induction lines with
  | nil => simp [Retained.dropCommas]
  | cons line rest ih =>
    rw [finalLines_cons, List.reverse_cons, dropCommas_concat]
    cases hd : Retained.dropCommas (finalLines rest).reverse with
    | some p =>
      obtain ⟨kept, n⟩ := p
      rw [hd] at ih
      obtain ⟨hlines, hcommas⟩ := ih
      have hsome : rest.all (fun l => !Line.isVisible l) = false := by
        rw [Bool.eq_false_iff]
        intro hall
        have hblank := (finalLines_all_blank_iff rest).mpr (by simpa using hall)
        have hnone : Retained.dropCommas (finalLines rest).reverse = none :=
          Retained.dropCommas_eq_none_iff.mpr (by simpa using hblank)
        rw [hnone] at hd
        cases hd
      have hlose : losesCommas line (rest ++ [last]) = losesCommas line rest := by
        rw [losesCommas, losesCommas, closesNext_concat, hsome]
        rfl
      simp only [List.cons_append, finalLines_cons, totalCommasLost_cons, finalLine, commasLost,
        hlose, hlines, hcommas, List.reverse_append, List.reverse_cons, List.reverse_nil,
        List.nil_append]
      exact ⟨trivial, by omega⟩
    | none =>
      rw [hd] at ih
      have hall : rest.all (fun l => !Line.isVisible l) = true := by simpa using ih
      have hlose : losesCommas line rest = false := by
        rw [losesCommas, closesNext_of_invisible ih, Bool.and_false]
      have hlose' : losesCommas line (rest ++ [last]) = Line.isVisible line := by
        rw [losesCommas, closesNext_concat, hall, if_pos rfl, hclose, Bool.and_true]
      obtain ⟨hlines, hcommas⟩ := finalLines_append_of_invisible [last] ih
      have hlost : totalCommasLost rest = 0 := by
        simpa using (finalLines_append_of_invisible [] ih).2
      rw [finalLine_of_not_losesCommas hlose]
      cases hv : Line.isVisible line with
      | false =>
        have hblank : Text.isBlankText (Line.rewritten line) = true := by
          simpa [Line.isVisible] using hv
        simpa [hblank, hv] using ih
      | true =>
        have hblank : Text.isBlankText (Line.rewritten line) = false := by
          simpa [Line.isVisible] using hv
        have hlen := Line.length_withoutTrailingCommas (Line.rewritten line)
        simp only [hblank, Bool.false_eq_true, if_false, List.cons_append, finalLines_cons,
          totalCommasLost_cons, finalLine, commasLost, hlose, hlose', hv, if_true, hlines, hcommas,
          hlost, List.reverse_append, List.reverse_reverse, finalLines_nil, totalCommasLost_nil,
          hlast, List.reverse_cons, List.reverse_nil, List.nil_append]
        exact ⟨trivial, by omega⟩

end Dump

/-! ## The scan in closed form -/

/-- The counts of the lines taken together. -/
def Dump.total (count : Text → Nat) : List Text → Nat
  | [] => 0
  | line :: rest => count line + total count rest

@[simp] theorem Dump.total_concat (count : Text → Nat) (lines : List Text) (line : Text) :
    total count (lines ++ [line]) = total count lines + count line := by
  induction lines with
  | nil => simp [total]
  | cons first rest ih => rw [List.cons_append, total, total, ih, Nat.add_assoc]

namespace ScanState

/-- What the scan holds after the given lines, in closed form. -/
def after (raws : List Text) : ScanState :=
  let lines := Dump.retained raws
  ⟨⟨(Dump.finalLines lines).reverse⟩,
    { read := raws.length
      written := 0
      keyLines := raws.countP fun raw => Line.declaresKey (Text.trim raw)
      trailingCommas := Dump.totalCommasLost lines
      collations := Dump.total (fun line => (Line.adapt line).collations) lines
      characterSets := Dump.total (fun line => (Line.adapt line).characterSets) lines
      unsigned := Dump.total (fun line => (Line.adapt line).unsigned) lines
      quotes := Dump.total (fun line => (Line.adapt line).quotes) lines }⟩

theorem after_nil : after [] = initial := rfl

/-- One line takes the closed form to the closed form. A line is refused when it closes a table
although nothing visible was retained before it. -/
theorem scanLine_after (raws : List Text) (raw : Text) (number : Nat) :
    (after raws).scanLine number raw =
      if !Line.declaresKey (Text.trim raw) && Line.closesTable (Text.trim raw) &&
          (Dump.retained raws).all (fun line => !Line.isVisible line) then
        .error (.nothingToClose number)
      else .ok (after (raws ++ [raw])) := by
  unfold scanLine
  cases hkey : Line.declaresKey (Text.trim raw) with
  | true =>
    simp [after, dropKeyLine, Dump.retained_concat_of_key raws hkey, hkey]
  | false =>
    have hret := Dump.retained_concat_of_no_key raws hkey
    cases hclose : Line.closesTable (Text.trim raw) with
    | false =>
      obtain ⟨hlines, hcommas⟩ := Dump.finalLines_concat_of_open (Dump.retained raws) hclose
      simp [after, retain, Retained.add, hret, hlines, hcommas, hkey, hclose, Line.adapt_line]
    | true =>
      have hd := Dump.dropCommas_finalLines (Dump.retained raws) hclose
      cases hdrop : Retained.dropCommas (Dump.finalLines (Dump.retained raws)).reverse with
      | none =>
        rw [hdrop] at hd
        have hall : (Dump.retained raws).all (fun line => !Line.isVisible line) = true := by
          simpa using hd
        simp [after, repairCommas, Retained.dropTrailingCommas, hdrop, hall, hkey, hclose, Except.map]
      | some p =>
        obtain ⟨kept, n⟩ := p
        rw [hdrop] at hd
        obtain ⟨hlines, hcommas⟩ := hd
        have hall : (Dump.retained raws).all (fun line => !Line.isVisible line) = false := by
          rw [Bool.eq_false_iff]
          intro hall
          have hblank := (Dump.finalLines_all_blank_iff _).mpr (by simpa using hall)
          rw [Retained.dropCommas_eq_none_iff.mpr (by simpa using hblank)] at hdrop
          cases hdrop
        simp [after, repairCommas, retain, Retained.dropTrailingCommas, Retained.add, hdrop, hall,
          hret, hlines, hcommas, hkey, hclose, Line.adapt_line, Except.map]

theorem scanLines_after {rest : List Text} {raws : List Text} {number : Nat} {st : ScanState}
    (h : (after raws).scanLines number rest = .ok st) : st = after (raws ++ rest) := by
  induction rest generalizing raws number with
  | nil =>
    rw [scanLines] at h
    cases h
    rw [List.append_nil]
  | cons raw rest ih =>
    rw [scanLines, scanLine_after] at h
    split at h
    · next st' hst =>
      split at hst
      · cases hst
      · cases hst
        rw [ih h, List.append_assoc, List.singleton_append]
    · cases h

end ScanState

theorem sanitizeText_eq_after {s : Text} {out : SanitizedDump} (h : sanitizeText s = .ok out) :
    out = ⟨(ScanState.after (Text.lines s)).retained.joinedBy (LineEnding.ofText s).separator,
      LineEnding.ofText s, (ScanState.after (Text.lines s)).statistics.finish⟩ := by
  unfold sanitizeText at h
  rw [← ScanState.after_nil] at h
  cases hscan : (ScanState.after []).scanLines 1 (Text.lines s) with
  | error e =>
    rw [hscan] at h
    cases h
  | ok st =>
    rw [hscan] at h
    have hst := ScanState.scanLines_after hscan
    rw [List.nil_append] at hst
    subst hst
    cases h
    rfl

theorem text_eq_joinWith {s : Text} {out : SanitizedDump} (h : sanitizeText s = .ok out) :
    out.text = Text.joinWith (LineEnding.ofText s).separator
      (Dump.finalLines (Dump.retained (Text.lines s))) := by
  rw [sanitizeText_eq_after h]
  simp only [Retained.joinedBy, Retained.lines, ScanState.after, List.reverse_reverse]

/-- An accepted dump is written without a buffer: every retained line is changed by the four rules,
loses its trailing commas exactly when it is visible and the first visible line after it closes a
table, and is joined to its neighbours by the line ending of the dump. The scan counts these commas
and no others. -/
theorem sanitizeText_is_lookahead {s : Text} {out : SanitizedDump} (h : sanitizeText s = .ok out) :
    out.text =
        Text.joinWith (if ['\r', '\n'] <:+: s then ['\r', '\n'] else ['\n'])
          (Dump.finalLines (Dump.retained (Text.lines s))) ∧
      out.statistics.trailingCommas = Dump.totalCommasLost (Dump.retained (Text.lines s)) := by
  have hsep : (LineEnding.ofText s).separator =
      if ['\r', '\n'] <:+: s then ['\r', '\n'] else ['\n'] := by
    split
    · next hc => rw [LineEnding.ofText_eq_crlf_iff.mpr hc]; rfl
    · next hc =>
      cases he : LineEnding.ofText s with
      | lf => rfl
      | crlf => exact absurd (LineEnding.ofText_eq_crlf_iff.mp he) hc
  refine ⟨?_, ?_⟩
  · rw [← hsep]
    exact text_eq_joinWith h
  · rw [sanitizeText_eq_after h]
    rfl

/-- A line of commas takes the repair in place of the line before it, and neither the dropped line
that begins with a parenthesis nor the emptied line comes between it and the closing line. -/
theorem sanitizeText_is_lookahead_of_comma_line :
    let s := "a,,\r\n,\r\n) KEY\r\n COLLATE x\r\n);".toList
    let out : SanitizedDump := ⟨"a,,\r\n\r\n\r\n);".toList, .crlf, ⟨5, 4, 1, 1, 1, 0, 0, 0⟩⟩
    sanitizeText s = .ok out ∧
      out.text =
        Text.joinWith (if ['\r', '\n'] <:+: s then ['\r', '\n'] else ['\n'])
          (Dump.finalLines (Dump.retained (Text.lines s))) ∧
      out.statistics.trailingCommas = Dump.totalCommasLost (Dump.retained (Text.lines s)) :=
  ⟨rfl, sanitizeText_is_lookahead rfl⟩

end DumpConversion
