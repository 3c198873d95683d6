import DumpConversion.Proofs.Dump.Accounting
import DumpConversion.Proofs.Dump.RetainedHistory

/-! # Punctuation

Commas, semicolons and parentheses hold a statement together. The rules look for blanks, words and
quotes, so none of them takes punctuation off a line or puts any on it. Only the repair before a
closing line does: it takes commas, and these from the end of a line.

* `Text.punctuation`, `Text.brackets`: the punctuation of a text in order, with and without commas.
* `Line.punctuation_rewritten`: all four rules keep the punctuation of a line.
* `Dump.Written`, `Dump.TakesCommas`: what becomes of a line, and where it loses its commas.
* `sanitizeText_keeps_punctuation`: the punctuation of an accepted dump along its output.
-/

namespace DumpConversion

set_option autoImplicit false

/-! ## The punctuation of a text -/

namespace Text

/-- The commas, semicolons and parentheses of a text, in order. -/
def punctuation (s : Text) : Text := s.filter Clause.isDelimiter

/-- The semicolons and parentheses of a text, in order. -/
def brackets (s : Text) : Text := (punctuation s).filter (· != ',')

@[simp] theorem punctuation_nil : punctuation [] = [] := rfl

@[simp] theorem punctuation_append (s t : Text) :
    punctuation (s ++ t) = punctuation s ++ punctuation t := List.filter_append s t

theorem punctuation_eq_nil_iff {s : Text} :
    punctuation s = [] ↔ ∀ c ∈ s, Clause.isDelimiter c = false := by
  simp [punctuation, List.filter_eq_nil_iff]

theorem punctuation_commas (n : Nat) :
    punctuation (List.replicate n ',') = List.replicate n ',' :=
  List.filter_replicate_of_pos rfl

end Text

theorem Clause.isDelimiter_of_isBlank {c : Char} (h : Text.isBlank c = true) :
    isDelimiter c = false := by
  rw [Bool.eq_false_iff]
  intro hc
  simp only [isDelimiter, Bool.or_eq_true, beq_iff_eq] at hc
  rcases hc with ((rfl | rfl) | rfl) | rfl <;> exact absurd h (by decide)

theorem Clause.isDelimiter_of_isNameChar {c : Char} (h : isNameChar c = true) :
    isDelimiter c = false := by
  simp only [isNameChar, Bool.and_eq_true, Bool.not_eq_true'] at h
  exact h.2

theorem Text.punctuation_of_isBlankText {b : Text} (h : isBlankText b = true) :
    punctuation b = [] :=
  punctuation_eq_nil_iff.mpr fun c hc => Clause.isDelimiter_of_isBlank (isBlankText_iff.mp h c hc)

theorem Text.punctuation_trim (s : Text) : punctuation (trim s) = punctuation s := by
  obtain ⟨a, b, ha, hb, hs, -⟩ := exists_trim s
  conv_rhs => rw [hs, punctuation_append, punctuation_append, punctuation_of_isBlankText ha,
    punctuation_of_isBlankText hb, List.append_nil, List.nil_append]

theorem Text.punctuation_joinWith {sep : Text} (hsep : punctuation sep = []) (lines : List Text) :
    punctuation (joinWith sep lines) = lines.flatMap punctuation := by
  induction lines with
  | nil => rfl
  | cons line rest ih =>
    by_cases hrest : rest = []
    · subst hrest
      rw [List.flatMap_cons, List.flatMap_nil, List.append_nil]
      rfl
    · rw [joinWith_cons hrest, punctuation_append, punctuation_append, hsep, List.append_nil, ih,
        List.flatMap_cons]

theorem LineEnding.punctuation_separator (e : LineEnding) : Text.punctuation e.separator = [] := by
  cases e <;> rfl

/-! ## The rules -/

namespace Clause

theorem SpacedWords.punctuation {ws : List Text} {m : Text} (h : SpacedWords ws m)
    (hname : ∀ w ∈ ws, ∀ c ∈ w, isNameChar c = true) : Text.punctuation m = [] := by
  induction ws generalizing m with
  | nil =>
    cases h
    rfl
  | cons w ws ih =>
    obtain ⟨b, rest, rfl, -, hb, hrest⟩ := h
    obtain ⟨hw, hws⟩ := List.forall_mem_cons.mp hname
    have hword : Text.punctuation w = [] :=
      Text.punctuation_eq_nil_iff.mpr fun c hc => isDelimiter_of_isNameChar (hw c hc)
    rw [Text.punctuation_append, Text.punctuation_append, hword, Text.punctuation_of_isBlankText hb,
      ih hrest hws]
    rfl

theorem IsClause.punctuation {k : Clause} (hk : k.IsKeyword) {m : Text} (h : k.IsClause m) :
    Text.punctuation m = [] := by
  obtain ⟨b, words, name, rfl, hb, hwords, -, hname⟩ := h
  have hlast : Text.punctuation name = [] :=
    Text.punctuation_eq_nil_iff.mpr fun c hc => isDelimiter_of_isNameChar (hname c hc)
  rw [Text.punctuation_append, Text.punctuation_append, Text.punctuation_of_isBlankText hb,
    hwords.punctuation hk.isNameChar, hlast]
  rfl

theorem punctuation_strip {k : Clause} (hk : k.IsKeyword) (line : Text) :
    Text.punctuation (k.strip line).1 = Text.punctuation line := by
  have hfrom : ∀ p s, Text.punctuation (k.stripFrom 0 p s).1 = Text.punctuation s := by
    intro p s
    induction p, s using stripFrom_induction hk with
    | none p s hno => rw [stripFrom_eq_self hno]
    | cut p a m r hcut ih =>
      rw [hcut.stripFrom hk, Text.punctuation_append, Text.punctuation_append,
        Text.punctuation_append, hcut.isClause.punctuation hk, ih, List.nil_append]
  exact hfrom none line

end Clause

theorem Text.punctuation_replaceAll {w q : Text} (hne : w ≠ [])
    (hsame : punctuation q = punctuation w) (s : Text) :
    punctuation (replaceAll w q s).1 = punctuation s := by
  induction s using replaceAll_induction hne with
  | nil => rfl
  | found s ih =>
    rw [Text.replaceAll_prefix hne, punctuation_append, punctuation_append, hsame, ih]
  | passed c s hmatch ih =>
    rw [replaceAll_cons_of_no_match hmatch, punctuation, punctuation, List.filter_cons,
      List.filter_cons, ← punctuation, ← punctuation, ih]

namespace Line

/-- The changes of a line in their order. -/
def rules : List (Text → Text × Nat) :=
  [dropCollations, dropCharacterSets, dropUnsigned, doubleQuotes]

theorem punctuation_rule {rule : Text → Text × Nat} (h : rule ∈ rules) (line : Text) :
    Text.punctuation (rule line).1 = Text.punctuation line := by
  simp only [rules, List.mem_cons, List.not_mem_nil, or_false] at h
  rcases h with rfl | rfl | rfl | rfl
  · exact Clause.punctuation_strip Clause.collate_isKeyword line
  · exact Clause.punctuation_strip Clause.characterSet_isKeyword line
  · exact Text.punctuation_replaceAll (w := unsignedQualifier) (q := []) (by decide) rfl line
  · exact Text.punctuation_replaceAll (w := backslashQuote) (q := quotePair) (by decide) rfl line

theorem punctuation_rewritten (line : Text) :
    Text.punctuation (rewritten line) = Text.punctuation line := by
  rw [rewritten, punctuation_rule (by simp [rules]), punctuation_rule (by simp [rules]),
    punctuation_rule (by simp [rules]), punctuation_rule (by simp [rules])]

end Line

/-! ## Lines and what becomes of them -/

/-- The lines on which no key word stands. -/
def Dump.keyless (raws : List Text) : List Text := raws.filter fun raw => !Line.declaresKey raw

theorem Dump.map_trim_keyless (raws : List Text) :
    (keyless raws).map Text.trim = retained raws := by
  rw [retained, List.filter_map]
  refine congrArg (List.map Text.trim) (List.filter_congr fun raw _ => ?_)
  rw [Function.comp_apply, Line.declaresKey_trim]

/-- A line that is not dropped: as it was read, as it is written, and how many commas it lost at its
end. -/
structure Dump.Written where
  raw : Text
  line : Text
  commas : Nat

namespace Dump

/-- What becomes of the given lines, none of which is dropped. -/
def written : List Text → List Written
  | [] => []
  | raw :: rest =>
    ⟨raw, finalLine (Text.trim raw) (rest.map Text.trim),
      commasLost (Text.trim raw) (rest.map Text.trim)⟩ :: written rest

theorem map_raw_written (raws : List Text) : (written raws).map Written.raw = raws := by
  induction raws with
  | nil => rfl
  | cons raw rest ih => rw [written, List.map_cons, ih]

theorem map_line_written (raws : List Text) :
    (written raws).map Written.line = finalLines (raws.map Text.trim) := by
  induction raws with
  | nil => rfl
  | cons raw rest ih => rw [written, List.map_cons, ih, List.map_cons, finalLines_cons]

/-- The number of commas that the lines lost. -/
def lostCommas : List Written → Nat
  | [] => 0
  | w :: ws => w.commas + lostCommas ws

theorem lostCommas_written (raws : List Text) :
    lostCommas (written raws) = totalCommasLost (raws.map Text.trim) := by
  induction raws with
  | nil => rfl
  | cons raw rest ih => rw [written, lostCommas, ih, List.map_cons, totalCommasLost_cons]

theorem exists_of_written_eq {raws : List Text} {before after : List Written} {w : Written}
    (h : written raws = before ++ w :: after) :
    ∃ front rest, raws = front ++ w.raw :: rest ∧ front.length = before.length ∧
      w.line = finalLine (Text.trim w.raw) (rest.map Text.trim) ∧
      w.commas = commasLost (Text.trim w.raw) (rest.map Text.trim) := by
  induction raws generalizing before with
  | nil => cases before <;> cases h
  | cons raw rest ih =>
    cases before with
    | nil =>
      rw [written, List.nil_append, List.cons.injEq] at h
      obtain ⟨rfl, -⟩ := h
      exact ⟨[], rest, rfl, rfl, rfl, rfl⟩
    | cons x before =>
      rw [written, List.cons_append, List.cons.injEq] at h
      obtain ⟨front, behind, rfl, hlength, hw⟩ := ih h.2
      exact ⟨raw :: front, behind, rfl, congrArg Nat.succ hlength, hw⟩

theorem line_append_commas {raws : List Text} {w : Written} (hw : w ∈ written raws) :
    w.line ++ List.replicate w.commas ',' = Line.rewritten (Text.trim w.raw) := by
  obtain ⟨before, after, hsplit⟩ := List.append_of_mem hw
  obtain ⟨-, rest, -, -, hline, hcommas⟩ := exists_of_written_eq hsplit
  rw [hline, hcommas, finalLine_append_commas]

theorem punctuation_raw {raws : List Text} {w : Written} (hw : w ∈ written raws) :
    Text.punctuation w.raw = Text.punctuation w.line ++ List.replicate w.commas ',' := by
  rw [← Text.punctuation_trim, ← Line.punctuation_rewritten, ← line_append_commas hw,
    Text.punctuation_append, Text.punctuation_commas]

theorem brackets_raw {raws : List Text} {w : Written} (hw : w ∈ written raws) :
    Text.brackets w.raw = Text.brackets w.line := by
  rw [Text.brackets, punctuation_raw hw, List.filter_append,
    List.filter_replicate_of_neg (by decide), List.append_nil, Text.brackets]

/-- The scan of the text takes the commas off the line with the given index among the retained ones:
a line that closes a table is reached while the scan holds this line as the last one that is not
blank. -/
structure TakesCommas (s : Text) (index : Nat) (w : Written) (st : ScanState) : Prop where
  /-- The scan has come to a line that closes a table. -/
  reached : ∃ front closing later, Text.lines s = front ++ closing :: later ∧ Closes closing ∧
    ScanState.initial.scanLines 1 front = .ok st
  /-- The line still has its commas then, with only blank lines behind it, and the repair takes just
  these commas. -/
  taken : ∃ older blanks, older.length = index ∧
    st.retained.lines = older ++ (w.line ++ List.replicate w.commas ',') :: blanks ∧
    Text.isBlankText (w.line ++ List.replicate w.commas ',') = false ∧
    (∀ b ∈ blanks, Text.isBlankText b = true) ∧
    ∃ repaired, st.retained.dropTrailingCommas = some (repaired, w.commas) ∧
      repaired.lines = older ++ w.line :: blanks

/-- What becomes of the punctuation of a text. -/
structure KeepsPunctuation (s : Text) (out : SanitizedDump) (ws : List Written) : Prop where
  /-- Every line without a key word is written, and no other line. -/
  read : ws.map Written.raw = keyless (Text.lines s)
  text : out.text = Text.joinWith (LineEnding.ofText s).separator (ws.map Written.line)
  /-- The commas are missing at the end of what the rules made of the line. -/
  line : ∀ w ∈ ws, w.line ++ List.replicate w.commas ',' = Line.rewritten (Text.trim w.raw)
  kept : ∀ w ∈ ws, Text.punctuation w.raw =
    Text.punctuation w.line ++ List.replicate w.commas ','
  lineBrackets : ∀ w ∈ ws, Text.brackets w.raw = Text.brackets w.line
  commas : lostCommas ws = out.statistics.trailingCommas
  input : (keyless (Text.lines s)).flatMap Text.punctuation =
    ws.flatMap fun w => Text.punctuation w.line ++ List.replicate w.commas ','
  output : Text.punctuation out.text = ws.flatMap fun w => Text.punctuation w.line
  brackets : Text.brackets out.text = (keyless (Text.lines s)).flatMap Text.brackets
  taken : ∀ before w after, ws = before ++ w :: after → 0 < w.commas →
    ∃ st, TakesCommas s before.length w st

end Dump

/-! ## Where the commas go -/

/-- What stands behind a line decides how it is written; what stands before it does not. -/
theorem Dump.finalLines_append_right (a b : List Text) :
    ∃ older, finalLines (a ++ b) = older ++ finalLines b ∧ older.length = a.length := by
  induction a with
  | nil => exact ⟨[], rfl, rfl⟩
  | cons line a ih =>
    obtain ⟨older, holder, hlength⟩ := ih
    refine ⟨finalLine line (a ++ b) :: older, ?_, congrArg Nat.succ hlength⟩
    rw [List.cons_append, finalLines_cons, holder, List.cons_append]

/-- A retained line after which nothing can be seen is held as the rules left it, with blank lines
behind it. -/
theorem ScanState.exists_lines_after {raws front between : List Text} {line : Text}
    (hretained : Dump.retained raws = front ++ line :: between)
    (hbetween : ∀ l ∈ between, Line.isVisible l = false) :
    ∃ older blanks, (after raws).retained.lines = older ++ Line.rewritten line :: blanks ∧
      older.length = front.length ∧ ∀ b ∈ blanks, Text.isBlankText b = true := by
  obtain ⟨older, holder, hlength⟩ := Dump.finalLines_append_right front (line :: between)
  have hopen : Dump.losesCommas line between = false := by
    rw [Dump.losesCommas, Dump.closesNext_of_invisible hbetween, Bool.and_false]
  have hblanks := (Dump.finalLines_all_blank_iff between).mpr hbetween
  refine ⟨older, Dump.finalLines between, ?_, hlength, hblanks⟩
  rw [after, Retained.lines, List.reverse_reverse, hretained, holder, Dump.finalLines_cons,
    Dump.finalLine_of_not_losesCommas hopen]

/-- A scan that goes through has gone through the lines at the front. -/
theorem ScanState.scanLines_of_append {front rest : List Text} {number : Nat}
    (h : ∃ st, (after []).scanLines number (front ++ rest) = .ok st) :
    (after []).scanLines number front = .ok (after front) := by
  have hfront := @scanLines_after_isOk_iff front [] number
  obtain ⟨st, hst⟩ := hfront.mpr fun before raw later hsplit =>
    scanLines_after_isOk_iff.mp h before raw (later ++ rest) <| by
      rw [hsplit, List.append_assoc, List.cons_append]
  rw [hst, scanLines_after hst, List.nil_append]

namespace Dump

/-- Where a line loses commas, the scan has come to a line that closes a table. -/
theorem takesCommas_of_pos {s : Text} {out : SanitizedDump} (h : sanitizeText s = .ok out)
    {before after : List Written} {w : Written}
    (hsplit : written (keyless (Text.lines s)) = before ++ w :: after) (hpos : 0 < w.commas) :
    ∃ st, TakesCommas s before.length w st := by
  obtain ⟨front, rest, hraws, hlength, hline, hcommas⟩ := exists_of_written_eq hsplit
  have hloses : losesCommas (Text.trim w.raw) (rest.map Text.trim) = true := by
    by_contra hkeeps
    rw [hcommas, commasLost, if_neg hkeeps] at hpos
    exact Nat.lt_irrefl 0 hpos
  have hheld := line_append_commas (hsplit ▸ List.mem_append_right before List.mem_cons_self)
  rw [finalLine, if_pos hloses] at hline
  rw [commasLost, if_pos hloses] at hcommas
  rw [losesCommas, Bool.and_eq_true, closesNext_iff] at hloses
  obtain ⟨hvisible, between, closing, later, hrest, hbetween, hcloses⟩ := hloses
  -- the lines of the text up to the closing line
  have hretained : retained (Text.lines s) =
      (front.map Text.trim ++ Text.trim w.raw :: between) ++ closing :: later := by
    rw [← map_trim_keyless, hraws, List.map_append, List.map_cons, hrest,
      List.append_assoc, List.cons_append]
  obtain ⟨reached, raw, behind, hlines, hreached, rfl, hkey⟩ := exists_of_retained_eq hretained
  have hscan : (ScanState.after []).scanLines 1 reached = .ok (ScanState.after reached) :=
    ScanState.scanLines_of_append ⟨_, hlines ▸ scanLines_of_accepted h⟩
  obtain ⟨older, blanks, hstate, hcount, hblanks⟩ :=
    ScanState.exists_lines_after hreached hbetween
  have hshown : Text.isBlankText (Line.rewritten (Text.trim w.raw)) = false := by
    simpa [Line.isVisible] using hvisible
  obtain ⟨repaired, hrepair, hrepaired⟩ :=
    Retained.exists_dropTrailingCommas hstate hshown hblanks
  refine ⟨ScanState.after reached, ⟨reached, raw, behind, hlines, ⟨hkey, hcloses⟩, hscan⟩,
    older, blanks, ?_, ?_, ?_, hblanks, repaired, ?_, ?_⟩
  · rw [hcount, List.length_map, hlength]
  · rw [hheld, hstate]
  · rw [hheld, hshown]
  · rw [hrepair, hcommas]
  · rw [hrepaired, hline]

end Dump

/-! ## Accepted dumps -/

/-- The punctuation of an accepted dump is that of the lines without a key word, in order, except for
the commas that the scan counts. Each of these was at the end of a line, the last one that was not
blank when a line that closes a table was reached. Parentheses and semicolons stay, and no rule takes
any punctuation off a line. -/
theorem sanitizeText_keeps_punctuation {s : Text} {out : SanitizedDump}
    (h : sanitizeText s = .ok out) :
    (∃ ws, Dump.KeepsPunctuation s out ws) ∧
      ∀ rule ∈ Line.rules, ∀ line, Text.punctuation (rule line).1 = Text.punctuation line := by
  have hretained := Dump.map_trim_keyless (Text.lines s)
  have hread := Dump.map_raw_written (Dump.keyless (Text.lines s))
  have htext : out.text = Text.joinWith (LineEnding.ofText s).separator
      ((Dump.written (Dump.keyless (Text.lines s))).map Dump.Written.line) := by
    rw [text_eq_joinWith h, Dump.map_line_written, hretained]
  have houtput : Text.punctuation out.text =
      (Dump.written (Dump.keyless (Text.lines s))).flatMap fun w => Text.punctuation w.line := by
    rw [htext, Text.punctuation_joinWith (LineEnding.punctuation_separator _), List.flatMap_map]
  refine ⟨⟨Dump.written (Dump.keyless (Text.lines s)), ?_⟩, fun _ => Line.punctuation_rule⟩
  exact {
    read := hread
    text := htext
    line := fun w => Dump.line_append_commas
    kept := fun w => Dump.punctuation_raw
    lineBrackets := fun w => Dump.brackets_raw
    commas := by
      rw [Dump.lostCommas_written, hretained, sanitizeText_eq_after h]
      rfl
    input := by
      conv_lhs => rw [← hread]
      rw [List.flatMap_map]
      exact List.flatMap_congr fun w => Dump.punctuation_raw
    output := houtput
    brackets := by
      conv_rhs => rw [← hread]
      rw [Text.brackets, houtput, List.filter_flatMap, List.flatMap_map]
      exact List.flatMap_congr fun w hw => (Dump.brackets_raw hw).symm
    taken := fun before w after => Dump.takesCommas_of_pos h }

/-- Clauses end at a parenthesis, at a comma and at the end of a line. The two commas go when the
closing line comes, past a line that is dropped and a line of which nothing is left. -/
theorem sanitizeText_keeps_punctuation_of_table :
    let s := "a (int COLLATE x),,\r\nb KEY (a),\r\n CHARACTER SET y\r\n);".toList
    let out : SanitizedDump := ⟨"a (int)\r\n\r\n);".toList, .crlf, ⟨4, 3, 1, 2, 1, 1, 0, 0⟩⟩
    sanitizeText s = .ok out ∧ (∃ ws, Dump.KeepsPunctuation s out ws) ∧
      ∀ rule ∈ Line.rules, ∀ line, Text.punctuation (rule line).1 = Text.punctuation line :=
  ⟨rfl, sanitizeText_keeps_punctuation rfl⟩

end DumpConversion
