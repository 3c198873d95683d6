import DumpConversion.Proofs.Dump.Concatenation
import DumpConversion.Proofs.Text.Literals

/-! # The books of a scan

Every line that a scan reads is either dropped as a key line or written, and what a written line
loses after the clause rules is counted: nine characters for each qualifier, one for each comma, none
for a quote.

* `Text.length_removeAll`: what the removal of a literal takes off a text.
* `Dump.total_length_finalLines`: the characters of the output lines, by those of the retained lines.
* `LineEnding.carriage_before_newline`: in joined lines only separators hold line feeds.
* `sanitizeText_accounts`: the counts of an accepted dump, by its text and the text of the result.
-/

namespace DumpConversion

set_option autoImplicit false

/-! ## Characters -/

theorem Text.length_removeAll {w : Text} (hw : w ≠ []) (s : Text) :
    (replaceAll w [] s).1.length + w.length * (replaceAll w [] s).2 = s.length := by
  induction s using replaceAll_induction hw with
  | nil => rfl
  | found s ih =>
    rw [Text.replaceAll_prefix hw, List.nil_append, Nat.mul_succ, List.length_append]
    dsimp only
    omega
  | passed c s hmatch ih =>
    rw [replaceAll_cons_of_no_match hmatch, List.length_cons, List.length_cons]
    dsimp only
    omega

theorem Line.length_clauseFree (line : Text) :
    (clauseFree line).length = (rewritten line).length + 9 * (adapt line).unsigned := by
  have hunsigned := Text.length_removeAll (w := unsignedQualifier) (by decide) (clauseFree line)
  rw [rewritten_eq_quoted, length_quoted]
  exact hunsigned.symm

/-- A key word stands on a line exactly when it stands on the trimmed line. -/
theorem Line.declaresKey_trim (raw : Text) : declaresKey (Text.trim raw) = declaresKey raw := by
  have hblank : ∀ c ∈ keyWord, (!Text.isBlank c) = true := List.all_eq_true.mp (by decide)
  rw [Bool.eq_iff_iff, declaresKey_iff, declaresKey_iff]
  exact Text.infix_trim_iff (by decide) (fun c hc => by simpa using hblank c hc) raw

namespace Dump

theorem total_length_finalLines (lines : List Text) :
    total (fun line => (Line.clauseFree line).length) lines =
      total List.length (finalLines lines) + 9 * total (fun line => (Line.adapt line).unsigned) lines +
        totalCommasLost lines := by
  induction lines with
  | nil => rfl
  | cons line rest ih =>
    have hline := Line.length_clauseFree line
    have hfinal := length_finalLine line rest
    rw [finalLines_cons, totalCommasLost_cons]
    simp only [total] at ih ⊢
    omega

end Dump

/-! ## Line feeds -/

theorem LineEnding.count_newline_joinWith (e : LineEnding) {lines : List Text} (hne : lines ≠ [])
    (h : ∀ line ∈ lines, '\n' ∉ line) :
    (Text.joinWith e.separator lines).count '\n' + 1 = lines.length := by
  have hlines := congrArg List.length (Text.map_trim_lines_joinWith (e := e) hne h)
  rwa [List.length_map, List.length_map, Text.length_lines] at hlines

theorem LineEnding.carriage_before_newline {lines : List Text} (h : ∀ line ∈ lines, '\n' ∉ line)
    {a b : Text} (hsplit : Text.joinWith crlf.separator lines = a ++ '\n' :: b) :
    a.getLast? = some '\r' := by
  induction lines generalizing a with
  | nil => simp [Text.joinWith] at hsplit
  | cons line rest ih =>
    obtain ⟨hline, hrest⟩ := List.forall_mem_cons.mp h
    by_cases hlast : rest = []
    · subst hlast
      rw [Text.joinWith] at hsplit
      exact absurd (by rw [hsplit]; simp) hline
    · have hfront : '\n' ∉ line ++ ['\r'] := by simp [hline]
      rw [Text.joinWith_cons hlast, separator, List.append_cons line, List.append_assoc,
        List.singleton_append] at hsplit
      -- the line feed is that of the first separator, or it stands behind it
      rcases List.append_eq_append_iff.mp hsplit with ⟨z, rfl, hz⟩ | ⟨z, hz, hb⟩
      · cases z with
        | nil => simp
        | cons c z =>
          rw [List.cons_append, List.cons.injEq] at hz
          have hbehind := ih hrest hz.2
          rw [List.getLast?_append, List.getLast?_cons, hbehind]
          rfl
      · cases z with
        | nil =>
          rw [List.append_nil] at hz
          rw [← hz]
          simp
        | cons c z =>
          rw [List.cons_append, List.cons.injEq] at hb
          exact absurd (by rw [hz, ← hb.1]; simp) hfront

/-! ## The counts -/

/-- What the counts of a scan say of the text that was read and of the text that came out. -/
structure SanitizedDump.Accounts (out : SanitizedDump) (s : Text) : Prop where
  read : out.statistics.read = s.count '\n' + 1
  keyLines : out.statistics.keyLines = (Text.lines s).countP Line.declaresKey
  /-- Every line is written or dropped; so the difference of the two counts is no cut-off one. -/
  written : out.statistics.written + out.statistics.keyLines = out.statistics.read
  nothing : out.statistics.written = 0 → out.text = []
  lineFeeds : 0 < out.statistics.written → out.text.count '\n' + 1 = out.statistics.written
  carriages : ['\r', '\n'] <:+: s → ∀ a b, out.text = a ++ '\n' :: b → a.getLast? = some '\r'
  /-- The lines of the output, without the separators between them, hold what the clause rules left
  of the retained lines, except the counted qualifiers and commas. -/
  characters : ∃ lines, out.text = Text.joinWith (LineEnding.ofText s).separator lines ∧
    lines.length = out.statistics.written ∧ (∀ line ∈ lines, '\n' ∉ line) ∧
    Dump.total (fun line => (Line.clauseFree line).length) (Dump.retained (Text.lines s)) =
      Dump.total List.length lines + 9 * out.statistics.unsigned + out.statistics.trailingCommas

/-- The counts of an accepted dump account for every line and for every character that the clause
rules leave. -/
theorem sanitizeText_accounts {s : Text} {out : SanitizedDump} (h : sanitizeText s = .ok out) :
    out.Accounts s := by
  have htext := text_eq_joinWith h
  have hunbroken := Dump.newline_not_mem_finalLines s
  have hbalance := Dump.length_retained (Text.lines s)
  have hwritten : (Dump.finalLines (Dump.retained (Text.lines s))).length =
      out.statistics.written := by
    rw [sanitizeText_eq_after h, Dump.length_finalLines]
    exact (Nat.sub_eq_of_eq_add hbalance.symm).symm
  refine ⟨?_, ?_, ?_, fun hnone => ?_, fun hsome => ?_, fun hcrlf a b hsplit => ?_,
    _, htext, hwritten, hunbroken, ?_⟩
  · rw [sanitizeText_eq_after h]
    exact Text.length_lines s
  · rw [sanitizeText_eq_after h]
    exact List.countP_congr fun raw _ => by rw [Line.declaresKey_trim]
  · rw [← hwritten, Dump.length_finalLines, sanitizeText_eq_after h]
    exact hbalance
  · rw [htext, List.length_eq_zero_iff.mp (hwritten.trans hnone)]
    rfl
  · have hne := List.ne_nil_of_length_pos (hwritten ▸ hsome)
    rw [htext, (LineEnding.ofText s).count_newline_joinWith hne hunbroken, hwritten]
  · rw [htext, LineEnding.ofText_eq_crlf_iff.mpr hcrlf] at hsplit
    exact LineEnding.carriage_before_newline hunbroken hsplit
  · rw [sanitizeText_eq_after h]
    exact Dump.total_length_finalLines (Dump.retained (Text.lines s))

/-- A column loses its clause, its qualifier and its comma, and a quote is doubled in place. -/
theorem sanitizeText_accounts_of_crlf_table :
    let s := "a int unsigned COLLATE x DEFAULT '\\'',,\r\nKEY a\r\n);".toList
    let out : SanitizedDump := ⟨"a int DEFAULT ''''\r\n);".toList, .crlf, ⟨3, 2, 1, 2, 1, 0, 1, 1⟩⟩
    sanitizeText s = .ok out ∧ out.Accounts s :=
  ⟨rfl, sanitizeText_accounts rfl⟩

end DumpConversion
