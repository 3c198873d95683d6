import DumpConversion.Proofs.Dump.FinalForm

/-! # What a scan leaves as it is

The lines of a text decide whether a scan of it changes anything. From this come the texts that a scan
gives back as they are, and the dumps whose output a second scan leaves alone.

* `sanitizeText_eq_self_iff`: a text is given back exactly when its lines are trimmed, in final form,
  and separated by one line ending throughout.
* `Dump.IsStable`: a scan of the text drops no line, takes no comma and keeps every line up to outer
  blanks.
* `sanitizeText_isStable_iff`: the dumps whose output is stable. It is not when a rule has brought
  together what a rule looks for, when the removal of a clause has brought a closing parenthesis to
  the front of a line, or when the comma repair has uncovered one more comma.
-/

namespace DumpConversion

set_option autoImplicit false

/-! ## The lines of an output -/

theorem map_trim_lines_text {s : Text} {out : SanitizedDump} (h : sanitizeText s = .ok out)
    (hne : Dump.retained (Text.lines s) ≠ []) :
    (Text.lines out.text).map Text.trim =
      (Dump.finalLines (Dump.retained (Text.lines s))).map Text.trim := by
  rw [text_eq_joinWith h]
  refine Text.map_trim_lines_joinWith (fun hnil => hne ?_) (Dump.newline_not_mem_finalLines s)
  have hlength := congrArg List.length hnil
  rw [Dump.length_finalLines] at hlength
  exact List.length_eq_zero_iff.mp hlength

theorem map_trim_lines_ne_nil (s : Text) : (Text.lines s).map Text.trim ≠ [] := by
  rw [Ne, List.map_eq_nil_iff]
  exact Text.splitOn_ne_nil '\n' s

/-- An accepted text of which no line is dropped and all lines come out as they went in, up to outer
blanks, has its lines in final form. -/
theorem isFinal_of_same_lines {s : Text} {out : SanitizedDump} (h : sanitizeText s = .ok out)
    (hkey : ∀ raw ∈ Text.lines s, Line.declaresKey (Text.trim raw) = false)
    (hsame : (Text.lines out.text).map Text.trim = (Text.lines s).map Text.trim) :
    Dump.IsFinal ((Text.lines s).map Text.trim) := by
  have hretained := Dump.retained_eq_map_trim hkey
  have hlines := map_trim_lines_text h (by rw [hretained]; exact map_trim_lines_ne_nil s)
  rw [hretained, hsame] at hlines
  exact isFinal_of_unchanged h hkey hlines.symm

/-! ## Texts that come out as they went in -/

/-- The lines of an output that is the text itself are as many as those of the text, so no line was
dropped. -/
theorem declaresKey_of_text_eq {t : Text} {out : SanitizedDump} (h : sanitizeText t = .ok out)
    (htext : out.text = t) :
    ∀ raw ∈ Text.lines t, Line.declaresKey (Text.trim raw) = false := by
  have hkept : (Dump.retained (Text.lines t)).length = ((Text.lines t).map Text.trim).length := by
    by_cases hnil : Dump.retained (Text.lines t) = []
    · -- all that is left of no line is the empty text, and it has one line
      have hjoin := text_eq_joinWith h
      rw [htext, hnil] at hjoin
      have ht : t = [] := hjoin
      subst ht
      cases hnil
    · have hlines := map_trim_lines_text h hnil
      rw [htext] at hlines
      rw [hlines, List.length_map, Dump.length_finalLines]
  have hall := List.length_filter_eq_length_iff.mp hkept
  intro raw hraw
  simpa using hall _ (List.mem_map_of_mem hraw)

/-- A text is accepted and comes out as it went in exactly when, cut at its line ending, it consists
of trimmed normal lines, and every line that closes a table has a line before it that is not blank,
the nearest of which does not end with a comma. -/
theorem sanitizeText_eq_self_iff (t : Text) :
    (∃ out, sanitizeText t = .ok out ∧ out.text = t) ↔
      ∃ ls : List Text, t = Text.joinWith (LineEnding.ofText t).separator ls ∧
        (∀ line ∈ ls, '\n' ∉ line ∧ Text.IsTrimmed line ∧ Line.IsNormal line) ∧
        Dump.ClosesWell ls := by
  constructor
  · rintro ⟨out, h, htext⟩
    have hkey := declaresKey_of_text_eq h htext
    have hfinal := isFinal_of_same_lines h hkey (by rw [htext])
    obtain ⟨out', h', -, -, hjoin⟩ := sanitizeText_of_final hfinal
    rw [h] at h'
    cases h'
    refine ⟨(Text.lines t).map Text.trim, htext.symm.trans hjoin, fun line hline => ?_,
      hfinal.closes⟩
    have hretained := Dump.retained_eq_map_trim hkey
    obtain ⟨raw, -, rfl⟩ := List.mem_map.mp hline
    rw [← hretained] at hline
    refine ⟨Dump.newline_not_mem_retained hline, Text.isTrimmed_trim raw, ?_⟩
    rw [hretained] at hline
    exact hfinal.normal _ hline
  · rintro ⟨ls, ht, hls, hcloses⟩
    cases ls with
    | nil =>
      have hnil : t = [] := ht
      exact ⟨_, by rw [hnil]; exact sanitizeText_nil, hnil.symm⟩
    | cons first rest =>
      have hlines : (Text.lines t).map Text.trim = first :: rest := by
        conv_lhs => rw [ht]
        rw [Text.map_trim_lines_joinWith (List.cons_ne_nil first rest) fun l hl => (hls l hl).1]
        refine (List.map_congr_left fun l hl => ?_).trans (List.map_id _)
        exact Text.trim_eq_self_iff.mpr (hls l hl).2.1
      have hfinal : Dump.IsFinal ((Text.lines t).map Text.trim) := by
        rw [hlines]
        exact ⟨fun line hline => (hls line hline).2.2, hcloses⟩
      obtain ⟨out, hout, -, -, htext⟩ := sanitizeText_of_final hfinal
      exact ⟨out, hout, by rw [htext, hlines]; exact ht.symm⟩

/-! ## Stable texts -/

namespace Dump

/-- A scan of the text goes through, drops no key line, takes no trailing comma, and gives the lines
of the text up to the blanks around them. -/
def IsStable (t : Text) : Prop :=
  ∃ again, sanitizeText t = .ok again ∧ again.statistics.keyLines = 0 ∧
    again.statistics.trailingCommas = 0 ∧
    (Text.lines again.text).map Text.trim = (Text.lines t).map Text.trim

theorem isStable_iff {t : Text} : IsStable t ↔ IsFinal ((Text.lines t).map Text.trim) := by
  constructor
  · rintro ⟨again, h, hkey, -, hsame⟩
    refine isFinal_of_same_lines h (fun raw hraw => ?_) hsame
    rw [sanitizeText_eq_after h] at hkey
    simpa using List.countP_eq_zero.mp hkey raw hraw
  · intro h
    obtain ⟨again, hagain, hkey, hcommas, htext⟩ := sanitizeText_of_final h
    refine ⟨again, hagain, hkey, hcommas, ?_⟩
    have hretained := retained_eq_map_trim h.declaresKey
    have hnewline : ∀ l ∈ (Text.lines t).map Text.trim, '\n' ∉ l := fun l hl =>
      newline_not_mem_retained (s := t) (by rw [hretained]; exact hl)
    rw [htext, Text.map_trim_lines_joinWith (map_trim_lines_ne_nil t) hnewline, List.map_map]
    exact List.map_congr_left fun raw _ => Text.trim_trim raw

end Dump

/-! ## The output of a scan -/

theorem Line.isNormal_trimStart_append_iff {tail : Text}
    (ht : ∀ c ∈ tail, Clause.isNameChar c = false) (line : Text) :
    IsNormal (Text.trimStart (line ++ tail)) ↔ IsNormal (Text.trimStart line) := by
  rw [Text.trimStart, List.dropWhile_append]
  split
  · next hblank =>
    -- the tail is all that can be seen, and nothing on it is looked for
    have hrest : ∀ c ∈ tail.dropWhile Text.isBlank, Clause.isNameChar c = false :=
      fun c hc => ht c ((List.dropWhile_suffix Text.isBlank).subset hc)
    have hnil : Text.trimStart line = [] := List.isEmpty_iff.mp hblank
    rw [hnil, ← isNormal_append_iff hrest []]
    rfl
  · exact isNormal_append_iff ht _

theorem Line.isNormal_trim_iff (line : Text) :
    IsNormal (Text.trim line) ↔ IsNormal (Text.trimStart line) := by
  obtain ⟨b, hb, hend, -, -⟩ := Text.exists_blanks_trimStart (Text.trimStart line).reverse
  have htrim : Text.trimStart line = Text.trim line ++ b.reverse := by
    have h := congrArg List.reverse hend
    rwa [List.reverse_reverse, List.reverse_append] at h
  rw [htrim]
  refine (isNormal_append_iff (fun c hc => ?_) _).symm
  have hc := Text.isBlankText_iff.mp hb c (List.mem_reverse.mp hc)
  simp [Clause.isNameChar, hc]

theorem Dump.finalLine_trim_isNormal_iff (line : Text) (rest : List Text) :
    Line.IsNormal (Text.trim (finalLine line rest)) ↔
      Line.IsNormal (Text.trim (Line.rewritten line)) := by
  rw [Line.isNormal_trim_iff, Line.isNormal_trim_iff, ← finalLine_append_commas line rest]
  exact (Line.isNormal_trimStart_append_iff (fun _ => isNameChar_of_mem_commas) _).symm

/-- The output of an accepted dump is stable exactly when no rule finds anything on its lines, and
every one of them that closes a table has a line before it that is not blank, the nearest of which
does not end with a comma. -/
theorem sanitizeText_isStable_iff {s : Text} {out : SanitizedDump} (h : sanitizeText s = .ok out) :
    Dump.IsStable out.text ↔
      (∀ line ∈ Dump.retained (Text.lines s), Line.IsNormal (Text.trim (Line.rewritten line))) ∧
        Dump.ClosesWell ((Dump.finalLines (Dump.retained (Text.lines s))).map Text.trim) := by
  have hnormal := @Dump.forall_mem_finalLines_iff (fun l => Line.IsNormal (Text.trim l)) _
    (Dump.retained (Text.lines s)) fun line _ rest => Dump.finalLine_trim_isNormal_iff line rest
  have hfinal : Dump.IsFinal ((Dump.finalLines (Dump.retained (Text.lines s))).map Text.trim) ↔
      (∀ line ∈ Dump.retained (Text.lines s), Line.IsNormal (Text.trim (Line.rewritten line))) ∧
        Dump.ClosesWell ((Dump.finalLines (Dump.retained (Text.lines s))).map Text.trim) := by
    rw [← hnormal, ← List.forall_mem_map]
    exact ⟨fun hf => ⟨hf.normal, hf.closes⟩, fun hf => ⟨hf.1, hf.2⟩⟩
  rw [Dump.isStable_iff, ← hfinal]
  by_cases hne : Dump.retained (Text.lines s) = []
  · -- no line is left: the output has one, the empty line
    have htext : out.text = [] := by
      rw [text_eq_joinWith h, hne]
      rfl
    have hcloses : ∀ ls : List Text, (∀ line ∈ ls, line = []) → Dump.IsFinal ls := by
      intro ls hls
      refine ⟨fun line hline => ?_, fun before line later hsplit hline => ?_⟩
      · rw [hls line hline]
        exact Line.isNormal_nil
      · rw [hls line (by rw [hsplit]; simp)] at hline
        cases hline
    rw [htext, hne]
    exact iff_of_true (hcloses _ (by decide)) (hcloses _ (by decide))
  · rw [map_trim_lines_text h hne]

/-- The clause and the qualifier are gone after one scan, and so is the comma before the dropped key
line. -/
theorem sanitizeText_isStable_iff_of_table :
    let s := "create (\n  a int unsigned COLLATE x,\n  KEY k (a)\n);".toList
    let out : SanitizedDump := ⟨"create (\na int\n);".toList, .lf, ⟨4, 3, 1, 1, 1, 0, 1, 0⟩⟩
    sanitizeText s = .ok out ∧
      (Dump.IsStable out.text ↔
        (∀ line ∈ Dump.retained (Text.lines s), Line.IsNormal (Text.trim (Line.rewritten line))) ∧
          Dump.ClosesWell ((Dump.finalLines (Dump.retained (Text.lines s))).map Text.trim)) :=
  ⟨rfl, sanitizeText_isStable_iff rfl⟩

/-- A string that ends in a backslash, which a dump writes twice, loses one backslash in each of two
scans. -/
theorem sanitizeText_not_stable :
    ¬ ∀ (s : Text) (out : SanitizedDump), sanitizeText s = .ok out → Dump.IsStable out.text := by
  intro h
  have hfirst : sanitizeText "INSERT INTO \"t\" VALUES ('C:\\\\');".toList =
      .ok ⟨"INSERT INTO \"t\" VALUES ('C:\\'');".toList, .lf, ⟨1, 1, 0, 0, 0, 0, 0, 1⟩⟩ := rfl
  have hsecond : sanitizeText "INSERT INTO \"t\" VALUES ('C:\\'');".toList =
      .ok ⟨"INSERT INTO \"t\" VALUES ('C:''');".toList, .lf, ⟨1, 1, 0, 0, 0, 0, 0, 1⟩⟩ := rfl
  obtain ⟨again, hagain, -, -, hsame⟩ := h _ _ hfirst
  rw [hsecond] at hagain
  cases hagain
  exact absurd hsame (by decide)

end DumpConversion
