import DumpConversion.Proofs.Dump.Refusal
import DumpConversion.Proofs.Dump.Unchanged

/-! # Dumps in their final form

A dump is in its final form when a scan has nothing left to do. Whether it is can be read off its
lines: each is normal, and each line that closes a table finds a line before it that is not blank and
does not end with a comma. Outer blanks are out of the question here; a scan takes them off anyway.

* `Dump.ClosesWell`: what a line that closes a table needs to find before it.
* `Dump.IsFinal`: the two conditions together, on trimmed lines.
* `sanitizeText_isOk_iff`: the dumps that are accepted.
* `sanitizeText_of_final`, `isFinal_of_unchanged`: lines in final form stay, and only they do.
-/

namespace DumpConversion

set_option autoImplicit false

/-! ## Trailing commas -/

namespace Line

theorem trailingCommas_eq_zero_iff {line : Text} :
    trailingCommas line = 0 ↔ line.getLast? ≠ some ',' := by
  rw [trailingCommas, List.length_eq_zero_iff, ← List.head?_reverse]
  cases line.reverse with
  | nil => simp
  | cons c s => simp [List.takeWhile_cons]

theorem withoutTrailingCommas_of_none {line : Text} (h : trailingCommas line = 0) :
    Retained.withoutTrailingCommas line = line := by
  conv_rhs => rw [← withoutTrailingCommas_append line, h, List.replicate_zero, List.append_nil]

/-- Of a line that stays as it is, as much can be seen before the rules as after them. -/
theorem isVisible_of_unchanged {line : Text} (h : rewritten line = line) :
    isVisible line = !Text.isBlankText line := by
  rw [isVisible, h]

end Line

/-! ## Closing lines -/

namespace Dump

/-- The last of the lines that is not blank. -/
def lastShown (ls : List Text) : Option Text := ls.reverse.find? fun line => !Text.isBlankText line

/-- Every line that closes a table has a line before it that is not blank, and the nearest one does
not end with a comma. -/
def ClosesWell (ls : List Text) : Prop :=
  ∀ before line later, ls = before ++ line :: later → Line.closesTable line = true →
    ∃ near, lastShown before = some near ∧ near.getLast? ≠ some ','

theorem lastShown_eq_some_iff {ls : List Text} {near : Text} :
    lastShown ls = some near ↔ Text.isBlankText near = false ∧
      ∃ before between, ls = before ++ near :: between ∧
        ∀ line ∈ between, Text.isBlankText line = true := by
  rw [lastShown, List.find?_eq_some_iff_append, Bool.not_eq_true']
  refine and_congr_right fun _ => ?_
  constructor
  · rintro ⟨between, before, hls, hblank⟩
    refine ⟨before.reverse, between.reverse, ?_, fun line hline => ?_⟩
    · have h := congrArg List.reverse hls
      rw [List.reverse_reverse, List.reverse_append, List.reverse_cons, List.append_assoc] at h
      exact h
    · simpa using hblank line (List.mem_reverse.mp hline)
  · rintro ⟨before, between, rfl, hblank⟩
    refine ⟨between.reverse, before.reverse, by simp, fun line hline => ?_⟩
    simpa using hblank line (List.mem_reverse.mp hline)

theorem exists_lastShown {ls : List Text} (h : ∃ line ∈ ls, Text.isBlankText line = false) :
    ∃ near, lastShown ls = some near := by
  obtain ⟨line, hmem, hline⟩ := h
  cases hlast : lastShown ls with
  | some near => exact ⟨near, rfl⟩
  | none =>
    rw [lastShown, List.find?_eq_none] at hlast
    exact absurd (by simp [hline]) (hlast line (List.mem_reverse.mpr hmem))

/-- The next visible line closes a table: only lines that cannot be seen stand before it. -/
theorem closesNext_iff {rest : List Text} :
    closesNext rest = true ↔ ∃ between closing later, rest = between ++ closing :: later ∧
      (∀ line ∈ between, Line.isVisible line = false) ∧ Line.closesTable closing = true := by
  rw [closesNext, Option.any_eq_true]
  constructor
  · rintro ⟨closing, hfind, hcloses⟩
    obtain ⟨-, between, later, hrest, hbetween⟩ := List.find?_eq_some_iff_append.mp hfind
    exact ⟨between, closing, later, hrest, fun line hline => by simpa using hbetween line hline,
      hcloses⟩
  · rintro ⟨between, closing, later, hrest, hbetween, hcloses⟩
    refine ⟨closing, List.find?_eq_some_iff_append.mpr
      ⟨Line.isVisible_of_closesTable hcloses, between, later, hrest, fun line hline => ?_⟩, hcloses⟩
    simp [hbetween line hline]

theorem totalCommasLost_eq_zero_iff {ls : List Text} :
    totalCommasLost ls = 0 ↔ ∀ before line later, ls = before ++ line :: later →
      losesCommas line later = true → Line.trailingCommas (Line.rewritten line) = 0 := by
  induction ls with
  | nil => simp
  | cons first rest ih =>
    rw [totalCommasLost_cons, Nat.add_eq_zero_iff, ih]
    constructor
    · rintro ⟨hfirst, hrest⟩ before line later hsplit hloses
      cases before with
      | nil =>
        rw [List.nil_append, List.cons.injEq] at hsplit
        obtain ⟨rfl, rfl⟩ := hsplit
        rwa [commasLost, if_pos hloses] at hfirst
      | cons x before =>
        rw [List.cons_append, List.cons.injEq] at hsplit
        exact hrest before line later hsplit.2 hloses
    · intro h
      refine ⟨?_, fun before line later hsplit => ?_⟩
      · rw [commasLost]
        split
        · next hloses => exact h [] first rest rfl hloses
        · rfl
      · exact h (first :: before) line later (by rw [hsplit, List.cons_append])

theorem length_finalLines (ls : List Text) : (finalLines ls).length = ls.length := by
  rw [finalLines, List.length_mapIdx]

theorem length_finalLine (line : Text) (rest : List Text) :
    (finalLine line rest).length + commasLost line rest = (Line.rewritten line).length := by
  have h := congrArg List.length (finalLine_append_commas line rest)
  rwa [List.length_append, List.length_replicate] at h

theorem finalLine_of_no_loss {line : Text} {rest : List Text} (h : commasLost line rest = 0) :
    finalLine line rest = Line.rewritten line := by
  rw [← finalLine_append_commas line rest, h, List.replicate_zero, List.append_nil]

theorem finalLines_of_no_loss {ls : List Text} (h : totalCommasLost ls = 0) :
    finalLines ls = ls.map Line.rewritten := by
  induction ls with
  | nil => rfl
  | cons line rest ih =>
    rw [totalCommasLost_cons, Nat.add_eq_zero_iff] at h
    rw [finalLines_cons, List.map_cons, ih h.2, finalLine_of_no_loss h.1]

/-- Lines that come out as they went in, up to outer blanks, have lost nothing at all. -/
theorem unchanged_of_map_trim_finalLines {ls : List Text} (h : (finalLines ls).map Text.trim = ls) :
    (∀ line ∈ ls, Line.rewritten line = line) ∧ totalCommasLost ls = 0 := by
  induction ls with
  | nil => simp
  | cons line rest ih =>
    rw [finalLines_cons, List.map_cons, List.cons.injEq] at h
    obtain ⟨hline, hrest⟩ := h
    obtain ⟨hsame, hlost⟩ := ih hrest
    -- no step on the way from the line to its trimmed result makes it longer
    have htrim := Text.length_trim_le (finalLine line rest)
    have hfinal := length_finalLine line rest
    have hrules := Line.length_rewritten_le line
    rw [hline] at htrim
    have hnone : commasLost line rest = 0 := by omega
    have hkept : Text.trim (finalLine line rest) = finalLine line rest := by
      apply Text.trim_eq_self_of_length_le
      rw [hline]
      omega
    refine ⟨List.forall_mem_cons.mpr ⟨?_, hsame⟩, ?_⟩
    · rw [← finalLine_of_no_loss hnone, ← hkept, hline]
    · rw [totalCommasLost_cons, hnone, hlost]

/-- Of lines that the rules leave as they are, the scan takes no comma and refuses none exactly when
every closing line finds what it needs. -/
theorem closesWell_iff {ls : List Text} (h : ∀ line ∈ ls, Line.rewritten line = line) :
    ClosesWell ls ↔
      (∀ before line later, ls = before ++ line :: later → Line.closesTable line = true →
        ∃ l ∈ before, Line.isVisible l = true) ∧ totalCommasLost ls = 0 := by
  have hvisible : ∀ line ∈ ls, Line.isVisible line = !Text.isBlankText line :=
    fun line hline => Line.isVisible_of_unchanged (h line hline)
  rw [totalCommasLost_eq_zero_iff]
  constructor
  · intro hcloses
    refine ⟨fun before line later hls hline => ?_, fun before line later hls hloses => ?_⟩
    · obtain ⟨near, hnear, -⟩ := hcloses before line later hls hline
      obtain ⟨hshown, x, y, rfl, -⟩ := lastShown_eq_some_iff.mp hnear
      have hmem : near ∈ x ++ near :: y := by simp
      exact ⟨near, hmem, by rw [hvisible near (by rw [hls]; simp), hshown]; rfl⟩
    · rw [losesCommas, Bool.and_eq_true, closesNext_iff] at hloses
      obtain ⟨hline, between, closing, later, rfl, hbetween, hclosing⟩ := hloses
      obtain ⟨near, hnear, hcomma⟩ :=
        hcloses (before ++ line :: between) closing later (by rw [hls]; simp) hclosing
      have hlast : lastShown (before ++ line :: between) = some line := by
        refine lastShown_eq_some_iff.mpr ⟨?_, before, between, rfl, fun l hl => ?_⟩
        · rw [hvisible line (by rw [hls]; simp)] at hline
          simpa using hline
        · have hl' := hbetween l hl
          rw [hvisible l (by rw [hls]; simp [hl])] at hl'
          simpa using hl'
      rw [hlast, Option.some_inj] at hnear
      rw [h line (by rw [hls]; simp), Line.trailingCommas_eq_zero_iff, hnear]
      exact hcomma
  · rintro ⟨haccepted, hlost⟩ before line later hls hline
    obtain ⟨l, hl, hlvisible⟩ := haccepted before line later hls hline
    rw [hvisible l (by rw [hls]; simp [hl])] at hlvisible
    obtain ⟨near, hnear⟩ := exists_lastShown ⟨l, hl, by simpa using hlvisible⟩
    obtain ⟨hshown, x, y, rfl, hy⟩ := lastShown_eq_some_iff.mp hnear
    have hloses : losesCommas near (y ++ line :: later) = true := by
      rw [losesCommas, Bool.and_eq_true, closesNext_iff, hvisible near (by rw [hls]; simp), hshown]
      refine ⟨rfl, y, line, later, rfl, fun b hb => ?_, hline⟩
      rw [hvisible b (by rw [hls]; simp [hb]), hy b hb]
      rfl
    have hnone := hlost x near (y ++ line :: later) (by rw [hls]; simp) hloses
    rw [h near (by rw [hls]; simp), Line.trailingCommas_eq_zero_iff] at hnone
    exact ⟨near, hnear, hnone⟩

end Dump

/-! ## Accepted dumps -/

/-- The scan goes through the given lines unless one closes a table before anything can be seen. -/
theorem ScanState.scanLines_after_isOk_iff {rest raws : List Text} {number : Nat} :
    (∃ st, (after raws).scanLines number rest = .ok st) ↔
      ∀ before raw later, rest = before ++ raw :: later →
        Line.declaresKey (Text.trim raw) = false → Line.closesTable (Text.trim raw) = true →
        ∃ line ∈ Dump.retained (raws ++ before), Line.isVisible line = true := by
  have hok : (∃ st, (after raws).scanLines number rest = .ok st) ↔
      ∀ e, (after raws).scanLines number rest ≠ .error e := by
    cases (after raws).scanLines number rest <;> simp
  rw [hok]
  constructor
  · intro h before raw later hsplit hkey hcloses
    by_contra hnone
    have hhidden : Dump.Hidden (raws ++ before) := fun line hline => by
      rw [Bool.eq_false_iff]
      exact fun hvisible => hnone ⟨line, hline, hvisible⟩
    exact h _ (scanLines_after_error_iff.mpr
      ⟨before, raw, later, hsplit, ⟨hkey, hcloses⟩, hhidden, rfl⟩)
  · intro h e herror
    obtain ⟨before, raw, later, hsplit, ⟨hkey, hcloses⟩, hhidden, -⟩ :=
      scanLines_after_error_iff.mp herror
    obtain ⟨line, hline, hvisible⟩ := h before raw later hsplit hkey hcloses
    rw [hhidden line hline] at hvisible
    cases hvisible

/-- A dump is accepted exactly when every retained line that closes a table has a visible retained
line before it. -/
theorem sanitizeText_isOk_iff {s : Text} :
    (∃ out, sanitizeText s = .ok out) ↔
      ∀ before raw later, Text.lines s = before ++ raw :: later →
        Line.declaresKey (Text.trim raw) = false → Line.closesTable (Text.trim raw) = true →
        ∃ line ∈ Dump.retained before, Line.isVisible line = true := by
  have hscan := @ScanState.scanLines_after_isOk_iff (Text.lines s) [] 1
  simp only [List.nil_append] at hscan
  rw [← hscan, sanitizeText, ScanState.after_nil]
  cases ScanState.initial.scanLines 1 (Text.lines s) with
  | ok st => simp [Except.map]
  | error e => simp [Except.map]

/-! ## The final form -/

namespace Dump

/-- Trimmed lines on which nothing is left to do. -/
structure IsFinal (ls : List Text) : Prop where
  normal : ∀ line ∈ ls, Line.IsNormal line
  closes : ClosesWell ls

theorem retained_eq_map_trim {raws : List Text}
    (h : ∀ raw ∈ raws, Line.declaresKey (Text.trim raw) = false) :
    retained raws = raws.map Text.trim := by
  rw [retained, List.filter_eq_self]
  intro line hline
  obtain ⟨raw, hraw, rfl⟩ := List.mem_map.mp hline
  simp [h raw hraw]

theorem IsFinal.declaresKey {raws : List Text} (h : IsFinal (raws.map Text.trim)) :
    ∀ raw ∈ raws, Line.declaresKey (Text.trim raw) = false := by
  intro raw hraw
  rw [Bool.eq_false_iff]
  intro hkey
  exact (h.normal _ (List.mem_map_of_mem hraw)).key (Line.declaresKey_iff.mp hkey)

theorem IsFinal.rewritten {ls : List Text} (h : IsFinal ls) :
    ∀ line ∈ ls, Line.rewritten line = line := by
  intro line hline
  have hnormal := h.normal line hline
  exact (Line.rewritten_eq_self_iff hnormal.key).mpr hnormal

end Dump

/-- A text whose trimmed lines are in final form is accepted and comes out as these lines. -/
theorem sanitizeText_of_final {s : Text} (h : Dump.IsFinal ((Text.lines s).map Text.trim)) :
    ∃ out, sanitizeText s = .ok out ∧ out.statistics.keyLines = 0 ∧
      out.statistics.trailingCommas = 0 ∧
      out.text = Text.joinWith (LineEnding.ofText s).separator ((Text.lines s).map Text.trim) := by
  have hretained := Dump.retained_eq_map_trim h.declaresKey
  obtain ⟨haccepted, hlost⟩ := (Dump.closesWell_iff h.rewritten).mp h.closes
  obtain ⟨out, hout⟩ := sanitizeText_isOk_iff.mpr fun before raw later hlines hkey hcloses => by
    have hbefore : Dump.retained before = before.map Text.trim :=
      Dump.retained_eq_map_trim fun r hr => h.declaresKey r (by rw [hlines]; simp [hr])
    rw [hbefore]
    refine haccepted (before.map Text.trim) (Text.trim raw) (later.map Text.trim) ?_ hcloses
    rw [hlines, List.map_append, List.map_cons]
  have hlines : Dump.finalLines ((Text.lines s).map Text.trim) = (Text.lines s).map Text.trim := by
    rw [Dump.finalLines_of_no_loss hlost]
    exact (List.map_congr_left h.rewritten).trans (List.map_id _)
  refine ⟨out, hout, ?_, ?_, ?_⟩
  · rw [sanitizeText_eq_after hout]
    exact List.countP_eq_zero.mpr fun raw hraw => by rw [h.declaresKey raw hraw]; decide
  · rw [sanitizeText_eq_after hout]
    exact (congrArg Dump.totalCommasLost hretained).trans hlost
  · rw [text_eq_joinWith hout, hretained, hlines]

/-- Where an accepted text loses no line and its lines come out as they went in, they are in final
form. -/
theorem isFinal_of_unchanged {s : Text} {out : SanitizedDump} (h : sanitizeText s = .ok out)
    (hkey : ∀ raw ∈ Text.lines s, Line.declaresKey (Text.trim raw) = false)
    (hsame : (Dump.finalLines ((Text.lines s).map Text.trim)).map Text.trim =
      (Text.lines s).map Text.trim) : Dump.IsFinal ((Text.lines s).map Text.trim) := by
  obtain ⟨hrewritten, hlost⟩ := Dump.unchanged_of_map_trim_finalLines hsame
  have haccepted := sanitizeText_isOk_iff.mp ⟨out, h⟩
  refine ⟨fun line hline => ?_, (Dump.closesWell_iff hrewritten).mpr ⟨?_, hlost⟩⟩
  · obtain ⟨raw, hraw, rfl⟩ := List.mem_map.mp hline
    have hno : ¬ Line.keyWord <:+: Text.trim raw := by
      rw [← Line.declaresKey_iff, hkey raw hraw]
      exact Bool.false_ne_true
    exact (Line.rewritten_eq_self_iff hno).mp (hrewritten _ hline)
  · intro before line later hsplit hcloses
    obtain ⟨raws, rest, hlines, rfl, hrest⟩ := List.map_eq_append_iff.mp hsplit
    obtain ⟨raw, more, rfl, rfl, rfl⟩ := List.map_eq_cons_iff.mp hrest
    have hvisible := haccepted raws raw more hlines (hkey raw (by rw [hlines]; simp)) hcloses
    rwa [Dump.retained_eq_map_trim fun r hr => hkey r (by rw [hlines]; simp [hr])] at hvisible

end DumpConversion
