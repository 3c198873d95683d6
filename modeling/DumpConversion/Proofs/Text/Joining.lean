import DumpConversion.Text.Lines
import DumpConversion.Proofs.Text.Trimming

/-! # Joined lines and appended tails

Lines joined by a line ending fall apart into the same lines again, up to the carriage return that
stays at the end of each but the last.

* `LineEnding.carriage`: what stays on a line when a text is cut at its line feeds.
* `Text.forall_mem_lines_joinWith`: a property of lines that no carriage return changes holds of
  the lines of a joined text exactly when it holds of the lines that were joined.
* `Text.map_trim_lines_joinWith`: joined lines fall apart into lines that differ in outer blanks only.
* `Text.infix_append_iff`: a literal is not found in a tail that lacks its last character.
-/

namespace DumpConversion

set_option autoImplicit false

namespace Text

/-! ## Cutting -/

theorem splitOn_of_not_mem {sep : Char} {s : Text} (h : sep ∉ s) : splitOn sep s = [s] := by
  induction s with
  | nil => rfl
  | cons c s ih =>
    rw [List.mem_cons, not_or] at h
    obtain ⟨hc, hs⟩ := h
    rw [splitOn, if_neg (Ne.symm hc), ih hs]

theorem splitOn_append_sep (sep : Char) (a s : Text) :
    splitOn sep (a ++ sep :: s) = splitOn sep a ++ splitOn sep s := by
  induction a with
  | nil => simp [splitOn]
  | cons c a ih =>
    by_cases hc : c = sep
    · rw [List.cons_append, splitOn, if_pos hc, ih, splitOn, if_pos hc, List.cons_append]
    · rw [List.cons_append, splitOn, if_neg hc, ih, splitOn, if_neg hc]
      cases ha : splitOn sep a with
      | nil => exact absurd ha (splitOn_ne_nil sep a)
      | cons piece rest => rfl

theorem splitOn_append_of_not_mem {sep : Char} {t : Text} (ht : sep ∉ t) (s : Text) :
    ∃ front last, splitOn sep s = front ++ [last] ∧
      splitOn sep (s ++ t) = front ++ [last ++ t] := by
  induction s with
  | nil => exact ⟨[], [], rfl, splitOn_of_not_mem ht⟩
  | cons c s ih =>
    obtain ⟨front, last, hs, hst⟩ := ih
    by_cases hc : c = sep
    · refine ⟨[] :: front, last, ?_, ?_⟩
      · rw [splitOn, if_pos hc, hs, List.cons_append]
      · rw [List.cons_append, splitOn, if_pos hc, hst, List.cons_append]
    · rw [List.cons_append, splitOn, splitOn, if_neg hc, if_neg hc, hs, hst]
      cases front with
      | nil => exact ⟨[], c :: last, rfl, rfl⟩
      | cons piece front => exact ⟨(c :: piece) :: front, last, rfl, rfl⟩

theorem not_mem_of_mem_splitOn {sep : Char} {s piece : Text} (h : piece ∈ splitOn sep s) :
    sep ∉ piece := by
  induction s generalizing piece with
  | nil =>
    rw [splitOn, List.mem_singleton] at h
    subst h
    exact List.not_mem_nil
  | cons c s ih =>
    by_cases hc : c = sep
    · rw [splitOn, if_pos hc, List.mem_cons] at h
      rcases h with rfl | h
      · exact List.not_mem_nil
      · exact ih h
    · rw [splitOn, if_neg hc] at h
      cases hs : splitOn sep s with
      | nil => exact absurd hs (splitOn_ne_nil sep s)
      | cons first rest =>
        rw [hs] at h ih
        rcases List.mem_cons.mp h with rfl | h
        · intro hm
          rcases List.mem_cons.mp hm with rfl | hm
          · exact hc rfl
          · exact ih List.mem_cons_self hm
        · exact ih (List.mem_cons_of_mem _ h)

theorem splitOn_eq_blank_iff {sep : Char} {s : Text} : splitOn sep s = [[]] ↔ s = [] := by
  constructor
  · intro h
    have hjoin := joinWith_splitOn sep s
    rw [h] at hjoin
    exact hjoin.symm
  · rintro rfl
    rfl

theorem splitOn_joinWith {sep : Char} {pieces : List Text} (hne : pieces ≠ [])
    (h : ∀ piece ∈ pieces, sep ∉ piece) : splitOn sep (joinWith [sep] pieces) = pieces := by
  induction pieces with
  | nil => exact absurd rfl hne
  | cons piece rest ih =>
    obtain ⟨hpiece, hrest⟩ := List.forall_mem_cons.mp h
    by_cases hlast : rest = []
    · subst hlast
      exact splitOn_of_not_mem hpiece
    · rw [joinWith_cons hlast, List.append_assoc, List.singleton_append, splitOn_append_sep,
        splitOn_of_not_mem hpiece, ih hlast hrest, List.singleton_append]

theorem joinWith_append {sep : Text} {ls ls' : List Text} (h : ls ≠ []) (h' : ls' ≠ []) :
    joinWith sep (ls ++ ls') = joinWith sep ls ++ sep ++ joinWith sep ls' := by
  induction ls with
  | nil => exact absurd rfl h
  | cons l ls ih =>
    by_cases hlast : ls = []
    · subst hlast
      exact joinWith_cons h'
    · rw [List.cons_append, joinWith_cons (List.append_ne_nil_of_left_ne_nil hlast ls'), ih hlast,
        joinWith_cons hlast]
      simp only [List.append_assoc]

/-- What follows the last line follows the joined text. -/
theorem joinWith_concat_append {sep : Text} (ls : List Text) (l tail : Text) :
    joinWith sep (ls ++ [l ++ tail]) = joinWith sep (ls ++ [l]) ++ tail := by
  by_cases hls : ls = []
  · subst hls
    rfl
  · rw [joinWith_append hls (List.cons_ne_nil _ _), joinWith_append hls (List.cons_ne_nil _ _)]
    exact (List.append_assoc _ l tail).symm

theorem mem_joinWith {sep : Text} {c : Char} {ls : List Text} (h : c ∈ joinWith sep ls) :
    c ∈ sep ∨ ∃ l ∈ ls, c ∈ l := by
  induction ls with
  | nil => exact absurd h List.not_mem_nil
  | cons line rest ih =>
    by_cases hrest : rest = []
    · subst hrest
      exact .inr ⟨line, List.mem_cons_self, h⟩
    · rw [joinWith_cons hrest, List.mem_append, List.mem_append] at h
      rcases h with (h | h) | h
      · exact .inr ⟨line, List.mem_cons_self, h⟩
      · exact .inl h
      · exact (ih h).imp_right fun ⟨l, hl, hc⟩ => ⟨l, List.mem_cons_of_mem _ hl, hc⟩

theorem getLast?_of_splitOn {sep : Char} {s : Text} (h : (splitOn sep s).getLast? = some []) :
    s = [] ∨ s.getLast? = some sep := by
  have hjoin : ∀ xs : List Text, joinWith [sep] (xs ++ [[]]) = [] ∨
      (joinWith [sep] (xs ++ [[]])).getLast? = some sep := by
    intro xs
    induction xs with
    | nil => exact .inl rfl
    | cons x xs ih =>
      right
      rw [List.cons_append, joinWith_cons (by simp), List.append_assoc]
      rcases ih with hnil | hlast
      · rw [hnil, List.append_nil, List.getLast?_concat]
      · rw [List.getLast?_append, List.getLast?_append, hlast]
        rfl
  obtain ⟨xs, hxs⟩ := List.getLast?_eq_some_iff.mp h
  have hs := hjoin xs
  rwa [← hxs, joinWith_splitOn] at hs

/-! ## Literals -/

/-- A literal whose last character is not in the tail is found in the text before the tail. -/
theorem infix_append_iff {w tail : Text} (hw : w ≠ []) (ht : w.getLast hw ∉ tail) (s : Text) :
    w <:+: s ++ tail ↔ w <:+: s := by
  constructor
  · rintro ⟨x, y, hxy⟩
    rcases List.append_eq_append_iff.mp hxy with ⟨z, hz, -⟩ | ⟨z, hz, rfl⟩
    · exact ⟨x, z, hz.symm⟩
    · rcases List.eq_nil_or_concat z with rfl | ⟨z, c, rfl⟩
      · exact ⟨x, [], by simpa using hz⟩
      · have hlast : w.getLast hw = c := by
          have h := congrArg List.getLast? hz
          rw [List.getLast?_append_of_ne_nil _ hw, List.getLast?_eq_some_getLast hw] at h
          simpa using h
        exact absurd (by simp [hlast]) ht
  · exact fun h => h.trans (List.prefix_append s tail).isInfix

end Text

/-! ## Line endings -/

namespace LineEnding

/-- What stays at the end of a line when a text is cut at its line feeds. -/
def carriage : LineEnding → Text
  | lf => []
  | crlf => ['\r']

theorem separator_eq (e : LineEnding) : e.separator = e.carriage ++ ['\n'] := by
  cases e <;> rfl

theorem not_mem_carriage (e : LineEnding) : '\n' ∉ e.carriage := by
  cases e <;> decide

theorem isBlankText_carriage (e : LineEnding) : Text.isBlankText e.carriage = true := by
  cases e <;> decide

/-- Two or more lines without carriage returns show which line ending joined them. -/
theorem ofText_joinWith {e : LineEnding} {first next : Text} {rest : List Text}
    (h : ∀ l ∈ first :: next :: rest, '\r' ∉ l) :
    ofText (Text.joinWith e.separator (first :: next :: rest)) = e := by
  cases e with
  | lf =>
    cases he : ofText (Text.joinWith lf.separator (first :: next :: rest)) with
    | lf => rfl
    | crlf =>
      have hreturn := (ofText_eq_crlf_iff.mp he).subset List.mem_cons_self
      rcases Text.mem_joinWith hreturn with hc | ⟨l, hl, hc⟩
      · exact absurd hc (by decide)
      · exact absurd hc (h l hl)
  | crlf =>
    rw [ofText_eq_crlf_iff, Text.joinWith_cons (List.cons_ne_nil next rest)]
    exact ⟨first, Text.joinWith crlf.separator (next :: rest), rfl⟩

end LineEnding

namespace Text

theorem lines_joinWith_cons {e : LineEnding} {line : Text} {rest : List Text} (h : '\n' ∉ line)
    (hrest : rest ≠ []) :
    lines (joinWith e.separator (line :: rest)) =
      (line ++ e.carriage) :: lines (joinWith e.separator rest) := by
  have hline : '\n' ∉ line ++ e.carriage := by
    rw [List.mem_append]
    exact fun hm => hm.elim h e.not_mem_carriage
  rw [joinWith_cons hrest, LineEnding.separator_eq, lines, List.append_assoc, List.append_assoc,
    ← List.append_assoc line, List.singleton_append, splitOn_append_sep, splitOn_of_not_mem hline]
  rfl

theorem forall_mem_lines_joinWith {e : LineEnding} {P : Text → Prop} (hnil : P [])
    (hP : ∀ line, P (line ++ e.carriage) ↔ P line) {ls : List Text} (h : ∀ l ∈ ls, '\n' ∉ l) :
    (∀ line ∈ lines (joinWith e.separator ls), P line) ↔ ∀ line ∈ ls, P line := by
  induction ls with
  | nil => simpa [joinWith, lines, splitOn] using hnil
  | cons line rest ih =>
    obtain ⟨hline, hrest⟩ := List.forall_mem_cons.mp h
    by_cases hne : rest = []
    · subst hne
      rw [joinWith, lines, splitOn_of_not_mem hline]
    · rw [lines_joinWith_cons hline hne, List.forall_mem_cons, List.forall_mem_cons, hP, ih hrest]

theorem map_trim_lines_joinWith {e : LineEnding} {ls : List Text} (hne : ls ≠ [])
    (h : ∀ l ∈ ls, '\n' ∉ l) : (lines (joinWith e.separator ls)).map trim = ls.map trim := by
  induction ls with
  | nil => exact absurd rfl hne
  | cons line rest ih =>
    obtain ⟨hline, hrest⟩ := List.forall_mem_cons.mp h
    by_cases hlast : rest = []
    · subst hlast
      rw [joinWith, lines, splitOn_of_not_mem hline]
    · rw [lines_joinWith_cons hline hlast, List.map_cons, List.map_cons, ih hlast hrest,
        trim_append_of_blank e.isBlankText_carriage]

end Text
end DumpConversion
