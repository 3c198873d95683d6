import DumpConversion.Proofs.Dump.ClauseCuts
import DumpConversion.Proofs.Dump.Lookahead
import DumpConversion.Proofs.Dump.Quotes
import DumpConversion.Proofs.Text.Joining
import Mathlib.Tactic.MkIffOfInductiveProp

/-! # The normal form of the output

The rules take key words, naming clauses, unsigned qualifiers and escaped quotes off a dump. Each
rule goes over a line once, so what it takes off may bring the text on its two sides together into
something that a rule has already looked for.

* `Line.IsNormal`: nothing that the rules look for stands on the line.
* `Line.Rejoins`: the ways in which a line comes out of the rules with something left on it. The
  clause rules bring no key word and no collation clause together; the qualifier rule may bring
  anything together.
* `sanitizeText_isNormal_iff`: the lines of the output are normal exactly when no retained line
  rejoins.
-/

namespace DumpConversion

set_option autoImplicit false

namespace Line

/-! ## Normal lines -/

/-- A line in the target dialect. -/
@[mk_iff]
structure IsNormal (line : Text) : Prop where
  key : ¬ keyWord <:+: line
  collation : Clause.collate.occurs line = false
  characterSet : Clause.characterSet.occurs line = false
  unsigned : ¬ unsignedQualifier <:+: line
  quote : ¬ backslashQuote <:+: line

theorem isNormal_nil : IsNormal [] := by
  have hword : ∀ w : Text, w ≠ [] → ¬ w <:+: [] := fun w hw h => hw (List.infix_nil.mp h)
  exact ⟨hword _ (by decide), rfl, rfl, hword _ (by decide), hword _ (by decide)⟩

/-- Blanks and delimiters at the end of a line do not matter. -/
theorem isNormal_append_iff {tail : Text} (ht : ∀ c ∈ tail, Clause.isNameChar c = false)
    (line : Text) : IsNormal (line ++ tail) ↔ IsNormal line := by
  have hword : ∀ (w : Text) (hw : w ≠ []), Clause.isNameChar (w.getLast hw) = true →
      (w <:+: line ++ tail ↔ w <:+: line) := by
    intro w hw hlast
    refine Text.infix_append_iff hw (fun hmem => ?_) line
    rw [ht _ hmem] at hlast
    cases hlast
  rw [isNormal_iff, isNormal_iff, Clause.occurs_append_tail Clause.collate_isKeyword ht,
    Clause.occurs_append_tail Clause.characterSet_isKeyword ht,
    hword keyWord (by decide) (by decide), hword unsignedQualifier (by decide) (by decide),
    hword backslashQuote (by decide) (by decide)]

/-! ## The order of the rules -/

/-- The line after the two clause rules. -/
def clauseFree (line : Text) : Text := (dropCharacterSets (dropCollations line).1).1

/-- The line after the two clause rules and the qualifier rule. -/
def unqualified (line : Text) : Text := (dropUnsigned (clauseFree line)).1

theorem rewritten_eq_quoted (line : Text) : rewritten line = quoted (unqualified line) :=
  doubleQuotes_line (unqualified line)

theorem key_not_infix_clauseFree {line : Text} (h : ¬ keyWord <:+: line) :
    ¬ keyWord <:+: clauseFree line := by
  have hname : ∀ c ∈ keyWord, Clause.isNameChar c = true := List.all_eq_true.mp (by decide +kernel)
  intro hkey
  apply h
  have hone := Clause.infix_of_infix_strip Clause.characterSet_isKeyword hname hkey
  exact Clause.infix_of_infix_strip Clause.collate_isKeyword hname hone

theorem collate_occurs_clauseFree (line : Text) :
    Clause.collate.occurs (clauseFree line) = false := by
  refine Clause.occurs_strip_of_not_occurs Clause.collate_isKeyword Clause.characterSet_isKeyword
    rfl ?_
  exact Clause.occurs_strip_of_word Clause.collate_isKeyword rfl line

/-! ## Doubling quotes -/

theorem infix_quoted_iff {w : Text} (hw : '\\' ∉ w ∧ '\'' ∉ w) (line : Text) :
    w <:+: quoted line ↔ w <:+: line := by
  have hplain : ∀ s, w <:+: plain s ↔ w <:+: s :=
    Clause.infix_map_iff fun x hx c => plainChar_eq_iff hw hx
  rw [← hplain, plain_quoted, hplain]

theorem blind_plainChar {k : Clause} (hk : ∀ w ∈ k.words, '\\' ∉ w ∧ '\'' ∉ w) :
    k.Blind plainChar := by
  have hsame : ∀ {f : Char → Bool}, f '\'' = f '\\' → ∀ c, f (plainChar c) = f c := by
    intro f hf c
    unfold plainChar
    split
    · next h => rw [h, hf]
    · rfl
  exact ⟨hsame (by decide), hsame (by decide), hsame (by decide +kernel),
    fun w hw x hx c => plainChar_eq_iff (hk w hw) hx⟩

theorem occurs_quoted {k : Clause} (hk : ∀ w ∈ k.words, '\\' ∉ w ∧ '\'' ∉ w)
    (line : Text) : k.occurs (quoted line) = k.occurs line := by
  have hplain := (blind_plainChar hk).occurs_map
  rw [← hplain (quoted line), ← hplain line]
  exact congrArg k.occurs (plain_quoted line)

/-! ## What may be left behind -/

/-- The rules leave something on the line: the removal of the qualifiers brings a key word, a clause
or a qualifier together, a character set clause is left by its own rule and by the qualifier rule,
or one of two backslashes before a quote stays. -/
inductive Rejoins (line : Text) : Prop where
  | key : ¬ keyWord <:+: clauseFree line → keyWord <:+: unqualified line → Rejoins line
  | collation : Clause.collate.occurs (clauseFree line) = false →
      Clause.collate.occurs (unqualified line) = true → Rejoins line
  | characterSet : Clause.characterSet.occurs (unqualified line) = true → Rejoins line
  | unsigned : unsignedQualifier <:+: unqualified line → Rejoins line
  | quote : ['\\', '\\', '\''] <:+: unqualified line → Rejoins line

theorem rewritten_isNormal_iff {line : Text} (h : ¬ keyWord <:+: line) :
    IsNormal (rewritten line) ↔ ¬ Rejoins line := by
  rw [rewritten_eq_quoted, isNormal_iff, infix_quoted_iff (by decide), infix_quoted_iff (by decide),
    occurs_quoted (by decide), occurs_quoted (by decide), backslashQuote_infix_quoted_iff]
  constructor
  · rintro ⟨hkey, hcollation, hcharacterSet, hunsigned, hquote⟩ hrejoins
    cases hrejoins with
    | key _ hk => exact hkey hk
    | collation _ hc => rw [hcollation] at hc; cases hc
    | characterSet hc => rw [hcharacterSet] at hc; cases hc
    | unsigned hu => exact hunsigned hu
    | quote hq => exact hquote hq
  · intro hno
    refine ⟨fun hk => hno (.key (key_not_infix_clauseFree h) hk), ?_, ?_,
      fun hu => hno (.unsigned hu), fun hq => hno (.quote hq)⟩
    · rw [Bool.eq_false_iff]
      exact fun hc => hno (.collation (collate_occurs_clauseFree line) hc)
    · rw [Bool.eq_false_iff]
      exact fun hc => hno (.characterSet hc)

/-! ## No line breaks on a line -/

theorem stripFrom_sublist (k : Clause) (skip : Nat) (p : Option Char) (s : Text) :
    (k.stripFrom skip p s).1.Sublist s := by
  induction s generalizing skip p with
  | nil => cases skip <;> exact List.Sublist.refl []
  | cons c s ih =>
    cases skip with
    | succ skip => exact (ih skip (some c)).cons c
    | zero =>
      rw [Clause.stripFrom]
      split
      · exact (ih _ (some c)).cons c
      · exact (ih 0 (some c)).cons_cons c

theorem removeFrom_sublist (w : Text) (skip : Nat) (s : Text) :
    (Text.replaceFrom w [] skip s).1.Sublist s := by
  induction s generalizing skip with
  | nil => cases skip <;> exact List.Sublist.refl []
  | cons c s ih =>
    cases skip with
    | succ skip => exact (ih skip).cons c
    | zero =>
      rw [Text.replaceFrom]
      split
      · exact (ih _).cons c
      · exact (ih 0).cons_cons c

theorem unqualified_sublist (line : Text) : (unqualified line).Sublist line := by
  have hunsigned : (unqualified line).Sublist (clauseFree line) :=
    removeFrom_sublist unsignedQualifier 0 (clauseFree line)
  have hcharacterSet : (clauseFree line).Sublist (dropCollations line).1 :=
    stripFrom_sublist Clause.characterSet 0 none (dropCollations line).1
  have hcollation : (dropCollations line).1.Sublist line :=
    stripFrom_sublist Clause.collate 0 none line
  exact (hunsigned.trans hcharacterSet).trans hcollation

theorem newline_not_mem_rewritten {line : Text} (h : '\n' ∉ line) : '\n' ∉ rewritten line := by
  rw [rewritten_eq_quoted]
  intro hmem
  rcases mem_of_mem_quoted hmem with hmem | hmem
  · exact h ((unqualified_sublist line).subset hmem)
  · exact absurd hmem (by decide)

end Line

/-! ## The lines of the output -/

namespace Dump

theorem newline_not_mem_retained {s line : Text} (h : line ∈ retained (Text.lines s)) :
    '\n' ∉ line := by
  obtain ⟨raw, hraw, rfl⟩ := List.mem_map.mp (List.mem_filter.mp h).1
  intro hmem
  have hstart := (Text.dropTrailing_isPrefix Text.isBlank (Text.trimStart raw)).subset hmem
  exact Text.not_mem_of_mem_splitOn hraw ((List.dropWhile_suffix Text.isBlank).subset hstart)

theorem key_not_infix_retained {raws : List Text} {line : Text} (h : line ∈ retained raws) :
    ¬ Line.keyWord <:+: line := by
  have hkey := (List.mem_filter.mp h).2
  intro hinfix
  rw [Line.declaresKey_iff.mpr hinfix] at hkey
  cases hkey

theorem isNameChar_of_mem_commas {n : Nat} {c : Char} (h : c ∈ List.replicate n ',') :
    Clause.isNameChar c = false := by
  rw [List.eq_of_mem_replicate h]
  decide

theorem finalLine_isNormal_iff (line : Text) (rest : List Text) :
    Line.IsNormal (finalLine line rest) ↔ Line.IsNormal (Line.rewritten line) := by
  rw [← finalLine_append_commas line rest]
  exact (Line.isNormal_append_iff (fun _ => isNameChar_of_mem_commas) _).symm

theorem newline_not_mem_finalLine {line : Text} (h : '\n' ∉ line) (rest : List Text) :
    '\n' ∉ finalLine line rest := by
  have hrewritten := Line.newline_not_mem_rewritten h
  rw [← finalLine_append_commas line rest] at hrewritten
  exact fun hmem => hrewritten (List.mem_append_left _ hmem)

theorem forall_mem_finalLines_iff {P Q : Text → Prop} {lines : List Text}
    (h : ∀ line ∈ lines, ∀ rest, P (finalLine line rest) ↔ Q line) :
    (∀ line ∈ finalLines lines, P line) ↔ ∀ line ∈ lines, Q line := by
  induction lines with
  | nil => simp
  | cons line rest ih =>
    obtain ⟨hline, hrest⟩ := List.forall_mem_cons.mp h
    rw [finalLines_cons, List.forall_mem_cons, List.forall_mem_cons, hline rest, ih hrest]

theorem newline_not_mem_finalLines (s : Text) :
    ∀ line ∈ finalLines (retained (Text.lines s)), '\n' ∉ line :=
  (forall_mem_finalLines_iff (Q := fun _ => True) fun _ hline rest =>
    ⟨fun _ => trivial, fun _ =>
      newline_not_mem_finalLine (newline_not_mem_retained hline) rest⟩).mpr
    fun _ _ => trivial

end Dump

/-- The lines of an accepted dump come out in normal form exactly when no retained line rejoins. -/
theorem sanitizeText_isNormal_iff {s : Text} {out : SanitizedDump} (h : sanitizeText s = .ok out) :
    (∀ line ∈ Text.lines out.text, Line.IsNormal line) ↔
      ∀ line ∈ Dump.retained (Text.lines s), ¬ Line.Rejoins line := by
  have hcarriage : ∀ c ∈ (LineEnding.ofText s).carriage, Clause.isNameChar c = false := by
    intro c hc
    have hblank := Text.isBlankText_iff.mp (LineEnding.ofText s).isBlankText_carriage c hc
    simp [Clause.isNameChar, hblank]
  rw [text_eq_joinWith h, Text.forall_mem_lines_joinWith Line.isNormal_nil
    (Line.isNormal_append_iff hcarriage) (Dump.newline_not_mem_finalLines s)]
  refine Dump.forall_mem_finalLines_iff fun line hline rest => ?_
  rw [Dump.finalLine_isNormal_iff,
    Line.rewritten_isNormal_iff (Dump.key_not_infix_retained hline)]

/-- Nothing is left on a line with a clause, a qualifier and an escaped quote. -/
theorem sanitizeText_isNormal_of_column :
    let s := "a int unsigned COLLATE x DEFAULT '\\'',\n);".toList
    let out : SanitizedDump := ⟨"a int DEFAULT ''''\n);".toList, .lf, ⟨2, 2, 0, 1, 1, 0, 1, 1⟩⟩
    sanitizeText s = .ok out ∧
      ((∀ line ∈ Text.lines out.text, Line.IsNormal line) ↔
        ∀ line ∈ Dump.retained (Text.lines s), ¬ Line.Rejoins line) :=
  ⟨rfl, sanitizeText_isNormal_iff rfl⟩

/-- The removal of one qualifier brings another one together, and it stays. -/
theorem sanitizeText_leaves_unsigned :
    ¬ ∀ (s : Text) (out : SanitizedDump), sanitizeText s = .ok out →
      ∀ line ∈ Text.lines out.text, Line.IsNormal line := by
  intro h
  have hrun : sanitizeText "\"a\" int un unsignedsigned".toList =
      .ok ⟨"\"a\" int unsigned".toList, .lf, ⟨1, 1, 0, 0, 0, 0, 1, 0⟩⟩ := rfl
  have hline := h _ _ hrun "\"a\" int unsigned".toList List.mem_cons_self
  exact hline.unsigned ⟨"\"a\" int".toList, [], rfl⟩

end DumpConversion
