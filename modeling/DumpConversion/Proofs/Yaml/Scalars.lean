import DumpConversion.Proofs.Yaml.Digits

/-! # Scalars that are read back

A scalar that is written on one line is read back as what was written, whatever its form.

* `OneLine`, `Safe`: texts without line breaks, and texts in which nothing has to be escaped.
* `Resumes`: what may follow the line of a scalar.
* `plainScalar_colon`, `plainScalar_newline`: a plain scalar up to a colon or to the end of a line.
* `StandsFor`: what is written between quotes for a text. `standsFor_escapeOut` is the character
  between double quotes.
* `Written`: the forms of a scalar. `written_writeScalar`: what is written has one of them.
-/

namespace DumpConversion.Yaml

set_option autoImplicit false

open Document (accumulate)

/-! ## Characters on one line -/

/-- The text has no line break. -/
def OneLine (s : Text) : Prop := ∀ c ∈ s, isBreak c = false

/-- Every character of the text is written as it is, and none is a line break. -/
def Safe (s : Text) : Prop := ∀ c ∈ s, isPrintable c = true ∧ isBreakOut c = false

/-- A character that begins a token, and no gap or comment. -/
def isSolid (c : Char) : Bool := !isSpace c && !isBreak c && c != '#'

theorem isBreak_of_isBreakOut {c : Char} (h : isBreakOut c = false) : isBreak c = false := by
  simp only [isBreakOut, Bool.or_eq_false_iff] at h
  exact h.2

theorem Safe.oneLine {s : Text} (h : Safe s) : OneLine s :=
  fun c hc => isBreak_of_isBreakOut (h c hc).2

theorem OneLine.of_all {s : Text} (h : (s.all fun c => !isBreak c) = true) : OneLine s := by
  simpa [OneLine] using h

theorem Safe.nil : Safe [] := fun _ h => absurd h List.not_mem_nil

theorem Safe.append {s t : Text} (hs : Safe s) (ht : Safe t) : Safe (s ++ t) := fun c hc =>
  (List.mem_append.mp hc).elim (hs c) (ht c)

theorem Safe.cons {c : Char} {s : Text} (hc : isPrintable c = true ∧ isBreakOut c = false)
    (hs : Safe s) : Safe (c :: s) := List.forall_mem_cons.mpr ⟨hc, hs⟩

/-- A character of a line that is written as it is needs no escape. -/
theorem safe_of_isBreak {c : Char} (hprint : isPrintable c = true) (hline : isBreak c = false) :
    isPrintable c = true ∧ isBreakOut c = false := by
  refine ⟨hprint, ?_⟩
  have hreturn : c ≠ '\r' := by rintro rfl; exact absurd hprint (by decide)
  have hnext : c ≠ '\u0085' := by rintro rfl; exact absurd hprint (by decide)
  simp [isBreakOut, hreturn, hnext, hline]

theorem isSpace_of_printable {c : Char} (hprint : isPrintable c = true) (h : c ≠ ' ') :
    isSpace c = false := by
  have htab : c ≠ '\t' := by rintro rfl; exact absurd hprint (by decide)
  simp [isSpace, h, htab]

/-! ## Positions on a line -/

/-- The position behind a text. -/
def Position.behind (p : Position) (s : Text) : Position := s.foldl Position.after p

theorem Position.after_of_not_break {c : Char} (p : Position) (h : isBreak c = false) :
    p.after c = ⟨p.line, p.column + 1, p.index + 1⟩ := by
  simp [Position.after, h]

theorem Position.behind_of_oneLine (p : Position) {s : Text} (h : OneLine s) :
    p.behind s = ⟨p.line, p.column + s.length, p.index + s.length⟩ := by
  induction s generalizing p with
  | nil => rfl
  | cons c s ih =>
    obtain ⟨hc, hs⟩ := List.forall_mem_cons.mp h
    rw [behind, List.foldl_cons, after_of_not_break p hc]
    refine (ih _ hs).trans ?_
    simp only [List.length_cons, Position.mk.injEq, true_and]
    omega

theorem Position.column_behind_pos {p : Position} (hp : 0 < p.column) {s : Text} (h : OneLine s) :
    0 < (p.behind s).column := by
  rw [behind_of_oneLine p h]
  exact Nat.add_pos_left hp _

theorem isDocumentMark_of_column {p : Position} (hp : 0 < p.column) (s : Text) :
    isDocumentMark p s = false := by
  have hcolumn : (p.column == 0) = false := by simpa using Nat.pos_iff_ne_zero.mp hp
  simp [isDocumentMark, isMark, hcolumn]

/-! ## Gaps -/

/-- Spaces inside a line, newest first. -/
def Gap.spaced (spaces : Text) : Gap := ⟨spaces, false, .none, []⟩

theorem Gap.add_spaced {c : Char} (h : isBreak c = false) (spaces : Text) :
    (Gap.spaced spaces).add c = Gap.spaced (c :: spaces) := by
  simp [Gap.add, Gap.spaced, h]

theorem Gap.folded_spaced (spaces : Text) : (Gap.spaced spaces).folded = spaces.reverse := rfl

theorem endsWord_append {s : Text} (h : endsWord s = false) (tail : Text) :
    endsWord (s ++ tail) = false := by
  cases s with
  | nil => cases h
  | cons c s => exact h

/-! ## What follows a line -/

/-- Nothing follows, or a line that begins left of column `k`. -/
inductive Resumes (k : Nat) : Text → Prop where
  | ended : Resumes k []
  | line {j : Nat} (hj : j < k) {c : Char} {s : Text} (hc : isSolid c = true) :
    Resumes k (List.replicate j ' ' ++ c :: s)

theorem Resumes.mono {k l : Nat} (h : k ≤ l) {s : Text} (hs : Resumes k s) : Resumes l s := by
  cases hs with
  | ended => exact .ended
  | line hj hc => exact .line (Nat.lt_of_lt_of_le hj h) hc

theorem skipGap_solid {c : Char} (hc : isSolid c = true) (key : Bool) (p : Position) (s : Text) :
    skipGap false false key p (c :: s) = ⟨key, p, c :: s⟩ := by
  simp only [isSolid, isSpace, Bool.and_eq_true, Bool.not_eq_true', Bool.or_eq_false_iff,
    bne_iff_ne, beq_eq_false_iff_ne] at hc
  simp [skipGap, hc]

theorem skipGap_indentation (key : Bool) (k : Nat) (p : Position) (s : Text) :
    skipGap false false key p (List.replicate k ' ' ++ s) =
      skipGap false false key (p.behind (List.replicate k ' ')) s := by
  induction k generalizing p with
  | zero => rfl
  | succ k ih =>
    rw [List.replicate_succ, List.cons_append, skipGap]
    exact ih _

/-! ## Plain scalars -/

section Plain

variable {indent : Nat} {acc spaces s tail : Text} {p : Position} {fresh : Bool} {c : Char}

theorem plainFrom_space (hc : isSpace c = true) (hline : isBreak c = false) :
    plainFrom false indent acc (.spaced spaces) fresh p (c :: s) =
      plainFrom false indent acc (.spaced (c :: spaces)) true (p.after c) s := by
  rw [plainFrom, ← Gap.add_spaced hline]
  simp [hc, Gap.spaced]

theorem plainFrom_char (hc : isSpace c = false) (hline : isBreak c = false)
    (hfresh : fresh = true → isDocumentMark p (c :: s) = false ∧ c ≠ '#')
    (hcolon : (c == ':' && endsWord s) = false) :
    plainFrom false indent acc (.spaced spaces) fresh p (c :: s) =
      plainFrom false indent (c :: (spaces ++ acc)) .none false (p.after c) s := by
  have hstart : (fresh && (isDocumentMark p (c :: s) || c == '#' ||
      ((Gap.spaced spaces).broken && !false && decide (p.column < indent)))) = false := by
    cases fresh with
    | false => rfl
    | true =>
      obtain ⟨hmark, hhash⟩ := hfresh rfl
      simp [hmark, hhash, Gap.spaced]
  rw [plainFrom]
  simp only [hc, hline, Bool.or_self, Bool.false_eq_true, if_false, hstart, Bool.false_and,
    hcolon, Gap.folded_spaced, List.reverse_reverse]

theorem head?_ne_hash_of_hasStop (hstop : hasStop (some c) s = false) (hc : isSpace c = true) :
    s.head? ≠ some '#' := by
  cases s with
  | nil => exact fun h => by cases h
  | cons d s =>
    rintro h
    obtain rfl : d = '#' := Option.some.inj h
    simp [hasStop, hc] at hstop

/-- A plain scalar is read to its end, and no further. -/
theorem plainFrom_text (hne : s ≠ []) (hline : OneLine s)
    (hlast : ∀ d, s.getLast? = some d → isSpace d = false) {previous : Option Char}
    (hstop : hasStop previous s = false) (hfresh : fresh = true → s.head? ≠ some '#')
    (hmark : isDocumentMark p (s ++ tail) = false) :
    plainFrom false indent acc (.spaced spaces) fresh p (s ++ tail) =
      plainFrom false indent (s.reverse ++ (spaces ++ acc)) .none false (p.behind s) tail := by
  induction s generalizing acc spaces p fresh previous with
  | nil => exact absurd rfl hne
  | cons c s ih =>
    obtain ⟨hc, hs⟩ := List.forall_mem_cons.mp hline
    simp only [hasStop, Bool.or_eq_false_iff] at hstop
    have hnext : isDocumentMark (p.after c) (s ++ tail) = false := by
      refine isDocumentMark_of_column ?_ _
      rw [Position.after_of_not_break p hc]
      exact Nat.succ_pos _
    have hlater (hs' : s ≠ []) : ∀ d, s.getLast? = some d → isSpace d = false := by
      intro d hd
      exact hlast d (by rw [List.getLast?_cons_of_ne_nil hs', hd])
    rw [List.cons_append]
    cases hspace : isSpace c with
    | true =>
      -- A space is not the last character, so a word follows and fills the gap.
      have hs' : s ≠ [] := by
        rintro rfl
        rw [hlast c rfl] at hspace
        cases hspace
      rw [plainFrom_space hspace hc,
        ih hs' hs (hlater hs') hstop.2 (fun _ => head?_ne_hash_of_hasStop hstop.2 hspace) hnext]
      simp [Position.behind]
    | false =>
      have hstart : fresh = true → isDocumentMark p (c :: (s ++ tail)) = false ∧ c ≠ '#' :=
        fun h => ⟨hmark, fun heq => hfresh h (by rw [heq]; rfl)⟩
      have hcolon : (c == ':' && endsWord (s ++ tail)) = false := by
        cases hword : endsWord s with
        | true =>
          rw [hword, Bool.and_true] at hstop
          rw [hstop.1.1, Bool.false_and]
        | false => rw [endsWord_append hword, Bool.and_false]
      rw [plainFrom_char hspace hc hstart hcolon]
      by_cases hs' : s = []
      · subst hs'
        rfl
      · have hrest : plainFrom false indent (c :: (spaces ++ acc)) (.spaced []) false (p.after c)
              (s ++ tail) =
            plainFrom false indent (s.reverse ++ ([] ++ c :: (spaces ++ acc))) .none false
              ((p.after c).behind s) tail :=
          ih hs' hs (hlater hs') hstop.2 (fun h => by cases h) hnext
        refine hrest.trans ?_
        simp [Position.behind]

theorem plainFrom_colon (h : endsWord s = true) :
    plainFrom false indent acc .none false p (':' :: s) = .ok ⟨acc.reverse, false, p, ':' :: s⟩ := by
  simp [plainFrom, isSpace, isBreak, h, Gap.none]

theorem plainFrom_indentation {gap : Gap} (hgap : gap.broken = true) (k : Nat) :
    plainFrom false indent acc gap true p (List.replicate k ' ' ++ s) =
      plainFrom false indent acc gap true (p.behind (List.replicate k ' ')) s := by
  induction k generalizing p with
  | zero => rfl
  | succ k ih =>
    have hadd : gap.add ' ' = gap := by simp [Gap.add, isBreak, hgap]
    rw [List.replicate_succ, List.cons_append, plainFrom, hadd]
    exact ih

theorem plainFrom_dedent {gap : Gap} (hgap : gap.broken = true) (hc : isSolid c = true)
    (hp : p.column < indent) :
    plainFrom false indent acc gap true p (c :: s) = .ok ⟨acc.reverse, true, p, c :: s⟩ := by
  simp only [isSolid, Bool.and_eq_true, Bool.not_eq_true'] at hc
  simp [plainFrom, hc, hgap, hp]

/-- A plain scalar ends with its line, when the next line is indented less. -/
theorem plainFrom_newline {more : Text} (hmore : Resumes indent more) :
    plainFrom false indent acc .none false p ('\n' :: more) =
      .ok ⟨acc.reverse, true, (skipGap false false true (p.after '\n') more).position,
        (skipGap false false true (p.after '\n') more).rest⟩ := by
  have hgap : plainFrom false indent acc .none false p ('\n' :: more) =
      plainFrom false indent acc ⟨[], true, some '\n', []⟩ true (p.after '\n') more := rfl
  rw [hgap]
  cases hmore with
  | ended => rfl
  | @line j hj c s hc =>
    have hcolumn : ((p.after '\n').behind (List.replicate j ' ')).column < indent := by
      rw [Position.behind_of_oneLine _ (by simp [OneLine, isBreak]), List.length_replicate]
      have hzero : (p.after '\n').column = 0 := rfl
      simp only [hzero]
      omega
    rw [plainFrom_indentation rfl, plainFrom_dedent rfl hc hcolumn, skipGap_indentation,
      skipGap_solid hc]

end Plain

/-! ## Texts that are plain scalars -/

/-- What makes a text a plain scalar. -/
structure IsPlain (s : Text) : Prop where
  ne_nil : s ≠ []
  safe : Safe s
  head : s.head? ≠ some ' '
  last : s.getLast? ≠ some ' '
  noMark : startsWithMark s = false
  noSpecial : startsSpecial s = false
  noStop : hasStop none s = false

theorem plainable_iff {s : Text} : plainable s = true ↔ IsPlain s := by
  constructor
  · intro h
    simp only [plainable, Bool.and_eq_true, Bool.not_eq_true', bne_iff_ne, List.all_eq_true,
      List.any_eq_false, List.isEmpty_eq_false_iff] at h
    obtain ⟨⟨⟨⟨⟨⟨⟨hne, hprint⟩, hbreak⟩, hhead⟩, hlast⟩, hmark⟩, hspecial⟩, hstop⟩ := h
    exact ⟨hne, fun c hc => ⟨hprint c hc, by simpa using hbreak c hc⟩, hhead, hlast, hmark,
      hspecial, hstop⟩
  · intro h
    simp only [plainable, Bool.and_eq_true, Bool.not_eq_true', bne_iff_ne, List.all_eq_true,
      List.any_eq_false, List.isEmpty_eq_false_iff]
    exact ⟨⟨⟨⟨⟨⟨⟨h.ne_nil, fun c hc => (h.safe c hc).1⟩, fun c hc => by simp [(h.safe c hc).2]⟩,
      h.head⟩, h.last⟩, h.noMark⟩, h.noSpecial⟩, h.noStop⟩

namespace IsPlain

variable {s : Text}

theorem ne_of_mem_startIndicators {c d : Char} (h : IsPlain (c :: s)) (hd : d ∈ startIndicators) :
    c ≠ d := by
  rintro rfl
  have hspecial := (Bool.or_eq_false_iff.mp h.noSpecial).1
  rw [List.contains_iff_mem.mpr hd] at hspecial
  cases hspecial

/-- A character that would be a token of its own before a gap has none behind it. -/
theorem not_endsWord {c : Char} (h : IsPlain (c :: s)) (hc : c = '-' ∨ c = '?' ∨ c = ':')
    (tail : Text) : endsWord (s ++ tail) = false := by
  have hspecial := (Bool.or_eq_false_iff.mp h.noSpecial).2
  have hmay : (c == '?' || c == ':' || c == '-') = true := by
    rcases hc with rfl | rfl | rfl <;> rfl
  rw [hmay, Bool.true_and] at hspecial
  exact endsWord_append hspecial tail

theorem head_ne_hash (h : IsPlain s) : s.head? ≠ some '#' := by
  obtain ⟨c, s, rfl⟩ := List.exists_cons_of_ne_nil h.ne_nil
  exact fun heq => h.ne_of_mem_startIndicators (d := '#') (by decide) (Option.some.inj heq)

theorem last_not_space (h : IsPlain s) : ∀ d, s.getLast? = some d → isSpace d = false := by
  intro d hd
  refine isSpace_of_printable (h.safe d (List.mem_of_getLast? hd)).1 ?_
  rintro rfl
  exact h.last hd

theorem isSolid_head (h : IsPlain s) {c : Char} (hc : s.head? = some c) : isSolid c = true := by
  have hsafe := h.safe c (List.mem_of_head? hc)
  have hspace : isSpace c = false :=
    isSpace_of_printable hsafe.1 (by rintro rfl; exact h.head hc)
  have hhash : c ≠ '#' := by rintro rfl; exact h.head_ne_hash hc
  simp [isSolid, hspace, isBreak_of_isBreakOut hsafe.2, hhash]

/-- A plain scalar is read from its first character to its last. -/
theorem plainScalar_eq (h : IsPlain s) (indent : Nat) {p : Position} {tail : Text}
    (hmark : isDocumentMark p (s ++ tail) = false) :
    plainScalar false indent p (s ++ tail) =
      plainFrom false indent s.reverse .none false (p.behind s) tail := by
  have hread : plainFrom false indent [] (.spaced []) true p (s ++ tail) =
      plainFrom false indent (s.reverse ++ ([] ++ [])) .none false (p.behind s) tail :=
    plainFrom_text h.ne_nil h.safe.oneLine h.last_not_space h.noStop (fun _ => h.head_ne_hash) hmark
  rw [List.append_nil, List.append_nil] at hread
  exact hread

end IsPlain

/-! ## Quoted scalars -/

/-- The quotation mark of a quoted scalar. -/
def quoteMark (single : Bool) : Char := if single then '\'' else '"'

/-- Between quotes `w` is read as `s`. Spaces at the end wait for what follows them. -/
structure StandsFor (single : Bool) (w s : Text) : Prop where
  safe : Safe w
  read : ∀ (acc spaces : Text) (p : Position) (rest : Text), 0 < p.column →
    ∃ acc' spaces', spaces' ++ acc' = s.reverse ++ (spaces ++ acc) ∧
      quotedFrom single .text acc (.spaced spaces) p (w ++ rest) =
        quotedFrom single .text acc' (.spaced spaces') (p.behind w) rest

namespace StandsFor

variable {single : Bool} {v w s t : Text}

theorem nil (single : Bool) : StandsFor single [] [] :=
  ⟨Safe.nil, fun acc spaces _ _ _ => ⟨acc, spaces, rfl, rfl⟩⟩

theorem append (hv : StandsFor single v s) (hw : StandsFor single w t) :
    StandsFor single (v ++ w) (s ++ t) := by
  refine ⟨hv.safe.append hw.safe, fun acc spaces p rest hp => ?_⟩
  obtain ⟨acc', spaces', hfront, hread⟩ := hv.read acc spaces p (w ++ rest) hp
  obtain ⟨acc'', spaces'', hback, hread'⟩ := hw.read acc' spaces' (p.behind v) rest
    (Position.column_behind_pos hp hv.safe.oneLine)
  refine ⟨acc'', spaces'', ?_, ?_⟩
  · rw [hback, hfront, List.reverse_append, List.append_assoc]
  · rw [List.append_assoc, hread, hread', Position.behind, Position.behind, Position.behind,
      List.foldl_append]

/-- Between quotes a text stands for what its characters stand for. -/
theorem flatMap {f : Char → Text} (h : ∀ c ∈ s, StandsFor single (f c) [c]) :
    StandsFor single (s.flatMap f) s := by
  induction s with
  | nil => exact nil single
  | cons c s ih =>
    obtain ⟨hc, hs⟩ := List.forall_mem_cons.mp h
    exact hc.append (ih hs)

end StandsFor

section Quoted

variable {single : Bool} {acc spaces s rest : Text} {gap : Gap} {p : Position} {c : Char}

theorem quotedFrom_space (hc : isSpace c = true) (hline : isBreak c = false) :
    quotedFrom single .text acc (.spaced spaces) p (c :: rest) =
      quotedFrom single .text acc (.spaced (c :: spaces)) (p.after c) rest := by
  rw [quotedFrom, Gap.add_spaced hline]
  simp [hc]

/-- What a character that is no gap comes to: its quotation mark and its escape have a meaning. -/
theorem quotedFrom_char (hc : isSpace c = false) (hline : isBreak c = false)
    (hp : 0 < p.column) :
    quotedFrom single .text acc (.spaced spaces) p (c :: rest) =
      if single && c == '\'' then quotedFrom single .quote (spaces ++ acc) .none (p.after c) rest
      else if !single && c == '"' then .ok ⟨(spaces ++ acc).reverse, p.after c, rest⟩
      else if !single && c == '\\' then
        quotedFrom single .escape (spaces ++ acc) .none (p.after c) rest
      else quotedFrom single .text (c :: (spaces ++ acc)) .none (p.after c) rest := by
  rw [quotedFrom]
  simp only [hc, hline, Bool.or_self, Bool.false_eq_true, if_false,
    isDocumentMark_of_column hp, Gap.folded_spaced, List.reverse_reverse]

/-- A character without a meaning between these quotes stands for itself. -/
theorem standsFor_self (hsafe : isPrintable c = true ∧ isBreakOut c = false)
    (hquote : c ≠ quoteMark single) (hescape : single = false → c ≠ '\\') :
    StandsFor single [c] [c] := by
  refine ⟨Safe.cons hsafe Safe.nil, fun acc spaces p rest hp => ?_⟩
  have hline := isBreak_of_isBreakOut hsafe.2
  cases hspace : isSpace c with
  | true => exact ⟨acc, c :: spaces, rfl, quotedFrom_space hspace hline⟩
  | false =>
    refine ⟨c :: (spaces ++ acc), [], rfl, ?_⟩
    rw [List.singleton_append, quotedFrom_char hspace hline hp]
    cases single with
    | true =>
      have hne : c ≠ '\'' := hquote
      simp [hne, Position.behind, Gap.spaced, Gap.none]
    | false =>
      have hne : c ≠ '"' := hquote
      simp [hne, hescape rfl, Position.behind, Gap.spaced, Gap.none]

/-- Two single quotes stand for one. -/
theorem standsFor_twoQuotes : StandsFor true ['\'', '\''] ['\''] := by
  refine ⟨Safe.cons (by decide) (Safe.cons (by decide) Safe.nil), fun acc spaces p rest hp => ?_⟩
  refine ⟨'\'' :: (spaces ++ acc), [], rfl, ?_⟩
  rw [List.cons_append, quotedFrom_char (by decide) (by decide) hp]
  rfl

/-- The text between single quotes. -/
theorem standsFor_single (hprint : ∀ c ∈ s, isPrintable c = true) (hline : OneLine s) :
    StandsFor true (s.flatMap fun c => if c = '\'' then ['\'', '\''] else [c]) s := by
  refine StandsFor.flatMap fun c hc => ?_
  by_cases hquote : c = '\''
  · rw [if_pos hquote, hquote]
    exact standsFor_twoQuotes
  · rw [if_neg hquote]
    exact standsFor_self (safe_of_isBreak (hprint c hc) (hline c hc)) hquote (fun h => by cases h)

/-! ### Escapes -/

theorem quotedFrom_backslash (hp : 0 < p.column) :
    quotedFrom false .text acc (.spaced spaces) p ('\\' :: rest) =
      quotedFrom false .escape (spaces ++ acc) .none (p.after '\\') rest := by
  rw [quotedFrom_char (by decide) (by decide) hp]
  rfl

theorem exists_of_accumulate_cons {value n : Nat}
    (h : accumulate 16 value (c :: s) = some n) :
    ∃ d, hexValue? c = some d ∧ accumulate 16 (value * 16 + d) s = some n := by
  cases hc : Document.digitIn 16 c with
  | none =>
    have hnone (t : Text) : t.foldl (fun n c => n.bind fun n => (Document.digitIn 16 c).map
        fun d => n * 16 + d) none = none := by
      induction t with
      | nil => rfl
      | cons _ _ ih => exact ih
    simp [accumulate, hc, hnone] at h
  | some d =>
    refine ⟨d, ?_, by rwa [Document.accumulate_cons hc] at h⟩
    obtain ⟨hd, -⟩ := Option.filter_eq_some_iff.mp hc
    exact hd

/-- The digits of an escape are read as the character of their value. -/
theorem quotedFrom_digits {value n : Nat} (hne : s ≠ []) (h : accumulate 16 value s = some n)
    (hc : charOf? n = some c) :
    quotedFrom single (.hex s.length value) acc gap p (s ++ rest) =
      quotedFrom single .text (c :: acc) gap (p.behind s) rest := by
  induction s generalizing value p with
  | nil => exact absurd rfl hne
  | cons digit s ih =>
    obtain ⟨d, hd, hrest⟩ := exists_of_accumulate_cons h
    rw [List.cons_append, quotedFrom]
    simp only [hd]
    cases s with
    | nil =>
      obtain rfl : value * 16 + d = n := Option.some.inj hrest
      simp only [List.length_singleton, Nat.le_refl, if_true, hc]
      rfl
    | cons digit' s =>
      have hmany : ¬ (digit :: digit' :: s).length ≤ 1 := by simp
      rw [if_neg hmany]
      exact ih (List.cons_ne_nil _ _) hrest

theorem charOf?_toNat (c : Char) : charOf? c.toNat = some c := by
  have hvalid : c.toNat.isValidChar := c.valid
  simp [charOf?, hvalid]

theorem safe_of_range (h : 48 ≤ c.toNat ∧ c.toNat ≤ 102) :
    isPrintable c = true ∧ isBreakOut c = false := by
  have hprint : isPrintable c = true := by
    have hlow : 0x20 ≤ c.toNat ∧ c.toNat ≤ 0x7E := by omega
    simp [isPrintable, hlow]
  refine safe_of_isBreak hprint ?_
  have hne {b : Char} (hb : b.toNat < 48 ∨ 102 < b.toNat) : c ≠ b := by
    rintro rfl
    omega
  simp [isBreak, hne (b := '\n') (by decide), hne (b := '\u2028') (by decide),
    hne (b := '\u2029') (by decide)]

/-- A hexadecimal digit is written as it is. -/
theorem safe_of_hexValue? {d : Nat} (h : hexValue? c = some d) :
    isPrintable c = true ∧ isBreakOut c = false := by
  have hrange : 48 ≤ c.toNat ∧ c.toNat ≤ 102 := by
    unfold hexValue? at h
    split at h
    · rename_i hc
      have h0 : '0'.toNat ≤ c.toNat := hc.1
      have h9 : c.toNat ≤ '9'.toNat := hc.2
      exact ⟨h0, Nat.le_trans h9 (by decide)⟩
    split at h
    · rename_i hc
      have ha : 'a'.toNat ≤ c.toNat := hc.1
      have hf : c.toNat ≤ 'f'.toNat := hc.2
      exact ⟨Nat.le_trans (by decide) ha, hf⟩
    split at h
    · rename_i hc
      have ha : 'A'.toNat ≤ c.toNat := hc.1
      have hf : c.toNat ≤ 'F'.toNat := hc.2
      exact ⟨Nat.le_trans (by decide) ha, Nat.le_trans hf (by decide)⟩
    · cases h
  exact safe_of_range hrange

theorem safe_of_accumulate {value n : Nat} (h : accumulate 16 value s = some n) : Safe s := by
  induction s generalizing value with
  | nil => exact Safe.nil
  | cons c s ih =>
    obtain ⟨d, hd, hrest⟩ := exists_of_accumulate_cons h
    exact Safe.cons (safe_of_hexValue? hd) (ih hrest)

theorem of_lookup {f : Char × Char → Bool} {pairs : List (Char × Char)} {a b : Char}
    (hall : pairs.all f = true) (h : pairs.lookup a = some b) : f (a, b) = true := by
  obtain ⟨before, behind, rfl, -⟩ := List.lookup_eq_some_iff.mp h
  exact List.all_eq_true.mp hall _ (by simp)

/-- An escape by a letter. -/
theorem standsFor_letter {letter : Char} (h : escapeLetter c = some letter) :
    StandsFor false ['\\', letter] [c] := by
  obtain ⟨hescape, hwidth, hprint, hbreak⟩ : escapeOf letter = some c ∧ hexWidth letter = none ∧
      isPrintable letter = true ∧ isBreakOut letter = false := by
    unfold escapeLetter at h
    refine of_decide_eq_true (of_lookup (f := fun e => decide (escapeOf e.2 = some e.1 ∧
      hexWidth e.2 = none ∧ isPrintable e.2 = true ∧ isBreakOut e.2 = false)) ?_ h)
    decide
  refine ⟨Safe.cons (by decide) (Safe.cons ⟨hprint, hbreak⟩ Safe.nil),
    fun acc spaces p rest hp => ⟨c :: (spaces ++ acc), [], rfl, ?_⟩⟩
  rw [List.cons_append, quotedFrom_backslash hp, List.singleton_append, quotedFrom]
  simp only [isBreak_of_isBreakOut hbreak, Bool.false_eq_true, if_false, hwidth, hescape]
  rfl

/-- An escape by the digits of the character. -/
theorem standsFor_digits {letter : Char} {width : Nat} (hletter : hexWidth letter = some width)
    (hsafe : isPrintable letter = true ∧ isBreakOut letter = false) (hwidth : 0 < width)
    (hc : c.toNat < 16 ^ width) :
    StandsFor false ('\\' :: letter :: upperHex width c.toNat) [c] := by
  have hlength := length_upperHex hwidth hc
  have hvalue := accumulate_upperHex width c.toNat
  refine ⟨Safe.cons (by decide) (Safe.cons hsafe (safe_of_accumulate hvalue)),
    fun acc spaces p rest hp => ⟨c :: (spaces ++ acc), [], rfl, ?_⟩⟩
  have hne : upperHex width c.toNat ≠ [] := List.ne_nil_of_length_pos (by omega)
  have hread : quotedFrom false (.hex (upperHex width c.toNat).length 0) (spaces ++ acc) .none
        ((p.after '\\').after letter) (upperHex width c.toNat ++ rest) =
      quotedFrom false .text (c :: (spaces ++ acc)) .none
        (((p.after '\\').after letter).behind (upperHex width c.toNat)) rest :=
    quotedFrom_digits hne hvalue (charOf?_toNat c)
  rw [hlength] at hread
  rw [List.cons_append, quotedFrom_backslash hp, List.cons_append, quotedFrom]
  simp only [isBreak_of_isBreakOut hsafe.2, Bool.false_eq_true, if_false, hletter]
  exact hread

/-- What is written between double quotes for a character stands for it. -/
theorem standsFor_escapeOut (c : Char) : StandsFor false (escapeOut c) [c] := by
  unfold escapeOut
  split
  · rename_i h
    simp only [Bool.and_eq_true, Bool.not_eq_true', bne_iff_ne] at h
    exact standsFor_self h.1.1 h.1.2 (fun _ => h.2)
  · cases hletter : escapeLetter c with
    | some letter => exact standsFor_letter hletter
    | none =>
      have hvalid : c.toNat < 0x110000 := by
        rcases c.valid with h | ⟨-, h⟩
        · exact Nat.lt_trans h (by decide)
        · exact h
      dsimp only
      split
      · exact standsFor_digits rfl (by decide) (by decide) (by omega)
      · split
        · exact standsFor_digits rfl (by decide) (by decide) (by omega)
        · exact standsFor_digits rfl (by decide) (by decide) (by omega)

/-- A quoted scalar is read up to its closing quotation mark. -/
theorem StandsFor.quotedScalar {w : Text} (h : StandsFor single w s) (hp : 0 < p.column)
    (more : Text) :
    quotedScalar single p (w ++ quoteMark single :: '\n' :: more) =
      .ok ⟨s, (p.behind w).after (quoteMark single), '\n' :: more⟩ := by
  obtain ⟨acc, spaces, hcontent, hread⟩ :=
    h.read [] [] p (quoteMark single :: '\n' :: more) hp
  have hp' := Position.column_behind_pos hp h.safe.oneLine
  have hreverse : (spaces ++ acc).reverse = s := by simp [hcontent]
  refine hread.trans ?_
  rw [← hreverse]
  cases single with
  | true =>
    refine (quotedFrom_char (by decide) (by decide) hp').trans ?_
    rfl
  | false =>
    refine (quotedFrom_char (by decide) (by decide) hp').trans ?_
    rfl

end Quoted

/-! ## Forms of a scalar -/

/-- The form `w` of a scalar with the given content; the flag tells whether it is a plain one. -/
inductive Written : Text → Text → Bool → Prop where
  | plain {s : Text} (h : IsPlain s) : Written s s true
  | quoted {single : Bool} {w s : Text} (h : StandsFor single w s) :
    Written (quoteMark single :: (w ++ [quoteMark single])) s false

theorem Written.safe {w s : Text} {plain : Bool} (h : Written w s plain) : Safe w := by
  cases h with
  | plain h => exact h.safe
  | @quoted single w s h =>
    have hmark : isPrintable (quoteMark single) = true ∧ isBreakOut (quoteMark single) = false := by
      cases single <;> decide
    exact Safe.cons hmark (h.safe.append (Safe.cons hmark Safe.nil))

theorem IsPlain.quotable {s : Text} (h : IsPlain s) : quotable s = true := by
  have hgap {t : Text} (ht : Safe t) : hasSpaceBeforeBreak t = false := by
    induction t with
    | nil => rfl
    | cons c t ih =>
      obtain ⟨-, ht⟩ := List.forall_mem_cons.mp ht
      cases t with
      | nil => rfl
      | cons d t => simp [hasSpaceBeforeBreak, (ht d List.mem_cons_self).2, ih ht]
  simp only [Yaml.quotable, hgap h.safe, Bool.not_false, Bool.and_true, List.all_eq_true]
  exact fun c hc => (h.safe c hc).1

/-- Every text on one line is written in a form with this content. -/
theorem written_writeText {s : Text} (h : OneLine s) (indent : Nat) :
    Written (writeText indent s) s (plainable s && !looksTyped s) := by
  have hline : s.contains '\n' = false := by
    rw [Bool.eq_false_iff, Ne, List.contains_iff_mem]
    exact fun hmem => absurd (h _ hmem) (by decide)
  rw [writeText, hline]
  simp only [Bool.false_eq_true, if_false]
  split
  · rename_i hquotable
    have hplain : plainable s = false := by
      rw [Bool.eq_false_iff]
      intro hplain
      rw [(plainable_iff.mp hplain).quotable, Bool.not_true, Bool.and_false] at hquotable
      cases hquotable
    rw [hplain]
    have hdouble : StandsFor false (s.flatMap escapeOut) s :=
      StandsFor.flatMap fun c _ => standsFor_escapeOut c
    exact .quoted hdouble
  · rename_i hquotable
    have hprint : ∀ c ∈ s, isPrintable c = true := by
      by_cases hempty : s = []
      · rw [hempty]
        exact fun _ hc => absurd hc List.not_mem_nil
      · have hall : quotable s = true := by simpa [hempty] using hquotable
        simp only [quotable, Bool.and_eq_true, List.all_eq_true] at hall
        exact hall.1
    cases hplain : plainable s && !looksTyped s with
    | true =>
      obtain ⟨hplainable, htyped⟩ := (Bool.and_eq_true _ _).mp hplain
      rw [if_neg (by simp [hplainable, (Bool.not_eq_true' _).mp htyped])]
      exact .plain (plainable_iff.mp hplainable)
    | false =>
      rw [if_pos (by
        rw [Bool.and_eq_false_iff, Bool.not_eq_false'] at hplain
        rcases hplain with hplain | hplain <;> simp [hplain])]
      exact .quoted (standsFor_single hprint h)

theorem hasStop_of_not_mem {s : Text} (hcolon : ':' ∉ s) (hhash : '#' ∉ s)
    (previous : Option Char) : hasStop previous s = false := by
  induction s generalizing previous with
  | nil => rfl
  | cons c s ih =>
    simp only [List.mem_cons, not_or] at hcolon hhash
    simp [hasStop, Ne.symm hcolon.1, Ne.symm hhash.1, ih hcolon.2 hhash.2]

/-- A decimal numeral is a plain scalar. -/
theorem isPlain_decimal (n : Nat) : IsPlain (Text.decimal n) := by
  have hmem {c : Char} (hc : c.isDigit = false) : c ∉ Text.decimal n := Document.not_mem_decimal hc
  have hhead {c : Char} (hc : c.isDigit = false) : (Text.decimal n).head? ≠ some c :=
    fun h => hmem hc (List.mem_of_head? h)
  obtain ⟨c, s, hs⟩ := List.exists_cons_of_ne_nil (Document.decimal_ne_nil n)
  have hc : c.isDigit = true := Document.isDigit_of_mem_decimal (hs ▸ List.mem_cons_self)
  have hne {d : Char} (hd : d.isDigit = false) : c ≠ d := by
    rintro rfl
    rw [hc] at hd
    cases hd
  refine ⟨Document.decimal_ne_nil n, fun d hd => ?_, hhead rfl, ?_, ?_, ?_, ?_⟩
  · have hd : d.isDigit = true := Document.isDigit_of_mem_decimal hd
    simp only [Char.isDigit, Bool.and_eq_true, decide_eq_true_eq] at hd
    have hlow : 48 ≤ d.toNat := hd.1
    have hhigh : d.toNat ≤ 57 := hd.2
    exact safe_of_range (by omega)
  · exact fun h => hmem (c := ' ') rfl (List.mem_of_getLast? h)
  · have hdash : c ≠ '-' := hne rfl
    have hdot : c ≠ '.' := hne rfl
    simp [hs, startsWithMark, List.isPrefixOf, Ne.symm hdash, Ne.symm hdot]
  · have hindicators : (startIndicators.all fun d => !d.isDigit) = true := by decide
    have hindicator : c ∉ startIndicators := fun hmem =>
      hne (by simpa using List.all_eq_true.mp hindicators c hmem) rfl
    simp [hs, startsSpecial, hindicator, hne (d := '?') rfl, hne (d := ':') rfl,
      hne (d := '-') rfl]
  · exact hasStop_of_not_mem (hmem rfl) (hmem rfl) none

/-! ## Values -/

/-- The content of a scalar. -/
def contentOf : Scalar → Text
  | .null => "null".toList
  | .flag b => flagText b
  | .number n => Text.decimal n
  | .text s => s

/-- The scalar is written as a plain one. -/
def isWrittenPlain : Scalar → Bool
  | .text s => plainable s && !looksTyped s
  | _ => true

/-- A value that is written on one line. -/
def IsLine (v : Scalar) : Prop := ∀ s, v = .text s → OneLine s

theorem written_writeScalar {v : Scalar} (h : IsLine v) (indent : Nat) :
    Written (writeScalar indent v) (contentOf v) (isWrittenPlain v) := by
  cases v with
  | null =>
    have hplain : plainable "null".toList = true := by decide
    exact .plain (plainable_iff.mp hplain)
  | flag b =>
    have hplain : plainable (flagText b) = true := by cases b <;> decide
    exact .plain (plainable_iff.mp hplain)
  | number n => exact .plain (isPlain_decimal n)
  | text s => exact written_writeText (h s rfl) indent

end DumpConversion.Yaml
