import Mathlib.Data.List.Forall2
import Mathlib.Data.List.TakeWhile
import DumpConversion.Database.Statement
import DumpConversion.Text.Lines
import DumpConversion.Text.Occurrence

/-! # Reading tokens piece by piece

A script is put together from pieces, each of which gives its tokens whatever follows it, as long as
that does not go on with the last word, number or quote.

* `SqlToken.Lexes`: the tokens at the front of a text.
* `SqlToken.Lexes.unended`, `SqlToken.Lexes.ended`: the tokens of the first statement.
* `SqlToken.Reads`: a piece and its tokens. One lemma for each kind of token, and `Reads.append` to
  put pieces together.
* `SqlToken.ReadsLines`: the same for the lines of a script.
-/

namespace DumpConversion.SqlToken

set_option autoImplicit false

/-! ## Tokens of a text -/

/-- The tokens at the front of a text, step by step, and what follows them. -/
inductive Lexes : Text → List SqlToken → Text → Prop where
  | nil (s : Text) : Lexes s [] s
  | gap {c : Char} {s rest behind : Text} {ts : List SqlToken}
      (step : lexStep c s = some (none, rest)) (suffix : rest <:+ s)
      (tokens : Lexes rest ts behind) : Lexes (c :: s) ts behind
  | token {c : Char} {s rest behind : Text} {t : SqlToken} {ts : List SqlToken}
      (step : lexStep c s = some (some t, rest)) (suffix : rest <:+ s)
      (tokens : Lexes rest ts behind) : Lexes (c :: s) (t :: ts) behind

section

variable {c : Char} {s rest behind behind' : Text} {t : SqlToken} {ts us : List SqlToken} {fuel : Nat}

theorem Lexes.trans (h : Lexes s ts behind) (h' : Lexes behind us behind') :
    Lexes s (ts ++ us) behind' := by
  induction h with
  | nil => exact h'
  | gap hstep hsuffix _ ih => exact .gap hstep hsuffix (ih h')
  | token hstep hsuffix _ ih => exact .token hstep hsuffix (ih h')

theorem lexStatementUpTo_gap (h : lexStep c s = some (none, rest)) (fuel : Nat) :
    lexStatementUpTo (fuel + 1) (c :: s) = lexStatementUpTo fuel rest := by
  simp only [lexStatementUpTo, h]

theorem lexStatementUpTo_token (h : lexStep c s = some (some t, rest)) (ht : statementEnd ≠ t)
    (fuel : Nat) : lexStatementUpTo (fuel + 1) (c :: s) =
      (lexStatementUpTo fuel rest).map fun r => (t :: r.1, r.2) := by
  simp only [lexStatementUpTo, h, if_neg ht.symm]

theorem exists_fuel (hrest : rest <:+ s) (h : (c :: s).length ≤ fuel) :
    ∃ k, fuel = k + 1 ∧ rest.length ≤ k :=
  ⟨fuel - 1, by rw [List.length_cons] at h; omega,
    hrest.length_le.trans (by rw [List.length_cons] at h; omega)⟩

/-- Without a semicolon all tokens belong to one statement, which goes on behind them. -/
theorem Lexes.exists_fuel (h : Lexes s ts behind) (hfree : statementEnd ∉ ts)
    (hfuel : s.length ≤ fuel) : ∃ k, behind.length ≤ k ∧
      lexStatementUpTo fuel s = (lexStatementUpTo k behind).map fun r => (ts ++ r.1, r.2) := by
  induction h generalizing fuel with
  | nil s => exact ⟨fuel, hfuel, Option.map_id'.symm⟩
  | gap hstep hsuffix _ ih =>
    obtain ⟨fuel, rfl, hrest⟩ := SqlToken.exists_fuel hsuffix hfuel
    rw [lexStatementUpTo_gap hstep]
    exact ih hfree hrest
  | token hstep hsuffix _ ih =>
    obtain ⟨hend, hfree⟩ := List.ne_and_not_mem_of_not_mem_cons hfree
    obtain ⟨fuel, rfl, hrest⟩ := SqlToken.exists_fuel hsuffix hfuel
    obtain ⟨k, hk, htokens⟩ := ih hfree hrest
    refine ⟨k, hk, ?_⟩
    rw [lexStatementUpTo_token hstep hend, htokens, Option.map_map]
    rfl

theorem nulFree_blank {blank : Text} (h : ∀ c ∈ blank, isSqlBlank c = true) : '\x00' ∉ blank :=
  fun hmem => absurd (h _ hmem) (by decide)

theorem lexes_blank {blank : Text} (h : ∀ c ∈ blank, isSqlBlank c = true) (s : Text) :
    Lexes (blank ++ s) [] s := by
  induction blank with
  | nil => exact .nil s
  | cons c blank ih =>
    obtain ⟨hc, hblank⟩ := List.forall_mem_cons.mp h
    exact .gap (if_pos hc) List.suffix_rfl (ih hblank)

/-- The text may end in the middle of a statement. -/
theorem Lexes.unended (h : Lexes s ts []) (hfree : statementEnd ∉ ts) (hfuel : s.length ≤ fuel) :
    lexStatementUpTo fuel s = some (ts, []) := by
  obtain ⟨k, -, htokens⟩ := h.exists_fuel hfree hfuel
  have hnone : lexStatementUpTo k [] = some ([], []) := by cases k <;> rfl
  rw [htokens, hnone, Option.map_some, List.append_nil]

/-- A semicolon ends the statement, whatever follows it. -/
theorem Lexes.ended (h : Lexes s ts (';' :: behind)) (hfree : statementEnd ∉ ts)
    (hfuel : s.length ≤ fuel) : lexStatementUpTo fuel s = some (ts, behind) := by
  obtain ⟨k, hk, htokens⟩ := h.exists_fuel hfree hfuel
  obtain ⟨k, rfl, -⟩ := SqlToken.exists_fuel List.suffix_rfl hk
  have hend : lexStatementUpTo (k + 1) (';' :: behind) = some ([], behind) := rfl
  rw [htokens, hend, Option.map_some, List.append_nil]

end

theorem untilNul_eq_self {script : Text} (h : '\x00' ∉ script) : untilNul script = script := by
  refine List.takeWhile_eq_self_iff.mpr fun c hc => bne_iff_ne.mpr ?_
  rintro rfl
  exact h hc

theorem untilNul_append {s : Text} (h : '\x00' ∉ s) (rest : Text) :
    untilNul (s ++ rest) = s ++ untilNul rest := by
  refine List.takeWhile_append_of_pos fun c hc => bne_iff_ne.mpr ?_
  rintro rfl
  exact h hc

/-- The characters that may follow a word, a number or a quote. -/
def breaks : Text := " \r\n(),;".toList

theorem breaks_apart : breaks.all (fun c =>
    !isWordPart c && !isNumberPart c && c != '\'' && c != '"' && c != 'e' && c != 'E') = true := by
  decide

/-- The text is empty or begins with a break. -/
def BeginsApart (s : Text) : Prop := ∀ c ∈ s.head?, c ∈ breaks

theorem beginsApart_cons {c : Char} (h : c ∈ breaks) (s : Text) : BeginsApart (c :: s) := by
  intro d hd
  cases hd
  exact h

theorem BeginsApart.head? {s : Text} (h : BeginsApart s) {p : Char → Bool}
    (hp : breaks.all (fun c => !p c) = true) : s.head?.any p = false := by
  cases s with
  | nil => rfl
  | cons c s => simpa using List.all_eq_true.mp hp c (h c rfl)

theorem BeginsApart.takeWhile_append {s : Text} (h : BeginsApart s) {p : Char → Bool}
    (hp : breaks.all (fun c => !p c) = true) {w : Text} (hw : ∀ c ∈ w, p c = true) :
    (w ++ s).takeWhile p = w ∧ (w ++ s).dropWhile p = s := by
  rw [List.takeWhile_append_of_pos hw, List.dropWhile_append_of_pos hw]
  cases s with
  | nil => exact ⟨List.append_nil w, rfl⟩
  | cons c s =>
    have hc : ¬ p c = true := by simpa using List.all_eq_true.mp hp c (h c rfl)
    rw [List.takeWhile_cons_of_neg hc, List.dropWhile_cons_of_neg hc, List.append_nil]
    exact ⟨rfl, rfl⟩

/-! ## Pieces -/

/-- Before anything that begins apart, the piece gives these tokens, and it does not end the
script. -/
structure Reads (piece : Text) (ts : List SqlToken) : Prop where
  nulFree : '\x00' ∉ piece
  before : ∀ rest, BeginsApart rest → Lexes (piece ++ rest) ts rest

namespace Reads

variable {a b : Text} {ts us : List SqlToken} {c : Char}

theorem lexStatement (h : Reads a ts) (hfree : statementEnd ∉ ts) :
    lexStatement a = some (ts, []) := by
  have hlexes := h.before [] fun _ hc => by cases hc
  rw [List.append_nil] at hlexes
  rw [SqlToken.lexStatement, untilNul_eq_self h.nulFree]
  exact hlexes.unended hfree (Nat.le_refl a.length)

theorem nil : Reads [] [] := ⟨List.not_mem_nil, fun rest _ => .nil rest⟩

theorem append (ha : Reads a ts) (hb : Reads b us) (h : BeginsApart b) :
    Reads (a ++ b) (ts ++ us) := by
  refine ⟨by simp [ha.nulFree, hb.nulFree], fun rest hrest => ?_⟩
  have hbreak : BeginsApart (b ++ rest) := by
    cases b with
    | nil => exact hrest
    | cons c b => exact beginsApart_cons (h c rfl) (b ++ rest)
  rw [List.append_assoc]
  exact (ha.before _ hbreak).trans (hb.before rest hrest)

/-- A token that a step of the reader takes off the front. -/
theorem of_step {w : Text} {t : SqlToken} (hnul : '\x00' ∉ c :: w)
    (h : ∀ rest, BeginsApart rest → lexStep c (w ++ rest) = some (some t, rest)) :
    Reads (c :: w) [t] :=
  ⟨hnul, fun rest hrest => .token (h rest hrest) (List.suffix_append w rest) (.nil rest)⟩

theorem nulFree_cons (hc : c ≠ '\x00') (h : Reads b us) : '\x00' ∉ c :: b :=
  List.not_mem_cons_of_ne_of_not_mem hc.symm h.nulFree

theorem blank_cons (hc : isSqlBlank c = true) (h : Reads b us) : Reads (c :: b) us := by
  have hnul : c ≠ '\x00' := by
    rintro rfl
    cases hc
  refine ⟨nulFree_cons hnul h, fun rest hrest => ?_⟩
  exact .gap (if_pos hc) List.suffix_rfl (h.before rest hrest)

/-- A blank keeps two pieces apart. -/
theorem spaced (ha : Reads a ts) (hb : Reads b us) : Reads (a ++ ' ' :: b) (ts ++ us) :=
  ha.append (.blank_cons rfl hb) (beginsApart_cons (by decide) b)

/-- The symbols that stand for themselves before anything. -/
def symbols : Text := "(),;*".toList

theorem symbol_cons (hc : c ∈ symbols) (h : Reads b us) : Reads (c :: b) (.symbol c :: us) := by
  have hnul : c ≠ '\x00' := by
    rintro rfl
    exact absurd hc (by decide)
  have hstep (s : Text) : lexStep c s = some (some (.symbol c), s) := by
    have hcases : c = '(' ∨ c = ')' ∨ c = ',' ∨ c = ';' ∨ c = '*' := by simpa [symbols] using hc
    rcases hcases with rfl | rfl | rfl | rfl | rfl <;> rfl
  exact ⟨nulFree_cons hnul h, fun rest hrest =>
    .token (hstep _) List.suffix_rfl (h.before rest hrest)⟩

/-! ## Words and numbers -/

def startLetters : Text := "ABCDEFGHIJKLMNOPQRSTUVWXYZabcdefghijklmnopqrstuvwxyz_".toList

theorem startLetters_apart : startLetters.all (fun c => !isSqlBlank c && c != '-' && c != '/' &&
    c != '\'' && c != '"' && c != '\x60' && !c.isDigit && c != '.' && isWordPart c) = true := by
  decide

theorem lexStep_word (hc : c ∈ startLetters) (s : Text) :
    lexStep c s = some (some (.word ((c :: s).takeWhile isWordPart)),
      (c :: s).dropWhile isWordPart) := by
  have h := List.all_eq_true.mp startLetters_apart c hc
  simp only [Bool.and_eq_true, Bool.not_eq_true', bne_iff_ne] at h
  obtain ⟨⟨⟨⟨⟨⟨⟨⟨hblank, hminus⟩, hslash⟩, hquote⟩, hdouble⟩, hback⟩, hdigit⟩, hpoint⟩, hword⟩ := h
  simp [lexStep, hblank, hminus, hslash, hquote, hdouble, hback, hdigit, hpoint, hword]

theorem word {w : Text} (h : (w.head?.any (· ∈ startLetters) && w.all isWordPart) = true) :
    Reads w [.word w] := by
  obtain ⟨hfirst, hw⟩ := Bool.and_eq_true_iff.mp h
  obtain ⟨c, w, rfl⟩ : ∃ c s, w = c :: s := by
    cases w with
    | nil => cases hfirst
    | cons c s => exact ⟨c, s, rfl⟩
  have hnul : '\x00' ∉ c :: w := fun h => absurd (List.all_eq_true.mp hw _ h) (by decide)
  refine of_step hnul fun rest hrest => ?_
  obtain ⟨htake, hdrop⟩ :=
    hrest.takeWhile_append (p := isWordPart) (by decide) (List.all_eq_true.mp hw)
  rw [List.cons_append] at htake hdrop
  rw [lexStep_word (of_decide_eq_true hfirst), htake, hdrop]

theorem readExponent_of_beginsApart {s : Text} (h : BeginsApart s) : readExponent s = ([], s) := by
  have hexponent : ∀ e ∈ s.head?, ¬ (e = 'e' ∨ e = 'E') := by
    intro e he hcases
    have hbreak := List.all_eq_true.mp breaks_apart e (h e he)
    rcases hcases with rfl | rfl <;> exact absurd hbreak (by decide)
  match s with
  | [] => rfl
  | [_] => rfl
  | [e, d] =>
    have he := hexponent e rfl
    simp [readExponent, he]
  | e :: d :: f :: rest =>
    have he := hexponent e rfl
    simp [readExponent, he]

theorem isDigit_apart (hc : c.isDigit = true) :
    isSqlBlank c = false ∧ c ≠ '-' ∧ c ≠ '/' ∧ c ≠ '\'' ∧ c ≠ '"' ∧ c ≠ '\x60' := by
  have hne : ∀ d : Char, d.isDigit = false → c ≠ d := by
    rintro d hd rfl
    rw [hc] at hd
    cases hd
  refine ⟨?_, hne _ (by decide), hne _ (by decide), hne _ (by decide), hne _ (by decide),
    hne _ (by decide)⟩
  simp [isSqlBlank, hne ' ' (by decide), hne '\t' (by decide), hne '\n' (by decide),
    hne '\x0C' (by decide), hne '\r' (by decide), hne '\uFEFF' (by decide)]

theorem lexStep_digit (hc : c.isDigit = true) (s : Text) :
    lexStep c s =
      let digits := (c :: s).takeWhile isNumberPart
      let r := readExponent ((c :: s).dropWhile isNumberPart)
      if isNumber digits && !r.2.head?.any isWordPart then some (some (.number (digits ++ r.1)), r.2)
      else none := by
  obtain ⟨hblank, hminus, hslash, hquote, hdouble, hback⟩ := isDigit_apart hc
  simp [lexStep, hblank, hminus, hslash, hquote, hdouble, hback, hc]

theorem number {written : Text} (hfirst : written.head?.any Char.isDigit = true)
    (hparts : ∀ c ∈ written, isNumberPart c = true) (hnumber : isNumber written = true) :
    Reads written [.number written] := by
  obtain ⟨c, s, rfl⟩ : ∃ c s, written = c :: s := by
    cases written with
    | nil => cases hfirst
    | cons c s => exact ⟨c, s, rfl⟩
  have hnul : '\x00' ∉ c :: s := fun h => absurd (hparts _ h) (by decide)
  refine of_step hnul fun rest hrest => ?_
  obtain ⟨htake, hdrop⟩ := hrest.takeWhile_append (p := isNumberPart) (by decide) hparts
  rw [List.cons_append] at htake hdrop
  rw [lexStep_digit hfirst]
  simp only [htake, hdrop, readExponent_of_beginsApart hrest, hnumber,
    hrest.head? (p := isWordPart) (by decide), List.append_nil, Bool.not_false, Bool.and_self,
    if_true]

/-- A minus is a symbol before a number. -/
theorem minus_cons (h : Reads b us) (hb : b.head?.any Char.isDigit = true) :
    Reads ('-' :: b) (.symbol '-' :: us) := by
  obtain ⟨c, b, rfl⟩ : ∃ c s, b = c :: s := by
    cases b with
    | nil => cases hb
    | cons c s => exact ⟨c, s, rfl⟩
  have hc : c ≠ '-' := (isDigit_apart hb).2.1
  refine ⟨nulFree_cons (by decide) h, fun rest hrest => ?_⟩
  have hstep : lexStep '-' (c :: b ++ rest) = some (some (.symbol '-'), c :: b ++ rest) := by
    simp [lexStep, hc, isSqlBlank, isWordPart]
  exact .token hstep List.suffix_rfl (h.before rest hrest)

/-! ## Quotes -/

theorem readQuoted_other {q : Char} (hc : c ≠ q) (s : Text) :
    readQuoted q (c :: s) = (readQuoted q s).map fun r => (c :: r.1, r.2) := by
  cases s with
  | nil => simp [readQuoted, hc]
  | cons d s => rw [readQuoted, if_neg hc]

theorem readQuoted_pair (q : Char) (s : Text) :
    readQuoted q (q :: q :: s) = (readQuoted q s).map fun r => (q :: r.1, r.2) := by
  rw [readQuoted, if_pos rfl, if_pos rfl]

theorem readQuoted_end {q : Char} {s : Text} (h : s.head? ≠ some q) :
    readQuoted q (q :: s) = some ([], s) := by
  cases s with
  | nil => rw [readQuoted, if_pos rfl]
  | cons d s =>
    have hd : d ≠ q := fun hd => h (by rw [hd]; rfl)
    rw [readQuoted, if_pos rfl, if_neg hd]

theorem readQuoted_append {q : Char} {n s : Text} (hn : q ∉ n) (hs : s.head? ≠ some q) :
    readQuoted q (n ++ q :: s) = some (n, s) := by
  induction n with
  | nil => exact readQuoted_end hs
  | cons c n ih =>
    obtain ⟨hc, hn⟩ := not_or.mp (List.mem_cons.not.mp hn)
    rw [List.cons_append, readQuoted_other (Ne.symm hc), ih hn]
    rfl

theorem BeginsApart.head?_ne {s : Text} (h : BeginsApart s) {q : Char} (hq : q ∉ breaks) :
    s.head? ≠ some q := fun hs => hq (h q hs)

/-- Every quote that is replaced by a pair of quotes is read as one quote again. -/
theorem readQuoted_replaceAll {q : Char} (n : Text) {s : Text} (hs : s.head? ≠ some q) :
    readQuoted q ((Text.replaceAll [q] [q, q] n).1 ++ q :: s) = some (n, s) := by
  induction n with
  | nil => exact readQuoted_end hs
  | cons c n ih =>
    rw [Text.replaceAll_char_cons, List.append_assoc]
    by_cases hc : c = q
    · have hpair := readQuoted_pair q ((Text.replaceAll [q] [q, q] n).1 ++ q :: s)
      rw [if_pos hc, hc]
      rw [ih] at hpair
      exact hpair
    · rw [if_neg hc, List.singleton_append, readQuoted_other hc, ih]
      rfl

/-- The characters of a text whose quotes are replaced by pairs of quotes. -/
theorem mem_replaceAll {q c : Char} {n : Text} (h : c ∈ (Text.replaceAll [q] [q, q] n).1) :
    c = q ∨ c ∈ n := by
  induction n with
  | nil => cases h
  | cons d n ih =>
    rw [Text.replaceAll_char_cons] at h
    rcases List.mem_append.mp h with hd | hn
    · split at hd
      · exact .inl (by simpa using hd)
      · exact .inr (List.mem_cons.mpr (.inl (List.mem_singleton.mp hd)))
    · exact (ih hn).imp_right (List.mem_cons_of_mem d)

theorem nulFree_quoted {q : Char} {e : Text} (hq : q ≠ '\x00') (he : '\x00' ∉ e) :
    '\x00' ∉ q :: (e ++ [q]) := by
  simp [he, hq.symm]

theorem nulFree_replaceAll {q : Char} {n : Text} (hq : q ≠ '\x00') (hn : '\x00' ∉ n) :
    '\x00' ∉ (Text.replaceAll [q] [q, q] n).1 :=
  fun h => (mem_replaceAll h).elim hq.symm hn

theorem name_of {e n : Text} (he : '\x00' ∉ e)
    (h : ∀ rest : Text, rest.head? ≠ some '"' →
      readQuoted '"' (e ++ '"' :: rest) = some (n, rest)) :
    Reads ('"' :: (e ++ ['"'])) [.name n] := by
  refine of_step (nulFree_quoted (by decide) he) fun rest hrest => ?_
  have hquoted := h rest (BeginsApart.head?_ne hrest (by decide))
  rw [List.append_assoc, List.singleton_append]
  simp [lexStep, isSqlBlank, hquoted]

theorem name {n : Text} (hnul : '\x00' ∉ n) (hn : '"' ∉ n) :
    Reads ('"' :: (n ++ ['"'])) [.name n] :=
  name_of hnul fun _ hrest => readQuoted_append hn hrest

theorem text {e s : Text} (he : '\x00' ∉ e)
    (h : ∀ rest : Text, rest.head? ≠ some '\'' →
      readQuoted '\'' (e ++ '\'' :: rest) = some (s, rest)) :
    Reads ('\'' :: (e ++ ['\''])) [.text s] := by
  refine of_step (nulFree_quoted (by decide) he) fun rest hrest => ?_
  have hquoted := h rest (BeginsApart.head?_ne hrest (by decide))
  rw [List.append_assoc, List.singleton_append]
  simp [lexStep, isSqlBlank, hquoted]

end Reads

/-! ## Lines -/

/-- Lines that give the tokens one after the other. -/
def ReadsLines (lines : List Text) (ts : List SqlToken) : Prop :=
  ∃ tss, List.Forall₂ Reads lines tss ∧ tss.flatten = ts

namespace ReadsLines

variable {ls ls' : List Text} {l : Text} {ts us : List SqlToken}

theorem nil : ReadsLines [] [] := ⟨[], .nil, rfl⟩

theorem cons (h : Reads l ts) (hs : ReadsLines ls us) : ReadsLines (l :: ls) (ts ++ us) := by
  obtain ⟨tss, htss, rfl⟩ := hs
  exact ⟨ts :: tss, .cons h htss, rfl⟩

theorem singleton (h : Reads l ts) : ReadsLines [l] ts :=
  ⟨[ts], .cons h .nil, List.flatten_singleton⟩

theorem append (h : ReadsLines ls ts) (h' : ReadsLines ls' us) :
    ReadsLines (ls ++ ls') (ts ++ us) := by
  obtain ⟨tss, htss, rfl⟩ := h
  obtain ⟨uss, huss, rfl⟩ := h'
  exact ⟨tss ++ uss, List.rel_append htss huss, List.flatten_append⟩

/-- A line ending separates tokens as a blank does. -/
theorem joinWith (h : ReadsLines ls ts) (e : LineEnding) :
    Reads (Text.joinWith e.separator ls) ts := by
  obtain ⟨tss, htss, rfl⟩ := h
  induction htss with
  | nil => exact .nil
  | @cons l ts ls tss hl hls ih =>
    cases ls with
    | nil =>
      cases hls
      simpa [Text.joinWith] using hl
    | cons next ls =>
      rw [Text.joinWith_cons (List.cons_ne_nil next ls), List.append_assoc, List.flatten_cons]
      cases e with
      | lf => exact hl.append (.blank_cons rfl ih) (beginsApart_cons (by decide) _)
      | crlf =>
        exact hl.append (.blank_cons rfl (.blank_cons rfl ih)) (beginsApart_cons (by decide) _)

end ReadsLines

end DumpConversion.SqlToken
