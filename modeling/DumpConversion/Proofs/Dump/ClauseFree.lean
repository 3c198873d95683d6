import DumpConversion.Proofs.Dump.ClauseShape

/-! # What the removal of clauses leaves

A line is cut at its clauses and the pieces between them are put together. What follows a clause
begins with a blank or a delimiter, so no word can grow together at a cut.

* `Clause.FirstCut`, `Clause.stripFrom_induction`: the removal goes from cut to cut.
* `Clause.infix_of_infix_strip`: a word of name characters on the remaining line was on the line.
* `Clause.rest?_isSome`: what is enough for a clause to be found.
-/

namespace DumpConversion.Clause

set_option autoImplicit false

/-! ## Characters before a piece -/

/-- The character before what follows `a`, when `previous` stands before `a`. -/
def charBefore (previous : Option Char) (a : Text) : Option Char := a.getLast?.or previous

@[simp] theorem charBefore_nil (p : Option Char) : charBefore p [] = p := rfl

@[simp] theorem charBefore_cons (p : Option Char) (c : Char) (a : Text) :
    charBefore p (c :: a) = charBefore (some c) a := by
  unfold charBefore
  rw [List.getLast?_cons]
  cases a.getLast? with
  | none => rfl
  | some d => rfl

theorem charBefore_append (p : Option Char) (a b : Text) :
    charBefore p (a ++ b) = charBefore (charBefore p a) b := by
  induction a generalizing p with
  | nil => rfl
  | cons c a ih => rw [List.cons_append, charBefore_cons, charBefore_cons, ih]

/-! ## Occurrences by position -/

theorem occursAfter_eq_false_iff {k : Clause} {p : Option Char} {s : Text} :
    k.occursAfter p s = false ↔
      ∀ x y, s = x ++ y → y ≠ [] → k.rest? (charBefore p x) y = none := by
  induction s generalizing p with
  | nil =>
    constructor
    · intro _ x y hxy hy
      exact absurd (List.append_eq_nil_iff.mp hxy.symm).2 hy
    · intro _
      rfl
  | cons c s ih =>
    rw [occursAfter, Bool.or_eq_false_iff, ih]
    constructor
    · rintro ⟨hhere, hlater⟩ x y hxy hy
      cases x with
      | nil =>
        rw [List.nil_append] at hxy
        subst hxy
        simpa using hhere
      | cons d x =>
        rw [List.cons_append, List.cons.injEq] at hxy
        obtain ⟨rfl, rfl⟩ := hxy
        rw [charBefore_cons]
        exact hlater x y rfl hy
    · intro h
      refine ⟨?_, fun x y hxy hy => ?_⟩
      · simpa using h [] (c :: s) rfl (by simp)
      · have h' := h (c :: x) y (by rw [hxy, List.cons_append]) hy
        rwa [charBefore_cons] at h'

theorem occursAfter_append_eq_false_iff {k : Clause} {p : Option Char} {a s : Text} :
    k.occursAfter p (a ++ s) = false ↔
      (∀ x y, a = x ++ y → y ≠ [] → k.rest? (charBefore p x) (y ++ s) = none) ∧
        k.occursAfter (charBefore p a) s = false := by
  induction a generalizing p with
  | nil =>
    constructor
    · intro h
      refine ⟨fun x y hxy hy => ?_, h⟩
      exact absurd (List.append_eq_nil_iff.mp hxy.symm).2 hy
    · exact fun h => h.2
  | cons c a ih =>
    rw [List.cons_append, occursAfter, Bool.or_eq_false_iff, ih, charBefore_cons]
    constructor
    · rintro ⟨hhere, hlater, hrest⟩
      refine ⟨fun x y hxy hy => ?_, hrest⟩
      cases x with
      | nil =>
        rw [List.nil_append] at hxy
        subst hxy
        simpa using hhere
      | cons d x =>
        rw [List.cons_append, List.cons.injEq] at hxy
        obtain ⟨rfl, rfl⟩ := hxy
        rw [charBefore_cons]
        exact hlater x y rfl hy
    · rintro ⟨h, hrest⟩
      refine ⟨?_, fun x y hxy hy => ?_, hrest⟩
      · simpa using h [] (c :: a) rfl (by simp)
      · have h' := h (c :: x) y (by rw [hxy, List.cons_append]) hy
        rwa [charBefore_cons] at h'

/-! ## Ends of names -/

/-- Before a blank no character matters, and no clause begins with a delimiter. -/
theorem rest?_congr_of_endsName {k : Clause} (hk : k.IsKeyword) {s : Text} (h : EndsName s)
    (p q : Option Char) : k.rest? p s = k.rest? q s := by
  have hkey : ∀ p q r, k.rest? p s = some r → k.rest? q s = some r := by
    intro p q r hr
    obtain ⟨m, rfl, hclause, hend, hstart⟩ := (rest?_eq_some_iff hk).mp hr
    refine (rest?_eq_some_iff hk).mpr ⟨m, rfl, hclause, hend, .inl ?_⟩
    obtain ⟨b, words, name, rfl, hb, hspaced, -, -⟩ := hclause
    cases b with
    | cons c b => simp [Text.isBlankText_iff.mp hb c (by simp)]
    | nil =>
      obtain ⟨c, words, rfl, hc⟩ := hspaced.exists_cons hk.words_ne hk.word_ne hk.isNameChar
      rw [List.nil_append, List.cons_append, List.cons_append, endsName_cons, hc] at h
      cases h
  apply Option.ext
  intro r
  exact ⟨hkey p q r, hkey q p r⟩

theorem occursAfter_congr_of_endsName {k : Clause} (hk : k.IsKeyword) {s : Text} (h : EndsName s)
    (p q : Option Char) : k.occursAfter p s = k.occursAfter q s := by
  cases s with
  | nil => rfl
  | cons c s => rw [occursAfter, occursAfter, rest?_congr_of_endsName hk h p q]

theorem infix_append_of_endsName {w a t : Text} (hw : ∀ c ∈ w, isNameChar c = true)
    (ht : EndsName t) (h : w <:+: a ++ t) : w <:+: a ∨ w <:+: t := by
  obtain ⟨x, y, hxy⟩ := h
  rcases List.append_eq_append_iff.mp hxy with ⟨z, hz, rfl⟩ | ⟨z, hz, rfl⟩
  · exact .inl ⟨x, z, hz.symm⟩
  · rcases List.append_eq_append_iff.mp hz with ⟨v, rfl, rfl⟩ | ⟨v, rfl, rfl⟩
    · -- the word would begin on the left side and end on the right one
      cases z with
      | nil => exact .inl ⟨x, [], by simp⟩
      | cons c z =>
        have hc := hw c (by simp)
        rw [List.cons_append, endsName_cons, hc] at ht
        cases ht
    · exact .inr ⟨v, y, by simp⟩

/-! ## Tails without names -/

theorem IsClause.exists_concat {k : Clause} {m : Text} (h : k.IsClause m) :
    ∃ m' c, m = m' ++ [c] ∧ isNameChar c = true := by
  obtain ⟨b, words, name, rfl, -, -, hname, hnameChar⟩ := h
  refine ⟨b ++ (words ++ name.dropLast), name.getLast hname, ?_,
    hnameChar _ (List.getLast_mem hname)⟩
  rw [List.append_assoc, List.append_assoc, List.dropLast_append_getLast hname]

/-- A clause ends before a tail in which no name can begin. -/
theorem rest?_append_tail {k : Clause} (hk : k.IsKeyword) {tail : Text}
    (htail : ∀ c ∈ tail, isNameChar c = false) (p : Option Char) (s : Text) :
    k.rest? p (s ++ tail) = (k.rest? p s).map (· ++ tail) := by
  have hend : ∀ r : Text, EndsName (r ++ tail) ↔ EndsName r := by
    intro r
    cases r with
    | cons c r => rfl
    | nil =>
      cases tail with
      | nil => rfl
      | cons c tail => simp [htail c (by simp)]
  apply Option.ext
  intro r
  rw [Option.map_eq_some_iff, rest?_eq_some_iff hk]
  constructor
  · rintro ⟨m, hm, hclause, hr, hstart⟩
    rcases List.append_eq_append_iff.mp hm with ⟨z, rfl, hz⟩ | ⟨z, rfl, rfl⟩
    · -- the clause would end in the tail
      obtain ⟨m', c, hmc, hc⟩ := hclause.exists_concat
      rcases List.eq_nil_or_concat z with rfl | ⟨z, d, rfl⟩
      · refine ⟨[], (rest?_eq_some_iff hk).mpr ⟨s, by simp, ?_, endsName_nil, ?_⟩, hz⟩
        · simpa using hclause
        · simpa using hstart
      · rw [List.concat_eq_append, ← List.append_assoc] at hmc
        have hdc : d = c := by simpa using (List.append_inj' hmc rfl).2
        have hd := htail d (by rw [hz]; simp)
        rw [hdc, hc] at hd
        cases hd
    · exact ⟨z, (rest?_eq_some_iff hk).mpr ⟨m, rfl, hclause, (hend z).mp hr, hstart⟩, rfl⟩
  · rintro ⟨z, hz, rfl⟩
    obtain ⟨m, rfl, hclause, hr, hstart⟩ := (rest?_eq_some_iff hk).mp hz
    exact ⟨m, by simp, hclause, (hend z).mpr hr, hstart⟩

theorem occurs_append_tail {k : Clause} (hk : k.IsKeyword) {tail : Text}
    (htail : ∀ c ∈ tail, isNameChar c = false) (line : Text) :
    k.occurs (line ++ tail) = k.occurs line := by
  have hnone : k.occursAfter (charBefore none line) tail = false := by
    rw [occursAfter_eq_false_iff]
    intro x y hxy _
    have h := @rest?_append_tail k hk y (fun c hc => htail c (by rw [hxy]; simp [hc]))
      (charBefore (charBefore none line) x) []
    rw [List.nil_append] at h
    rw [h]
    cases hnil : k.rest? (charBefore (charBefore none line) x) [] with
    | none => rfl
    | some r =>
      obtain ⟨m, hm, hclause, -, -⟩ := (rest?_eq_some_iff hk).mp hnil
      exact absurd (List.append_eq_nil_iff.mp hm.symm).1 hclause.ne_nil
  have hlong := @occursAfter_append_eq_false_iff k none line tail
  rw [hnone] at hlong
  rw [Bool.eq_iff_iff, ← not_iff_not, Bool.not_eq_true, Bool.not_eq_true, occurs, occurs, hlong,
    occursAfter_eq_false_iff]
  constructor
  · rintro ⟨h, -⟩ x y hxy hy
    have h' := h x y hxy hy
    rwa [rest?_append_tail hk htail, Option.map_eq_none_iff] at h'
  · intro h
    refine ⟨fun x y hxy hy => ?_, rfl⟩
    rw [rest?_append_tail hk htail, h x y hxy hy]
    rfl

/-! ## From cut to cut -/

theorem stripFrom_length (k : Clause) (p : Option Char) (a r : Text) :
    k.stripFrom a.length p (a ++ r) = k.stripFrom 0 (charBefore p a) r := by
  induction a generalizing p with
  | nil => rfl
  | cons c a ih => rw [List.cons_append, List.length_cons, stripFrom, ih, charBefore_cons]

/-- The first clause of a text: `a` stands before it, `m` is the clause, and `r` follows it. -/
structure FirstCut (k : Clause) (p : Option Char) (a m r : Text) : Prop where
  isClause : k.IsClause m
  endsName : EndsName r
  startsWord : StartsWord (charBefore p a) m
  untouched : ∀ x y, a = x ++ y → y ≠ [] → k.rest? (charBefore p x) (y ++ (m ++ r)) = none

theorem FirstCut.rest? {k : Clause} (hk : k.IsKeyword) {p : Option Char} {a m r : Text}
    (h : FirstCut k p a m r) : k.rest? (charBefore p a) (m ++ r) = some r :=
  (rest?_eq_some_iff hk).mpr ⟨m, rfl, h.isClause, h.endsName, h.startsWord⟩

theorem FirstCut.stripFrom {k : Clause} (hk : k.IsKeyword) {p : Option Char} {a m r : Text}
    (h : FirstCut k p a m r) :
    k.stripFrom 0 p (a ++ (m ++ r)) =
      (a ++ (k.stripFrom 0 (charBefore p (a ++ m)) r).1,
        (k.stripFrom 0 (charBefore p (a ++ m)) r).2 + 1) := by
  induction a generalizing p with
  | nil =>
    have hrest := h.rest? hk
    obtain ⟨c, m', rfl⟩ := List.exists_cons_of_ne_nil h.isClause.ne_nil
    rw [charBefore_nil, List.cons_append] at hrest
    have hlen : (m' ++ r).length - r.length = m'.length := by
      rw [List.length_append, Nat.add_sub_cancel]
    rw [List.nil_append, List.nil_append, List.nil_append, List.cons_append, Clause.stripFrom,
      hrest]
    simp only
    rw [hlen, stripFrom_length, charBefore_cons]
  | cons c a ih =>
    have hhere := h.untouched [] (c :: a) rfl (by simp)
    rw [charBefore_nil, List.cons_append] at hhere
    have hlater : FirstCut k (some c) a m r := by
      refine ⟨h.isClause, h.endsName, ?_, fun x y hxy hy => ?_⟩
      · have hstart := h.startsWord
        rwa [charBefore_cons] at hstart
      · have h' := h.untouched (c :: x) y (by rw [hxy, List.cons_append]) hy
        rwa [charBefore_cons] at h'
    rw [List.cons_append, Clause.stripFrom, hhere]
    simp only
    rw [ih hlater, List.cons_append, List.cons_append, charBefore_cons]

theorem exists_firstCut {k : Clause} (hk : k.IsKeyword) (p : Option Char) (s : Text) :
    k.occursAfter p s = false ∨ ∃ a m r, s = a ++ (m ++ r) ∧ FirstCut k p a m r := by
  induction s generalizing p with
  | nil => exact .inl rfl
  | cons c s ih =>
    cases hrest : k.rest? p (c :: s) with
    | some r =>
      obtain ⟨m, hm, hclause, hend, hstart⟩ := (rest?_eq_some_iff hk).mp hrest
      refine .inr ⟨[], m, r, hm, hclause, hend, hstart, fun x y hxy hy => ?_⟩
      exact absurd (List.append_eq_nil_iff.mp hxy.symm).2 hy
    | none =>
      rcases ih (some c) with hno | ⟨a, m, r, rfl, hcut⟩
      · exact .inl (by rw [occursAfter, hrest, hno]; rfl)
      · refine .inr ⟨c :: a, m, r, rfl, hcut.isClause, hcut.endsName, ?_, fun x y hxy hy => ?_⟩
        · rw [charBefore_cons]
          exact hcut.startsWord
        · cases x with
          | nil =>
            rw [List.nil_append] at hxy
            subst hxy
            exact hrest
          | cons d x =>
            rw [List.cons_append, List.cons.injEq] at hxy
            obtain ⟨rfl, rfl⟩ := hxy
            rw [charBefore_cons]
            exact hcut.untouched x y rfl hy

/-- What holds of texts without a clause, and of a text with a first clause when it holds of what
follows that clause, holds of every text. -/
theorem stripFrom_induction {k : Clause} (hk : k.IsKeyword) {motive : Option Char → Text → Prop}
    (none : ∀ p s, k.occursAfter p s = false → motive p s)
    (cut : ∀ p a m r, FirstCut k p a m r → motive (charBefore p (a ++ m)) r →
      motive p (a ++ (m ++ r))) (p : Option Char) (s : Text) : motive p s := by
  induction hn : s.length using Nat.strongRecOn generalizing p s with
  | ind n ih =>
    rcases exists_firstCut hk p s with hno | ⟨a, m, r, rfl, hcut⟩
    · exact none p s hno
    · have hm := List.length_pos_iff.mpr hcut.isClause.ne_nil
      have hr : r.length < n := by
        rw [← hn, List.length_append, List.length_append]
        omega
      exact cut p a m r hcut (ih r.length hr _ r rfl)

/-! ## Nothing grows together -/

theorem endsName_stripFrom {k : Clause} (hk : k.IsKeyword) (p : Option Char) (s : Text) :
    EndsName s → EndsName (k.stripFrom 0 p s).1 := by
  induction p, s using stripFrom_induction hk with
  | none p s hno => rw [stripFrom_eq_self hno]; exact id
  | cut p a m r hcut ih =>
    rw [hcut.stripFrom hk]
    intro h
    cases a with
    | nil => exact ih hcut.endsName
    | cons c a => exact h

theorem infix_of_infix_stripFrom {k : Clause} (hk : k.IsKeyword) {w : Text}
    (hw : ∀ c ∈ w, isNameChar c = true) (p : Option Char) (s : Text) :
    w <:+: (k.stripFrom 0 p s).1 → w <:+: s := by
  induction p, s using stripFrom_induction hk with
  | none p s hno => rw [stripFrom_eq_self hno]; exact id
  | cut p a m r hcut ih =>
    rw [hcut.stripFrom hk]
    intro h
    rcases infix_append_of_endsName hw (endsName_stripFrom hk _ _ hcut.endsName) h with ha | hr
    · exact ha.trans (List.infix_append' [] a (m ++ r))
    · exact (ih hr).trans ⟨a ++ m, [], by simp⟩

theorem infix_of_infix_strip {k : Clause} (hk : k.IsKeyword) {w line : Text}
    (hw : ∀ c ∈ w, isNameChar c = true) (h : w <:+: (k.strip line).1) : w <:+: line :=
  infix_of_infix_stripFrom hk hw none line h

/-- A keyword with blanks after every word and the first character of a name make a clause,
whatever comes then. -/
theorem rest?_isSome {k : Clause} (hk : k.IsKeyword) {p : Option Char} {b words s : Text} {c : Char}
    (hb : Text.isBlankText b = true) (hwords : SpacedWords k.words words)
    (hc : isNameChar c = true) (hstart : StartsWord p (b ++ words)) :
    k.rest? p (b ++ (words ++ c :: s)) ≠ none := by
  obtain ⟨d, words', hd, -⟩ := hwords.exists_cons hk.words_ne hk.word_ne hk.isNameChar
  have hafter := (afterName_eq_some_iff (s := c :: s) (r := (c :: s).dropWhile isNameChar)).mp (by
    rw [afterName, if_pos (by simp [hc])])
  obtain ⟨name, hs, hne, hnameChar, hend⟩ := hafter
  have hrest := (rest?_eq_some_iff hk (p := p)).mpr
    ⟨b ++ (words ++ name), rfl, ⟨b, words, name, rfl, hb, hwords, hne, hnameChar⟩, hend, by
      rw [← List.append_assoc, StartsWord, List.head?_append_of_ne_nil _ (by simp [hd])]
      exact hstart⟩
  rw [hs, ← List.append_assoc words, ← List.append_assoc b, hrest]
  exact Option.some_ne_none _

theorem charBefore_eq_getLast (p : Option Char) {w : Text} (hw : w ≠ []) :
    charBefore p w = some (w.getLast hw) := by
  rw [charBefore, List.getLast?_eq_some_getLast hw]
  rfl

theorem IsClause.blanks_append {k : Clause} {b m : Text} (hm : k.IsClause m)
    (hb : Text.isBlankText b = true) : k.IsClause (b ++ m) := by
  obtain ⟨bm, words, name, rfl, hbm, hrest⟩ := hm
  exact ⟨b ++ bm, words, name, by simp, Text.isBlankText_append_iff.mpr ⟨hb, hbm⟩, hrest⟩

end DumpConversion.Clause
