import DumpConversion.Proofs.Dump.ClauseFree

/-! # Where a line is cut

The removal of a kind of clause cuts a line. What is kept can hold a clause again only where the words
of its keyword met at a cut: the text kept before the cut ends with the first words, and the text kept
after it begins with the others. A keyword of one word cannot be parted in this way.

* `Clause.Cuts`: a line cut at clauses, as it was and as it is kept.
* `Clause.CutOut`, `Clause.exists_cutOut`: the cuts that the removal makes.
* `Clause.Parts`: a cut parts the words of a keyword.
* `Clause.parts_of_occurs`, `Clause.occurs_of_parts`: what is kept holds a clause exactly when a cut
  parts its keyword.
* `Clause.occurs_strip_of_word`: clauses whose keyword is one word are gone once they are removed.
-/

namespace DumpConversion

set_option autoImplicit false

theorem Text.isWordChar_of_isBlank {c : Char} (h : isBlank c = true) : isWordChar c = false := by
  have hapart : (blankRanges.all fun b => wordRanges.all fun w =>
      decide (b.2 < w.1) || decide (w.2 < b.1)) = true := by decide +kernel
  obtain ⟨b, hb, hc⟩ := List.any_eq_true.mp h
  rw [isWordChar, List.any_eq_false]
  intro w hw hcw
  have hbw := List.all_eq_true.mp (List.all_eq_true.mp hapart b hb) w hw
  simp only [Bool.and_eq_true, Bool.or_eq_true, decide_eq_true_eq] at hc hcw hbw
  omega

namespace Clause

/-! ## Cuts -/

/-- A line cut at clauses: the pieces that stay, each with the clause behind it, and the piece behind
the last clause. -/
structure Cuts where
  pieces : List (Text × Text)
  last : Text

namespace Cuts

/-- The line with the clauses. -/
def line (c : Cuts) : Text := c.pieces.foldr (fun p rest => p.1 ++ (p.2 ++ rest)) c.last

/-- The line without the clauses. -/
def kept (c : Cuts) : Text := c.pieces.foldr (fun p rest => p.1 ++ rest) c.last

@[simp] theorem line_nil (s : Text) : line ⟨[], s⟩ = s := rfl

@[simp] theorem kept_nil (s : Text) : kept ⟨[], s⟩ = s := rfl

@[simp] theorem line_cons (a m : Text) (ps : List (Text × Text)) (s : Text) :
    line ⟨(a, m) :: ps, s⟩ = a ++ (m ++ line ⟨ps, s⟩) := rfl

@[simp] theorem kept_cons (a m : Text) (ps : List (Text × Text)) (s : Text) :
    kept ⟨(a, m) :: ps, s⟩ = a ++ kept ⟨ps, s⟩ := rfl

theorem kept_split (front : List (Text × Text)) (a m : Text) (back : List (Text × Text))
    (s : Text) : kept ⟨front ++ (a, m) :: back, s⟩ = kept ⟨front, a⟩ ++ kept ⟨back, s⟩ := by
  induction front with
  | nil => rfl
  | cons p front ih =>
    obtain ⟨x, n⟩ := p
    rw [List.cons_append, kept_cons, kept_cons, ih, List.append_assoc]

theorem line_append (front : List (Text × Text)) (a : Text) :
    line ⟨front, a⟩ = line ⟨front, []⟩ ++ a := by
  induction front with
  | nil => rfl
  | cons p front ih =>
    obtain ⟨x, n⟩ := p
    rw [line_cons, line_cons, ih, List.append_assoc, List.append_assoc]

end Cuts

/-- The line is cut at its clauses from the left, when `p` is the character before it: the first piece
and the first clause, then the cuts of what follows, until no clause is left. -/
inductive CutOut (k : Clause) : Option Char → Cuts → Prop where
  | whole {p : Option Char} {s : Text} : k.occursAfter p s = false → CutOut k p ⟨[], s⟩
  | cut {p : Option Char} {a m : Text} {ps : List (Text × Text)} {s : Text} :
      FirstCut k p a m (Cuts.line ⟨ps, s⟩) → CutOut k (charBefore p (a ++ m)) ⟨ps, s⟩ →
      CutOut k p ⟨(a, m) :: ps, s⟩

section

variable {j k : Clause} {p q : Option Char} {c : Cuts}

theorem exists_cutOut (hk : k.IsKeyword) (p : Option Char) (s : Text) :
    ∃ c : Cuts, c.line = s ∧ k.CutOut p c := by
  induction p, s using stripFrom_induction hk with
  | none p s hno => exact ⟨⟨[], s⟩, rfl, .whole hno⟩
  | cut p a m r hcut ih =>
    obtain ⟨c, rfl, hc⟩ := ih
    exact ⟨⟨(a, m) :: c.pieces, c.last⟩, rfl, .cut hcut hc⟩

theorem CutOut.stripFrom (hk : k.IsKeyword) (h : k.CutOut p c) :
    k.stripFrom 0 p c.line = (c.kept, c.pieces.length) := by
  induction h with
  | whole hno => exact stripFrom_eq_self hno
  | cut hcut _ ih => rw [Cuts.line_cons, hcut.stripFrom hk, ih, Cuts.kept_cons, List.length_cons]

theorem CutOut.firstCut {front back : List (Text × Text)} {a m s : Text}
    (h : k.CutOut p ⟨front ++ (a, m) :: back, s⟩) :
    FirstCut k (charBefore p (Cuts.line ⟨front, []⟩)) a m (Cuts.line ⟨back, s⟩) := by
  induction front generalizing p with
  | nil =>
    cases h with
    | cut hcut _ => exact hcut
  | cons x front ih =>
    obtain ⟨b, n⟩ := x
    cases h with
    | cut _ hrest =>
      have hfirst := ih hrest
      rwa [← charBefore_append, List.append_assoc] at hfirst

/-- A clause takes the blanks before it. -/
theorem FirstCut.not_blank {a m r : Text} (hk : k.IsKeyword) (h : FirstCut k p a m r) {d : Char}
    (hd : a.getLast? = some d) : Text.isBlank d = false := by
  obtain ⟨x, rfl⟩ := List.getLast?_eq_some_iff.mp hd
  rw [Bool.eq_false_iff]
  intro hblank
  have hb : Text.isBlankText [d] = true := by simp [Text.isBlankText, hblank]
  have hnone := h.untouched x [d] rfl (List.cons_ne_nil d [])
  have hfound : k.rest? (charBefore p x) ([d] ++ (m ++ r)) = some r :=
    (rest?_eq_some_iff hk).mpr
      ⟨[d] ++ m, (List.append_assoc _ _ _).symm, h.isClause.blanks_append hb, h.endsName,
        .inl (by simp [hblank])⟩
  rw [hnone] at hfound
  cases hfound

end

/-! ## Parted keywords -/

/-- The text ends with the words, the first of which begins a word, and nothing behind the last. -/
def EndsWithWords (p : Option Char) (ws : List Text) (s : Text) : Prop :=
  ∃ x words front w, ws = front ++ [w] ∧ s = x ++ (words ++ w) ∧ SpacedWords front words ∧
    startsWord (charBefore p x) = true

/-- The text begins with the words, blanks before and behind each of them, and a name. -/
def BeginsWithWords (ws : List Text) (s : Text) : Prop :=
  ∃ g words d t, s = g ++ (words ++ d :: t) ∧ g ≠ [] ∧ Text.isBlankText g = true ∧
    SpacedWords ws words ∧ isNameChar d = true

/-- A cut parts the words of the keyword: the text kept before it ends with the first of them, and the
text kept behind it begins with the others and a name. -/
def Parts (k : Clause) (p : Option Char) (c : Cuts) : Prop :=
  ∃ front a m back before behind, c.pieces = front ++ (a, m) :: back ∧
    k.words = before ++ behind ∧ behind ≠ [] ∧
    EndsWithWords p before (Cuts.kept ⟨front, a⟩) ∧ BeginsWithWords behind (Cuts.kept ⟨back, c.last⟩)

theorem not_parts_of_word {k : Clause} {w : Text} (hw : k.words = [w]) {p : Option Char} {c : Cuts} :
    ¬ k.Parts p c := by
  rintro ⟨-, -, -, -, before, behind, -, hwords, hbehind, ⟨-, -, front, v, rfl, -⟩, -⟩
  rw [hw] at hwords
  have hlength := congrArg List.length hwords
  have hpos := List.length_pos_iff.mpr hbehind
  simp only [List.length_append, List.length_cons, List.length_nil] at hlength
  omega

theorem SpacedWords.append {ws vs : List Text} {m n : Text} (hm : SpacedWords ws m)
    (hn : SpacedWords vs n) : SpacedWords (ws ++ vs) (m ++ n) := by
  induction ws generalizing m with
  | nil =>
    have hnil : m = [] := hm
    subst hnil
    exact hn
  | cons w ws ih =>
    obtain ⟨b, rest, rfl, hbne, hb, hrest⟩ := hm
    exact ⟨b, rest ++ n, by simp only [List.append_assoc], hbne, hb, ih hrest⟩

/-- Where a text that begins with words is divided before a blank or a delimiter, the place is behind
all the words or among the blanks behind one of them. -/
theorem SpacedWords.divide {ws : List Text} {m z y t : Text} (h : SpacedWords ws m)
    (hne : ∀ w ∈ ws, w ≠ []) (hname : ∀ w ∈ ws, ∀ c ∈ w, isNameChar c = true)
    (hdivide : m ++ z = y ++ t) (ht : EndsName t) :
    (∃ v, y = m ++ v ∧ z = v ++ t) ∨
      ∃ before w behind words g g' rest, ws = before ++ w :: behind ∧ SpacedWords before words ∧
        y = words ++ (w ++ g) ∧ t = g' ++ (rest ++ z) ∧ Text.isBlankText (g ++ g') = true ∧
        SpacedWords behind rest := by
  induction ws generalizing m y with
  | nil =>
    have hnil : m = [] := h
    subst hnil
    exact .inl ⟨y, rfl, hdivide⟩
  | cons w ws ih =>
    obtain ⟨b, rest, rfl, hbne, hb, hrest⟩ := h
    rw [List.append_assoc, List.append_assoc] at hdivide
    rcases List.append_eq_append_iff.mp hdivide with ⟨y', rfl, hy'⟩ | ⟨v, hv, rfl⟩
    · rcases List.append_eq_append_iff.mp hy' with ⟨y'', rfl, hy''⟩ | ⟨g', rfl, rfl⟩
      · rcases ih hrest (fun v hv => hne v (by simp [hv])) (fun v hv => hname v (by simp [hv]))
          hy'' with ⟨v, rfl, hz⟩ | ⟨before, u, behind, words, g, g', r, rfl, hwords, rfl, hr⟩
        · exact .inl ⟨v, by simp only [List.append_assoc], hz⟩
        · exact .inr ⟨w :: before, u, behind, w ++ (b ++ words), g, g', r, rfl,
            ⟨b, words, rfl, hbne, hb, hwords⟩, by simp only [List.append_assoc], hr⟩
      · exact .inr ⟨[], w, ws, [], y', g', rest, rfl, rfl, rfl, rfl, hb, hrest⟩
    · -- the rest would begin inside the word
      cases v with
      | nil =>
        rw [List.append_nil] at hv
        subst hv
        exact .inr ⟨[], w, ws, [], [], b, rest, rfl, rfl, by simp, rfl, hb, hrest⟩
      | cons d v =>
        have hd := hname w (by simp) d (by rw [hv]; simp)
        rw [List.cons_append, endsName_cons, hd] at ht
        cases ht

theorem SpacedWords.not_endsName {ws : List Text} {m z : Text} (h : SpacedWords ws m)
    (hws : ws ≠ []) (hne : ∀ w ∈ ws, w ≠ []) (hname : ∀ w ∈ ws, ∀ c ∈ w, isNameChar c = true) :
    ¬ EndsName (m ++ z) := by
  obtain ⟨c, m, rfl, hc⟩ := h.exists_cons hws hne hname
  rw [List.cons_append, endsName_cons, hc]
  exact Bool.noConfusion

/-! ## The start of a keyword -/

theorem startsWord_append_iff {p : Option Char} {m : Text} (hm : m ≠ []) (s : Text) :
    StartsWord p (m ++ s) ↔ StartsWord p m := by
  rw [StartsWord, StartsWord, List.head?_append_of_ne_nil _ hm]

theorem startsWord_charBefore {p : Option Char} {b m : Text} (hb : Text.isBlankText b = true)
    (hm : m.head?.any Text.isBlank = false) (h : StartsWord p (b ++ m)) :
    startsWord (charBefore p b) = true := by
  rcases List.eq_nil_or_concat b with rfl | ⟨b, c, rfl⟩
  · rcases h with hblank | hstart
    · rw [List.nil_append, hm] at hblank
      cases hblank
    · exact hstart
  · have hc := Text.isBlankText_iff.mp hb c (by simp)
    simp [charBefore, startsWord, Text.isWordChar_of_isBlank hc]

/-- A clause directly behind all the words of a keyword is a name for it: the clause begins a word, so
a blank stands between. -/
theorem rest?_ne_none_of_words_before {j k : Clause} (hj : j.IsKeyword) (hk : k.IsKeyword)
    {front : List Text} {w : Text} (hw : j.words = front ++ [w]) {q : Option Char}
    {b words m : Text} (hb : Text.isBlankText b = true) (hwords : SpacedWords front words)
    (hstart : StartsWord q (b ++ (words ++ w))) (hm : k.IsClause m)
    (hcut : StartsWord (charBefore q (b ++ (words ++ w))) m) (r : Text) :
    j.rest? q (b ++ (words ++ w) ++ (m ++ r)) ≠ none := by
  have hwne : w ≠ [] := hj.word_ne w (by simp [hw])
  obtain ⟨bm, mwords, name, rfl, hbm, hspaced, -, -⟩ := hm
  obtain ⟨c, mwords, rfl, hc⟩ := hspaced.exists_cons hk.words_ne hk.word_ne hk.isNameChar
  have hbmne : bm ≠ [] := by
    rintro rfl
    have hlast : Text.isWordChar (w.getLast hwne) = true :=
      hj.isWordChar w (by simp [hw]) _ (List.getLast_mem hwne)
    rw [charBefore_append, charBefore_append, charBefore_eq_getLast _ hwne] at hcut
    simp [StartsWord, startsWord, hlast, isBlank_of_isNameChar hc] at hcut
  have hkeyword : SpacedWords j.words (words ++ (w ++ bm)) := by
    rw [hw]
    exact hwords.append ⟨bm, [], by simp, hbmne, hbm, rfl⟩
  have hfound := rest?_isSome hj (p := q) (s := mwords ++ (name ++ r)) hb hkeyword hc (by
    rw [← List.append_assoc words, ← List.append_assoc b]
    exact (startsWord_append_iff (by simp [hwne]) bm).mpr hstart)
  simpa only [List.append_assoc, List.cons_append] using hfound

/-! ## Clauses across a cut -/

/-- A clause that is found across a cut, and was not found before the cut was made, has its keyword
parted by the cut. -/
theorem parted_of_rest? {j k : Clause} (hj : j.IsKeyword) (hk : k.IsKeyword) {q : Option Char}
    {y m r t : Text} (hy : ∀ d, y.getLast? = some d → Text.isBlank d = false) (hyne : y ≠ [])
    (hm : k.IsClause m) (hcut : StartsWord (charBefore q y) m) (ht : EndsName t)
    (hnone : j.rest? q (y ++ (m ++ r)) = none) (hfound : j.rest? q (y ++ t) ≠ none) :
    ∃ before behind, j.words = before ++ behind ∧ behind ≠ [] ∧ EndsWithWords q before y ∧
      BeginsWithWords behind t := by
  have hblank : ∀ x b, y = x ++ b → Text.isBlankText b = true → b = [] := by
    intro x b hyb hb
    rcases List.eq_nil_or_concat b with rfl | ⟨b, d, rfl⟩
    · rfl
    · have hd := hy d (by rw [hyb]; simp)
      rw [Text.isBlankText_iff.mp hb d (by simp)] at hd
      cases hd
  obtain ⟨r', hr'⟩ := Option.ne_none_iff_exists'.mp hfound
  obtain ⟨n, hn, hclause, -, hstart⟩ := (rest?_eq_some_iff hj).mp hr'
  have hystart : StartsWord q y := by
    rwa [← startsWord_append_iff hyne t, hn, startsWord_append_iff hclause.ne_nil]
  obtain ⟨b, words, name, rfl, hb, hspaced, hname, hnameChar⟩ := hclause
  obtain ⟨d, name, rfl⟩ := List.exists_cons_of_ne_nil hname
  have hd : isNameChar d = true := hnameChar d (by simp)
  simp only [List.append_assoc, List.cons_append] at hn
  -- the cut lies behind the blanks before the keyword
  obtain ⟨y, rfl, hwords⟩ : ∃ y', y = b ++ y' ∧ words ++ d :: (name ++ r') = y' ++ t := by
    rcases List.append_eq_append_iff.mp hn with ⟨v, rfl, -⟩ | ⟨y', rfl, hy'⟩
    · exact absurd (hblank [] y rfl (Text.isBlankText_append_iff.mp hb).1) hyne
    · exact ⟨y', rfl, hy'⟩
  have hhead : y.head?.any Text.isBlank = false := by
    cases y with
    | nil => rfl
    | cons e y =>
      obtain ⟨c, words, rfl, hc⟩ := hspaced.exists_cons hj.words_ne hj.word_ne hj.isNameChar
      rw [List.cons_append, List.cons_append, List.cons.injEq] at hwords
      simp [← hwords.1, isBlank_of_isNameChar hc]
  rcases hspaced.divide hj.word_ne hj.isNameChar hwords ht with
    ⟨v, rfl, hv⟩ | ⟨front, w, behind, fronts, g, g', rest, hsplit, hfronts, rfl, rfl, hgap, hrest⟩
  · -- the name begins before the cut, so the clause was there
    cases v with
    | nil =>
      rw [List.nil_append] at hv
      rw [← hv, endsName_cons, hd] at ht
      cases ht
    | cons e v =>
      rw [List.cons_append, List.cons.injEq] at hv
      obtain ⟨rfl, -⟩ := hv
      have hne : b ++ words ≠ [] := by
        obtain ⟨c, words, rfl, -⟩ := hspaced.exists_cons hj.words_ne hj.word_ne hj.isNameChar
        simp
      rw [← List.append_assoc, startsWord_append_iff hne] at hystart
      have hthere := rest?_isSome hj (s := v ++ (m ++ r)) hb hspaced hd hystart
      exact absurd hnone (by simpa only [List.append_assoc, List.cons_append] using hthere)
  · obtain ⟨hg, hg'⟩ := Text.isBlankText_append_iff.mp hgap
    have hgnil : g = [] := hblank (b ++ (fronts ++ w)) g (by simp only [List.append_assoc]) hg
    subst hgnil
    rw [List.append_nil] at hystart hcut hnone hhead ⊢
    by_cases hbehind : behind = []
    · subst hbehind
      exact absurd hnone (rest?_ne_none_of_words_before hj hk hsplit hb hfronts hystart hm hcut r)
    · refine ⟨front ++ [w], behind, by rw [hsplit]; simp, hbehind,
        ⟨b, fronts, front, w, rfl, rfl, hfronts, startsWord_charBefore hb hhead hystart⟩,
        g', rest, d, name ++ r', rfl, ?_, hg', hrest, hd⟩
      rintro rfl
      exact hrest.not_endsName hbehind (fun v hv => hj.word_ne v (by rw [hsplit]; simp [hv]))
        (fun v hv => hj.isNameChar v (by rw [hsplit]; simp [hv])) ht

/-! ## What is kept -/

theorem EndsWithWords.append_left {p : Option Char} {ws : List Text} {a s : Text}
    (h : EndsWithWords (charBefore p a) ws s) : EndsWithWords p ws (a ++ s) := by
  obtain ⟨x, words, front, w, rfl, rfl, hwords, hstart⟩ := h
  refine ⟨a ++ x, words, front, w, rfl, by simp only [List.append_assoc], hwords, ?_⟩
  rwa [charBefore_append]

/-- What begins with a blank or a delimiter does not begin with the words. -/
theorem EndsWithWords.congr {p q : Option Char} {ws : List Text} {s t : Text}
    (hne : ∀ w ∈ ws, w ≠ []) (hname : ∀ w ∈ ws, ∀ c ∈ w, isNameChar c = true)
    (h : EndsWithWords p ws s) (hs : EndsName (s ++ t)) : EndsWithWords q ws s := by
  obtain ⟨x, words, front, w, rfl, rfl, hwords, hstart⟩ := h
  refine ⟨x, words, front, w, rfl, rfl, hwords, ?_⟩
  rcases List.eq_nil_or_concat x with rfl | ⟨x, c, rfl⟩
  · rw [List.nil_append, List.append_assoc] at hs
    cases front with
    | nil =>
      have hnil : words = [] := hwords
      subst hnil
      obtain ⟨c, w, rfl⟩ := List.exists_cons_of_ne_nil (hne w (by simp))
      rw [List.nil_append, List.cons_append, endsName_cons, hname (c :: w) (by simp) c (by simp)] at hs
      cases hs
    | cons v front =>
      exact absurd hs (hwords.not_endsName (List.cons_ne_nil v front)
        (fun u hu => hne u (List.mem_append_left [w] hu))
        (fun u hu => hname u (List.mem_append_left [w] hu)))
  · simpa [charBefore] using hstart

section

variable {j k : Clause} {p : Option Char} {c : Cuts}

theorem CutOut.endsName_kept (hk : k.IsKeyword) (h : k.CutOut p c) (hline : EndsName c.line) :
    EndsName c.kept := by
  have hstrip := endsName_stripFrom hk p c.line hline
  rwa [h.stripFrom hk] at hstrip

/-- Where every clause of the first kind is also one of the second kind, or the first kind is nowhere,
the removal of the second kind leaves the first kind only by parting its keyword. -/
theorem parts_of_occurs (hj : j.IsKeyword) (hk : k.IsKeyword) (h : k.CutOut p c) :
    (∀ x y, c.line = x ++ y → y ≠ [] → k.rest? (charBefore p x) y = none →
      j.rest? (charBefore p x) y = none) → j.occursAfter p c.kept = true → j.Parts p c := by
  induction h with
  | @whole p s hno =>
    intro hnone hoccurs
    have hnowhere : j.occursAfter p s = false := occursAfter_eq_false_iff.mpr fun x y hxy hy =>
      hnone x y hxy hy (occursAfter_eq_false_iff.mp hno x y hxy hy)
    rw [Cuts.kept_nil, hnowhere] at hoccurs
    cases hoccurs
  | @cut p a m ps s hcut hrest ih =>
    intro hnone hoccurs
    have ht := hrest.endsName_kept hk hcut.endsName
    by_cases hhere : ∀ x y, a = x ++ y → y ≠ [] →
        j.rest? (charBefore p x) (y ++ Cuts.kept ⟨ps, s⟩) = none
    · -- the clause lies behind this cut
      have hlater : j.occursAfter (charBefore p (a ++ m)) (Cuts.kept ⟨ps, s⟩) = true := by
        rw [← Bool.not_eq_false, occursAfter_congr_of_endsName hj ht _ (charBefore p a)]
        intro hno
        rw [Cuts.kept_cons, occursAfter_append_eq_false_iff.mpr ⟨hhere, hno⟩] at hoccurs
        cases hoccurs
      obtain ⟨front, a', m', back, before, behind, rfl, hwords, hbehind, hbefore, hbegins⟩ :=
        ih (fun x y hxy hy hknone => by
          rw [← charBefore_append] at hknone ⊢
          exact hnone (a ++ m ++ x) y (by rw [Cuts.line_cons, hxy]; simp) hy hknone) hlater
      refine ⟨(a, m) :: front, a', m', back, before, behind, rfl, hwords, hbehind, ?_, hbegins⟩
      rw [Cuts.kept_split] at ht
      exact (hbefore.congr (fun w hw => hj.word_ne w (by rw [hwords]; simp [hw]))
        (fun w hw => hj.isNameChar w (by rw [hwords]; simp [hw])) ht).append_left
    · push Not at hhere
      obtain ⟨x, y, rfl, hy, hfound⟩ := hhere
      have hknone := hcut.untouched x y rfl hy
      have hjnone := hnone x (y ++ (m ++ Cuts.line ⟨ps, s⟩)) (by simp) (by simp [hy]) hknone
      have hstart := hcut.startsWord
      rw [charBefore_append] at hstart
      have hlast : ∀ d, y.getLast? = some d → Text.isBlank d = false := fun d hd =>
        hcut.not_blank hk (by rw [List.getLast?_append, hd]; rfl)
      obtain ⟨before, behind, hwords, hbehind, hbefore, hbegins⟩ :=
        parted_of_rest? hj hk hlast hy hcut.isClause hstart ht hjnone hfound
      exact ⟨[], x ++ y, m, ps, before, behind, rfl, hwords, hbehind, hbefore.append_left, hbegins⟩

theorem occurs_of_parts (hk : k.IsKeyword) (h : k.Parts p c) : k.occursAfter p c.kept = true := by
  obtain ⟨pieces, last⟩ := c
  obtain ⟨front, a, m, back, before, behind, rfl, hwords, -,
    ⟨x, words, others, w, rfl, hends, hspaced, hstart⟩,
    ⟨g, rest, d, t, hbegins, hg, hgblank, hrest, hd⟩⟩ := h
  rw [← Bool.not_eq_false, occursAfter_eq_false_iff]
  intro hnone
  have hkeyword : SpacedWords k.words (words ++ (w ++ (g ++ rest))) := by
    rw [hwords, List.append_assoc]
    exact hspaced.append ⟨g, rest, rfl, hg, hgblank, hrest⟩
  have hfound := rest?_isSome hk (p := charBefore p x) (b := []) (s := t) rfl hkeyword hd (.inr hstart)
  refine hfound (hnone x _ ?_ (by simp))
  rw [Cuts.kept_split, hends, hbegins]
  simp only [List.append_assoc, List.nil_append]

/-- What is kept of a line holds a clause again exactly when a cut parts the words of its keyword. -/
theorem occurs_kept_iff (hk : k.IsKeyword) (h : k.CutOut p c) :
    k.occursAfter p c.kept = true ↔ k.Parts p c :=
  ⟨parts_of_occurs hk hk h fun _ _ _ _ hnone => hnone, occurs_of_parts hk⟩

end

/-! ## Keywords of one word -/

/-- Clauses whose keyword is one word are gone once they have been removed. -/
theorem occurs_strip_of_word {k : Clause} (hk : k.IsKeyword) {w : Text} (hw : k.words = [w])
    (line : Text) : k.occurs (k.strip line).1 = false := by
  obtain ⟨c, rfl, hc⟩ := exists_cutOut hk none line
  rw [strip, hc.stripFrom hk, Bool.eq_false_iff]
  exact fun hoccurs => not_parts_of_word hw ((occurs_kept_iff hk hc).mp hoccurs)

theorem occurs_strip_of_not_occurs {j k : Clause} (hj : j.IsKeyword) (hk : k.IsKeyword) {w : Text}
    (hw : j.words = [w]) {line : Text} (h : j.occurs line = false) :
    j.occurs (k.strip line).1 = false := by
  obtain ⟨c, rfl, hc⟩ := exists_cutOut hk none line
  rw [strip, hc.stripFrom hk, Bool.eq_false_iff]
  refine fun hoccurs => not_parts_of_word hw (parts_of_occurs hj hk hc (fun x y hxy hy _ => ?_) hoccurs)
  exact occursAfter_eq_false_iff.mp h x y hxy hy

end Clause
end DumpConversion
