import DumpConversion.Proofs.Text.Joining

/-! # Literals in texts that are put together

Where a literal stands in a text can be told from the pieces of the text, when the pieces meet at
characters that the literal lacks.

* `Text.infix_append_cons_iff`: a literal does not stand across a character that it lacks.
* `Text.infix_trim_iff`: a literal without blanks does not stand among the outer blanks.
* `Text.replaceAll_append`, `Text.replaceAll_prefix`: replacing from the left, piece by piece.
* `Text.replaceAll_induction`: the cases in which replacing goes on.
-/

namespace DumpConversion.Text

set_option autoImplicit false

/-! ## Searching in pieces -/

theorem not_infix_of_not_mem {w s : Text} {c : Char} (hc : c ∈ w) (hs : c ∉ s) : ¬ w <:+: s :=
  fun h => hs (h.subset hc)

theorem not_infix_of_subset {w s letters : Text} {c : Char} (hc : c ∈ w) (hletters : c ∉ letters)
    (hs : s ⊆ letters) : ¬ w <:+: s :=
  not_infix_of_not_mem hc fun h => hletters (hs h)

theorem infix_append_cons_iff {w : Text} {c : Char} (hc : c ∉ w) (a b : Text) :
    w <:+: a ++ c :: b ↔ w <:+: a ∨ w <:+: b := by
  constructor
  · rintro ⟨x, y, hxy⟩
    rcases List.append_eq_append_iff.mp hxy with ⟨z, rfl, -⟩ | ⟨z, hz, hy⟩
    · exact .inl ⟨x, z, rfl⟩
    · cases z with
      | nil => exact .inl ⟨x, [], by simpa using hz⟩
      | cons d z =>
        rw [List.cons_append, List.cons.injEq] at hy
        obtain ⟨rfl, rfl⟩ := hy
        rcases List.append_eq_append_iff.mp hz with ⟨u, -, rfl⟩ | ⟨u, rfl, hu⟩
        · exact absurd (by simp) hc
        · -- the literal lies behind the character
          cases u with
          | nil =>
            rw [List.nil_append] at hu
            exact absurd (by rw [← hu]; simp) hc
          | cons e u =>
            rw [List.cons_append, List.cons.injEq] at hu
            exact .inr ⟨u, y, by rw [hu.2]⟩
  · rintro (h | h)
    · exact h.trans (List.prefix_append a (c :: b)).isInfix
    · exact h.trans ⟨a ++ [c], [], by simp⟩

/-- A literal does not stand across two pieces when it lacks the first character of the second. -/
theorem infix_append_iff_of_head {w a b : Text} (hb : ∀ c, b.head? = some c → c ∉ w) :
    w <:+: a ++ b ↔ w <:+: a ∨ w <:+: b := by
  constructor
  · intro h
    cases b with
    | nil =>
      rw [List.append_nil] at h
      exact .inl h
    | cons c b => exact ((infix_append_cons_iff (hb c rfl) a b).mp h).imp_right List.infix_cons
  · rintro (h | h)
    · exact h.trans (List.prefix_append a b).isInfix
    · exact h.trans (List.suffix_append a b).isInfix

theorem infix_joinWith {w : Text} {c : Char} (hne : w ≠ []) (hc : c ∉ w) {pieces : List Text}
    (h : w <:+: joinWith [c] pieces) : ∃ piece ∈ pieces, w <:+: piece := by
  induction pieces with
  | nil => exact absurd (List.infix_nil.mp h) hne
  | cons piece rest ih =>
    by_cases hrest : rest = []
    · subst hrest
      exact ⟨piece, List.mem_cons_self, h⟩
    · rw [joinWith_cons hrest, List.append_assoc, List.singleton_append,
        infix_append_cons_iff hc] at h
      rcases h with h | h
      · exact ⟨piece, List.mem_cons_self, h⟩
      · obtain ⟨other, hother, hinfix⟩ := ih h
        exact ⟨other, List.mem_cons_of_mem _ hother, hinfix⟩

theorem infix_append_left_iff {w a : Text} (hne : w ≠ []) (ha : ∀ c ∈ a, c ∉ w) (s : Text) :
    w <:+: a ++ s ↔ w <:+: s := by
  induction a with
  | nil => rfl
  | cons c a ih =>
    obtain ⟨hc, ha⟩ := List.forall_mem_cons.mp ha
    have hsplit := infix_append_cons_iff hc [] (a ++ s)
    rw [List.nil_append, List.infix_nil] at hsplit
    rw [List.cons_append, hsplit, ih ha]
    exact or_iff_right hne

/-- Around a text there may be anything that the literal lacks. -/
theorem infix_surrounded_iff {w a b : Text} (hne : w ≠ []) (ha : ∀ c ∈ a, c ∉ w)
    (hb : ∀ c ∈ b, c ∉ w) (s : Text) : w <:+: a ++ (s ++ b) ↔ w <:+: s := by
  rw [infix_append_left_iff hne ha,
    infix_append_iff hne fun hmem => hb _ hmem (List.getLast_mem hne)]

/-- A literal without blanks stands in a text exactly when it stands in its trimmed form. -/
theorem infix_trim_iff {w : Text} (hne : w ≠ []) (hw : ∀ c ∈ w, isBlank c = false) (s : Text) :
    w <:+: trim s ↔ w <:+: s := by
  obtain ⟨a, b, ha, hb, hs, -⟩ := exists_trim s
  have hblank : ∀ {t : Text}, isBlankText t = true → ∀ c ∈ t, c ∉ w := by
    intro t ht c hc hmem
    have hc := isBlankText_iff.mp ht c hc
    rw [hw c hmem] at hc
    cases hc
  conv_rhs => rw [hs]
  exact (infix_surrounded_iff hne (hblank ha) (hblank hb) (trim s)).symm

/-! ## Replacing in pieces -/

theorem replaceAll_append {p q a s : Text}
    (h : ∀ x y, a = x ++ y → y ≠ [] → ¬ p <+: y ++ s) :
    replaceAll p q (a ++ s) = (a ++ (replaceAll p q s).1, (replaceAll p q s).2) := by
  induction a with
  | nil => rfl
  | cons c a ih =>
    have hhere : p.isPrefixOf (c :: (a ++ s)) = false := by
      rw [Bool.eq_false_iff, Ne, List.isPrefixOf_iff_prefix]
      exact h [] (c :: a) rfl (List.cons_ne_nil c a)
    have hrest := ih fun x y hxy hy => h (c :: x) y (by rw [hxy, List.cons_append]) hy
    rw [List.cons_append, replaceAll_cons_of_no_match hhere, hrest]
    rfl

theorem replaceAll_append_of_head {p q a s : Text} {c : Char} (hp : p.head? = some c) (ha : c ∉ a) :
    replaceAll p q (a ++ s) = (a ++ (replaceAll p q s).1, (replaceAll p q s).2) := by
  obtain ⟨p, rfl⟩ := List.head?_eq_some_iff.mp hp
  refine replaceAll_append fun x y hxy hy hprefix => ?_
  obtain ⟨d, y, rfl⟩ := List.exists_cons_of_ne_nil hy
  rw [List.cons_append, List.cons_prefix_cons] at hprefix
  exact ha (by rw [hxy, hprefix.1]; simp)

theorem replaceAll_prefix {p : Text} (hp : p ≠ []) (q s : Text) :
    replaceAll p q (p ++ s) = (q ++ (replaceAll p q s).1, (replaceAll p q s).2 + 1) := by
  obtain ⟨c, p, rfl⟩ := List.exists_cons_of_ne_nil hp
  have hhere : (c :: p).isPrefixOf (c :: (p ++ s)) = true := by
    rw [List.isPrefixOf_iff_prefix]
    exact List.prefix_append (c :: p) s
  have hdrop : (p ++ s).drop ((c :: p).length - 1) = s := List.drop_left
  rw [List.cons_append, replaceAll_cons_of_match hhere, hdrop]

/-- What holds of the empty text, of a text that begins with the literal when it holds of what follows
the literal, and of a text that does not when it holds of what follows the first character, holds of
every text. -/
theorem replaceAll_induction {p : Text} (hp : p ≠ []) {motive : Text → Prop} (nil : motive [])
    (found : ∀ s, motive s → motive (p ++ s))
    (passed : ∀ c s, p.isPrefixOf (c :: s) = false → motive s → motive (c :: s)) (s : Text) :
    motive s := by
  induction hn : s.length using Nat.strongRecOn generalizing s with
  | ind n ih =>
    cases s with
    | nil => exact nil
    | cons c s =>
      rw [List.length_cons] at hn
      cases hmatch : p.isPrefixOf (c :: s) with
      | true =>
        obtain ⟨rest, hrest⟩ := List.isPrefixOf_iff_prefix.mp hmatch
        have hlength := congrArg List.length hrest
        have hpos := List.length_pos_iff.mpr hp
        rw [List.length_append, List.length_cons] at hlength
        rw [← hrest]
        exact found rest (ih rest.length (by omega) rest rfl)
      | false => exact passed c s hmatch (ih s.length (by omega) s rfl)

end DumpConversion.Text
