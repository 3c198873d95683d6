import DumpConversion.Proofs.Dump.ClauseFree

/-! # Clauses as they are written

A clause in its written form: a space, the words of its keyword with a space after each, and a name.
Taken from between two pieces of a line that hold no keyword, it leaves the pieces.

* `Clause.phrase`, `Clause.optional`: the written form of a clause, and of one that may be absent.
* `Clause.strip_optional`: what is left when a clause is taken off a line.
-/

namespace DumpConversion.Clause

set_option autoImplicit false

/-- The clause with the given name, with a space before it. -/
def phrase (k : Clause) (name : Text) : Text := ' ' :: (k.words.flatMap (· ++ [' ']) ++ name)

/-- The clause, unless there is none. -/
def optional (k : Clause) : Option Text → Text
  | some name => k.phrase name
  | none => []

/-- A name that ends where a blank or a delimiter stands. -/
structure IsName (name : Text) : Prop where
  ne_nil : name ≠ []
  isNameChar : ∀ c ∈ name, isNameChar c = true

/-! ## The keyword in a clause -/

theorem spacedWords_flatMap (ws : List Text) : SpacedWords ws (ws.flatMap (· ++ [' '])) := by
  induction ws with
  | nil => rfl
  | cons w ws ih =>
    exact ⟨[' '], ws.flatMap (· ++ [' ']), by simp, List.cons_ne_nil _ _, by decide, ih⟩

theorem isClause_phrase (k : Clause) {name : Text} (h : IsName name) : k.IsClause (k.phrase name) :=
  ⟨[' '], k.words.flatMap (· ++ [' ']), name, rfl, by decide, spacedWords_flatMap k.words, h.ne_nil,
    h.isNameChar⟩

section

variable {k : Clause} {w : Text} {ws : List Text} {a r : Text}

theorem IsClause.exists_word {m : Text} (h : k.IsClause m) (hw : k.words = w :: ws) :
    ∃ b t, Text.isBlankText b = true ∧ m = b ++ (w ++ t) := by
  obtain ⟨b, words, name, rfl, hb, hspaced, -, -⟩ := h
  rw [hw] at hspaced
  obtain ⟨gap, rest, rfl, -, -, -⟩ := hspaced
  exact ⟨b, gap ++ rest ++ name, hb, by simp only [List.append_assoc]⟩

/-- Without the first word of its keyword no clause is found. -/
theorem occursAfter_of_absent (hk : k.IsKeyword) (hw : k.words = w :: ws) {s : Text}
    (h : ¬ w <:+: s) (p : Option Char) : k.occursAfter p s = false := by
  rw [occursAfter_eq_false_iff]
  intro x y hxy _
  by_contra hne
  obtain ⟨r, hr⟩ := Option.ne_none_iff_exists'.mp hne
  obtain ⟨m, rfl, hm, -, -⟩ := (rest?_eq_some_iff hk).mp hr
  obtain ⟨b, t, -, rfl⟩ := hm.exists_word hw
  exact h ⟨x ++ b, t ++ r, by rw [hxy]; simp only [List.append_assoc]⟩

/-- The keyword does not stand in the text, and does not begin at its end either. -/
structure Precedes (w a : Text) : Prop where
  not_infix : ¬ w <:+: a
  last : ∀ c, a.getLast? = some c → Text.isBlank c = false ∧ c ∉ w

theorem Precedes.rest?_eq_none (ha : Precedes w a) (hk : k.IsKeyword) (hw : k.words = w :: ws)
    {p : Option Char} {x y t : Text} (hxy : a = x ++ y) (hy : y ≠ []) :
    k.rest? p (y ++ t) = none := by
  by_contra hne
  obtain ⟨r, hr⟩ := Option.ne_none_iff_exists'.mp hne
  obtain ⟨m, hm, hclause, -, -⟩ := (rest?_eq_some_iff hk).mp hr
  obtain ⟨b, u, hb, rfl⟩ := hclause.exists_word hw
  obtain ⟨y, c, rfl⟩ := (List.eq_nil_or_concat y).resolve_left hy
  obtain ⟨hblank, hword⟩ := ha.last c (by rw [hxy]; simp)
  rw [List.append_assoc] at hm
  rcases List.append_eq_append_iff.mp hm with ⟨z, rfl, -⟩ | ⟨z, hz, hrest⟩
  · -- the blanks before the keyword would reach over the last character
    have hc := Text.isBlankText_iff.mp hb c (by simp)
    rw [hblank] at hc
    cases hc
  · rw [List.append_assoc] at hrest
    rcases List.append_eq_append_iff.mp hrest with ⟨v, hv, -⟩ | ⟨v, rfl, -⟩
    · exact ha.not_infix ⟨x ++ b, v, by rw [hxy, hz, hv]; simp⟩
    · -- the last character would lie inside the keyword
      rcases List.eq_nil_or_concat z with rfl | ⟨z, d, rfl⟩
      · have hc := Text.isBlankText_iff.mp hb c (by rw [List.append_nil] at hz; rw [← hz]; simp)
        rw [hblank] at hc
        cases hc
      · rw [List.concat_eq_append, List.concat_eq_append, ← List.append_assoc] at hz
        have hcd : c = d := by simpa using (List.append_inj' hz rfl).2
        exact hword (by rw [hcd]; simp)

theorem strip_phrase (hk : k.IsKeyword) (hw : k.words = w :: ws) (ha : Precedes w a) {name : Text}
    (hname : IsName name) (hend : EndsName r) (hr : ¬ w <:+: r) :
    k.strip (a ++ (k.phrase name ++ r)) = (a ++ r, 1) := by
  have hcut : FirstCut k none a (k.phrase name) r :=
    ⟨isClause_phrase k hname, hend, .inl rfl, fun _ _ hxy hy => ha.rest?_eq_none hk hw hxy hy⟩
  rw [strip, hcut.stripFrom hk, stripFrom_eq_self (occursAfter_of_absent hk hw hr _)]

theorem strip_absent (hk : k.IsKeyword) (hw : k.words = w :: ws) (ha : ¬ w <:+: a)
    (hend : EndsName r) (hr : ¬ w <:+: r) : k.strip (a ++ r) = (a ++ r, 0) := by
  have hword : ∀ c ∈ w, Clause.isNameChar c = true := hk.isNameChar w (by simp [hw])
  have hnone : ¬ w <:+: a ++ r := fun h => (infix_append_of_endsName hword hend h).elim ha hr
  rw [strip, stripFrom_eq_self (occursAfter_of_absent hk hw hnone _)]

/-- Between two pieces without a keyword, a clause that may be there is taken off. -/
theorem strip_optional (hk : k.IsKeyword) (hw : k.words = w :: ws) (ha : Precedes w a)
    {name : Option Text} (hname : ∀ n ∈ name, IsName n) (hend : EndsName r) (hr : ¬ w <:+: r) :
    (k.strip (a ++ (k.optional name ++ r))).1 = a ++ r := by
  cases name with
  | none => exact congrArg Prod.fst (strip_absent hk hw ha.not_infix hend hr)
  | some n => exact congrArg Prod.fst (strip_phrase hk hw ha (hname n rfl) hend hr)

end

end DumpConversion.Clause
