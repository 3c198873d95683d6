import DumpConversion.Dump.Clause
import DumpConversion.Proofs.Text.Trimming

/-! # The shape of a naming clause

`Clause.rest?` finds a clause by dropping what it has read. Here the clause is a text of its own, so
that statements about lines can speak of the pieces that a line is put together from.

* `Clause.IsKeyword`: what the words of a keyword are made of; both clauses of a dump have it.
* `Clause.IsClause`: blanks, the words with blanks after each, a name.
* `Clause.rest?_eq_some_iff`: what stands at the front of a text when `rest?` finds a clause there.
-/

namespace DumpConversion

set_option autoImplicit false

namespace Clause

/-! ## Keywords -/

/-- The words of a keyword are not empty, and every character of them can stand in a name as well as
in a word. -/
structure IsKeyword (k : Clause) : Prop where
  words_ne : k.words ≠ []
  word_ne : ∀ w ∈ k.words, w ≠ []
  isNameChar : ∀ w ∈ k.words, ∀ c ∈ w, isNameChar c = true
  isWordChar : ∀ w ∈ k.words, ∀ c ∈ w, Text.isWordChar c = true

theorem isKeyword_of_all {k : Clause} (hne : k.words ≠ [])
    (hall : k.words.all (fun w => !w.isEmpty && w.all fun c => isNameChar c && Text.isWordChar c) =
      true) : k.IsKeyword := by
  have hword : ∀ w ∈ k.words, w ≠ [] ∧ ∀ c ∈ w, isNameChar c = true ∧ Text.isWordChar c = true := by
    intro w hw
    have h := List.all_eq_true.mp hall w hw
    rw [Bool.and_eq_true, List.all_eq_true] at h
    exact ⟨by simpa using h.1, fun c hc => by simpa using h.2 c hc⟩
  exact ⟨hne, fun w hw => (hword w hw).1, fun w hw c hc => ((hword w hw).2 c hc).1,
    fun w hw c hc => ((hword w hw).2 c hc).2⟩

theorem collate_isKeyword : collate.IsKeyword := isKeyword_of_all (by decide) (by decide +kernel)

theorem characterSet_isKeyword : characterSet.IsKeyword :=
  isKeyword_of_all (by decide) (by decide +kernel)

theorem isBlank_of_isNameChar {c : Char} (h : isNameChar c = true) : Text.isBlank c = false := by
  simp only [isNameChar, Bool.and_eq_true, Bool.not_eq_true'] at h
  exact h.1

/-! ## Words with blanks after them -/

/-- The text consists of the words in order, each with one or more blanks after it. -/
def SpacedWords : List Text → Text → Prop
  | [], m => m = []
  | w :: ws, m => ∃ b rest, m = w ++ (b ++ rest) ∧ b ≠ [] ∧ Text.isBlankText b = true ∧
      SpacedWords ws rest

theorem SpacedWords.exists_cons {ws : List Text} {m : Text} (h : SpacedWords ws m) (hws : ws ≠ [])
    (hne : ∀ w ∈ ws, w ≠ []) (hname : ∀ w ∈ ws, ∀ c ∈ w, isNameChar c = true) :
    ∃ c m', m = c :: m' ∧ isNameChar c = true := by
  cases ws with
  | nil => exact absurd rfl hws
  | cons w ws =>
    obtain ⟨b, rest, rfl, -, -, -⟩ := h
    obtain ⟨c, w', rfl⟩ := List.exists_cons_of_ne_nil (hne w (by simp))
    exact ⟨c, w' ++ (b ++ rest), by simp, hname _ (List.mem_cons_self ..) c (by simp)⟩

theorem afterWords_eq_some_iff {ws : List Text} {s r : Text} (hne : ∀ w ∈ ws, w ≠ [])
    (hname : ∀ w ∈ ws, ∀ c ∈ w, isNameChar c = true) :
    afterWords ws s = some r ↔
      ∃ m, s = m ++ r ∧ SpacedWords ws m ∧
        (ws ≠ [] → r.head?.all (fun c => !Text.isBlank c) = true) := by
  induction ws generalizing s with
  | nil => simp [afterWords, SpacedWords]
  | cons w ws ih =>
    have ih' := fun t => @ih t (fun v hv => hne v (by simp [hv]))
      (fun v hv => hname v (by simp [hv]))
    constructor
    · intro h
      rw [afterWords] at h
      split at h
      · next hcond =>
        rw [Bool.and_eq_true, List.isPrefixOf_iff_prefix] at hcond
        obtain ⟨⟨s1, rfl⟩, hblank⟩ := hcond
        rw [List.drop_left] at h hblank
        obtain ⟨b, hb, hs1, hbne, hhead⟩ := Text.exists_blanks_trimStart s1
        obtain ⟨m, hm, hspaced, hr⟩ := (ih' _).mp h
        refine ⟨w ++ (b ++ m), ?_, ⟨b, m, rfl, hbne hblank, hb, hspaced⟩, fun _ => ?_⟩
        · rw [List.append_assoc, List.append_assoc, ← hm, ← hs1]
        · by_cases hws : ws = []
          · subst hws
            have hm' : m = [] := hspaced
            subst hm'
            rw [List.nil_append] at hm
            rwa [hm] at hhead
          · exact hr hws
      · cases h
    · rintro ⟨m, rfl, ⟨b, rest, rfl, hbne, hb, hspaced⟩, hr⟩
      have hhead : (rest ++ r).head?.all (fun c => !Text.isBlank c) = true := by
        by_cases hws : ws = []
        · subst hws
          have hrest : rest = [] := hspaced
          subst hrest
          exact hr (by simp)
        · obtain ⟨c, m', rfl, hc⟩ := hspaced.exists_cons hws (fun v hv => hne v (by simp [hv]))
            (fun v hv => hname v (by simp [hv]))
          simp [isBlank_of_isNameChar hc]
      have hdrop : (w ++ (b ++ rest) ++ r).drop w.length = b ++ (rest ++ r) := by
        rw [List.append_assoc, List.drop_left, List.append_assoc]
      have hblank : (b ++ (rest ++ r)).head?.any Text.isBlank = true := by
        obtain ⟨c, b', rfl⟩ := List.exists_cons_of_ne_nil hbne
        have hc := Text.isBlankText_iff.mp hb c (by simp)
        simp [hc]
      rw [afterWords, hdrop, hblank, if_pos (by simp), Text.trimStart_append hb hhead]
      exact (ih' _).mpr ⟨rest, rfl, hspaced, fun hws => by
        obtain ⟨c, m', rfl, hc⟩ := hspaced.exists_cons hws (fun v hv => hne v (by simp [hv]))
          (fun v hv => hname v (by simp [hv]))
        exact hr (by simp)⟩

/-! ## Clauses -/

/-- The text begins with no character of a name. -/
def EndsName (s : Text) : Prop := s.head?.all (fun c => !isNameChar c) = true

@[simp] theorem endsName_nil : EndsName [] := rfl

@[simp] theorem endsName_cons {c : Char} {s : Text} : EndsName (c :: s) ↔ isNameChar c = false := by
  simp [EndsName]

theorem afterName_eq_some_iff {s r : Text} :
    afterName s = some r ↔
      ∃ name, s = name ++ r ∧ name ≠ [] ∧ (∀ c ∈ name, isNameChar c = true) ∧ EndsName r := by
  constructor
  · intro h
    rw [afterName] at h
    split at h
    · next hhead =>
      cases h
      refine ⟨s.takeWhile isNameChar, List.takeWhile_append_dropWhile.symm, ?_, ?_, ?_⟩
      · cases s with
        | nil => simp at hhead
        | cons c s =>
          have hc : isNameChar c = true := by simpa using hhead
          simp [List.takeWhile_cons_of_pos hc]
      · exact List.all_eq_true.mp List.all_takeWhile
      · cases h : s.dropWhile isNameChar with
        | nil => exact endsName_nil
        | cons c rest =>
          have hc := List.head_dropWhile_not isNameChar (l := s) (by simp [h])
          rw [endsName_cons]
          simpa [h] using hc
    · cases h
  · rintro ⟨name, rfl, hne, hname, hr⟩
    obtain ⟨c, name', rfl⟩ := List.exists_cons_of_ne_nil hne
    have hdrop : r.dropWhile isNameChar = r := by
      cases r with
      | nil => rfl
      | cons d r =>
        rw [endsName_cons] at hr
        rw [List.dropWhile_cons_of_neg (by simp [hr])]
    have hc := hname c (by simp)
    rw [afterName, if_pos (by simp [hc]), List.dropWhile_append_of_pos hname, hdrop]

/-- A clause as a text: blanks, the words of its keyword with blanks after each, a name. -/
def IsClause (k : Clause) (m : Text) : Prop :=
  ∃ b words name, m = b ++ (words ++ name) ∧ Text.isBlankText b = true ∧
    SpacedWords k.words words ∧ name ≠ [] ∧ ∀ c ∈ name, isNameChar c = true

theorem IsClause.ne_nil {k : Clause} {m : Text} (h : k.IsClause m) : m ≠ [] := by
  obtain ⟨b, words, name, rfl, -, -, hname, -⟩ := h
  simp [hname]

/-- The keyword begins a word: blanks stand before it, or the text before it ends no word. -/
def StartsWord (previous : Option Char) (m : Text) : Prop :=
  m.head?.any Text.isBlank = true ∨ startsWord previous = true

theorem rest?_eq_some_iff {k : Clause} (hk : k.IsKeyword) {p : Option Char} {s r : Text} :
    k.rest? p s = some r ↔
      ∃ m, s = m ++ r ∧ k.IsClause m ∧ EndsName r ∧ StartsWord p m := by
  have hwords := fun t => @afterWords_eq_some_iff k.words s.trimStart t hk.word_ne hk.isNameChar
  constructor
  · intro h
    rw [rest?] at h
    split at h
    · next rest hbody =>
      split at h
      · next hstart =>
        cases h
        obtain ⟨t, hafter, hafterName⟩ := Option.bind_eq_some_iff.mp hbody
        obtain ⟨words, htrim, hspaced, -⟩ := (hwords t).mp hafter
        obtain ⟨name, rfl, hname, hnameChar, hr⟩ := afterName_eq_some_iff.mp hafterName
        obtain ⟨b, hb, hs, -, -⟩ := Text.exists_blanks_trimStart s
        have hm : s = b ++ (words ++ name) ++ r := by
          rw [hs, htrim]
          simp only [List.append_assoc]
        have hclause : k.IsClause (b ++ (words ++ name)) :=
          ⟨b, words, name, rfl, hb, hspaced, hname, hnameChar⟩
        refine ⟨_, hm, hclause, hr, ?_⟩
        rw [hm, List.head?_append_of_ne_nil _ hclause.ne_nil, Bool.or_eq_true] at hstart
        exact hstart
      · cases h
    · cases h
  · rintro ⟨m, rfl, hclause, hr, hstart⟩
    obtain ⟨b, words, name, rfl, hb, hspaced, hname, hnameChar⟩ := hclause
    obtain ⟨c, words', rfl, hc⟩ := hspaced.exists_cons hk.words_ne hk.word_ne hk.isNameChar
    have htrim : Text.trimStart (b ++ (c :: words' ++ name) ++ r) = c :: words' ++ (name ++ r) := by
      rw [List.append_assoc, Text.trimStart_append hb (by simp [isBlank_of_isNameChar hc])]
      simp
    have hhead : (name ++ r).head?.all (fun c => !Text.isBlank c) = true := by
      obtain ⟨d, name', rfl⟩ := List.exists_cons_of_ne_nil hname
      simp [isBlank_of_isNameChar (hnameChar d (by simp))]
    have hafter := (@afterWords_eq_some_iff k.words (c :: words' ++ (name ++ r)) (name ++ r)
      hk.word_ne hk.isNameChar).mpr ⟨_, rfl, hspaced, fun _ => hhead⟩
    have hname' := afterName_eq_some_iff.mpr ⟨name, rfl, hname, hnameChar, hr⟩
    have hne : b ++ (c :: words' ++ name) ≠ [] := by simp
    rw [rest?, htrim, hafter, Option.bind_some, hname', List.head?_append_of_ne_nil _ hne]
    simp only
    rw [if_pos (by rw [Bool.or_eq_true]; exact hstart)]

/-! ## Characters that are not told apart -/

/-- The function maps no character to one that a clause tells apart from it. -/
structure Blind (k : Clause) (f : Char → Char) : Prop where
  isBlank : ∀ c, Text.isBlank (f c) = Text.isBlank c
  isNameChar : ∀ c, isNameChar (f c) = isNameChar c
  isWordChar : ∀ c, Text.isWordChar (f c) = Text.isWordChar c
  word : ∀ w ∈ k.words, ∀ x ∈ w, ∀ c, f c = x ↔ c = x

theorem prefix_map_iff {f : Char → Char} {w : Text} (hw : ∀ x ∈ w, ∀ c, f c = x ↔ c = x)
    (s : Text) : w <+: s.map f ↔ w <+: s := by
  induction w generalizing s with
  | nil => simp
  | cons x w ih =>
    cases s with
    | nil => simp
    | cons c s =>
      obtain ⟨hx, hw⟩ := List.forall_mem_cons.mp hw
      rw [List.map_cons, List.cons_prefix_cons, List.cons_prefix_cons, ih hw, eq_comm, hx, eq_comm]

theorem infix_map_iff {f : Char → Char} {w : Text} (hw : ∀ x ∈ w, ∀ c, f c = x ↔ c = x)
    (s : Text) : w <:+: s.map f ↔ w <:+: s := by
  induction s with
  | nil => simp
  | cons c s ih =>
    rw [List.map_cons, List.infix_cons_iff, List.infix_cons_iff, ih, ← List.map_cons,
      prefix_map_iff hw]

theorem head?_any_map {f : Char → Char} {p : Char → Bool} (h : ∀ c, p (f c) = p c) (s : Text) :
    (s.map f).head?.any p = s.head?.any p := by
  cases s with
  | nil => rfl
  | cons c s => simp [h]

theorem dropWhile_map_of_forall {f : Char → Char} {p : Char → Bool} (h : ∀ c, p (f c) = p c)
    (s : Text) : (s.map f).dropWhile p = (s.dropWhile p).map f := by
  have hp : p ∘ f = p := funext h
  rw [List.dropWhile_map, hp]

theorem afterWords_map {f : Char → Char} (hblank : ∀ c, Text.isBlank (f c) = Text.isBlank c)
    {ws : List Text} (hws : ∀ w ∈ ws, ∀ x ∈ w, ∀ c, f c = x ↔ c = x) (s : Text) :
    afterWords ws (s.map f) = (afterWords ws s).map (List.map f) := by
  induction ws generalizing s with
  | nil => rfl
  | cons w ws ih =>
    obtain ⟨hw, hws⟩ := List.forall_mem_cons.mp hws
    have hpre : w.isPrefixOf (s.map f) = w.isPrefixOf s := by
      rw [Bool.eq_iff_iff, List.isPrefixOf_iff_prefix, List.isPrefixOf_iff_prefix,
        prefix_map_iff hw]
    rw [afterWords, afterWords, hpre, ← List.map_drop, head?_any_map hblank]
    split
    · rw [Text.trimStart, dropWhile_map_of_forall hblank]
      exact ih hws _
    · rfl

theorem Blind.rest?_map {k : Clause} {f : Char → Char} (h : k.Blind f) (p : Option Char)
    (s : Text) :
    k.rest? (p.map f) (s.map f) = (k.rest? p s).map (List.map f) := by
  have htrim : Text.trimStart (s.map f) = (Text.trimStart s).map f :=
    dropWhile_map_of_forall h.isBlank s
  have hname : ∀ t : Text, afterName (t.map f) = (afterName t).map (List.map f) := by
    intro t
    rw [afterName, afterName, head?_any_map h.isNameChar, dropWhile_map_of_forall h.isNameChar]
    split <;> rfl
  have hstart : startsWord (p.map f) = startsWord p := by
    cases p with
    | none => rfl
    | some c => simp [startsWord, h.isWordChar]
  rw [rest?, rest?, htrim, afterWords_map h.isBlank h.word, head?_any_map h.isBlank, hstart]
  cases afterWords k.words (Text.trimStart s) with
  | none => rfl
  | some t =>
    simp only [Option.map_some, Option.bind_some, hname]
    cases afterName t with
    | none => rfl
    | some r =>
      simp only [Option.map_some]
      split <;> rfl

theorem Blind.occurs_map {k : Clause} {f : Char → Char} (h : k.Blind f) (line : Text) :
    k.occurs (line.map f) = k.occurs line := by
  have hafter : ∀ (s : Text) (p : Option Char),
      k.occursAfter (p.map f) (s.map f) = k.occursAfter p s := by
    intro s
    induction s with
    | nil => intro p; rfl
    | cons c s ih =>
      intro p
      have hrest := h.rest?_map p (c :: s)
      rw [List.map_cons] at hrest ⊢
      rw [occursAfter, occursAfter, hrest, Option.isSome_map]
      exact congrArg _ (ih (some c))
  exact hafter line none

end Clause
end DumpConversion
