import DumpConversion.Proofs.Dump.Quotes

/-! # String literals before and after the quotes are doubled

Two readers share a line character by character into what stands outside of string literals and what
opens, fills or closes one. For the writer of the dump a backslash inside a literal makes the next
character content; for the reader of the new line it is content itself. Both take two quotes in a row
inside a literal for content.

* `StringLiteral.roles`: what each character of a text is to a reader.
* `StringLiteral.Strays`: a backslash stands before a quote that it does not escape.
* `StringLiteral.roles_quoted_iff`: every character keeps its role exactly when no backslash strays.
* `doubleQuotes_literals`: what a line without stray backslashes keeps, and that no other does.
-/

namespace DumpConversion

set_option autoImplicit false

namespace StringLiteral

/-! ## Readers -/

/-- Whose rules a text is read by. -/
inductive Reader where
  | mysql
  | sqlite
  deriving DecidableEq

/-- Where a reader stands. At `paired` the next character is content, whatever it is. -/
inductive Place where
  | outside
  | inside
  | paired
  deriving DecidableEq

inductive Role where
  | plain
  | opening
  | content
  | closing
  deriving DecidableEq

variable (reader : Reader)

/-- What a character is at a place, by the character that follows, and the place behind it. -/
def step (place : Place) (c : Char) (next : Option Char) : Role × Place :=
  match place with
  | .outside => if c = '\'' then (.opening, .inside) else (.plain, .outside)
  | .inside =>
    if c = '\'' then if next = some '\'' then (.content, .paired) else (.closing, .outside)
    else if c = '\\' ∧ reader = .mysql then (.content, .paired)
    else (.content, .inside)
  | .paired => (.content, .inside)

/-- What every character of a text is. -/
def roles : Place → Text → List Role
  | _, [] => []
  | place, c :: s =>
    (step reader place c s.head?).1 :: roles (step reader place c s.head?).2 s

/-- The place behind a text. -/
def placeAfter : Place → Text → Place
  | place, [] => place
  | place, c :: s => placeAfter (step reader place c s.head?).2 s

/-- How many literals are opened on a line. -/
def count (line : Text) : Nat := (roles reader .outside line).count .opening

/-- Every literal of a line is closed again. -/
def Terminated (line : Text) : Prop :=
  (roles reader .outside line).count .closing = count reader line

instance (line : Text) : Decidable (Terminated reader line) := inferInstanceAs (Decidable (_ = _))

/-- Read on from a place, the text has a backslash before a quote, and not inside a literal, where
it would escape the quote. -/
def Strays (place : Place) (text : Text) : Prop :=
  ∃ before after, text = before ++ '\\' :: '\'' :: after ∧
    placeAfter .mysql place before ≠ .inside

/-! ## Steps -/

variable {reader : Reader} {place : Place} {c : Char} {next : Option Char} {s : Text}

@[simp] theorem step_outside_quote : step reader .outside '\'' next = (.opening, .inside) := rfl

theorem step_outside (h : c ≠ '\'') : step reader .outside c next = (.plain, .outside) := if_neg h

@[simp] theorem step_paired : step reader .paired c next = (.content, .inside) := rfl

theorem step_inside_pair (h : next = some '\'') :
    step reader .inside '\'' next = (.content, .paired) := if_pos h

theorem step_inside_closing (h : next ≠ some '\'') :
    step reader .inside '\'' next = (.closing, .outside) := if_neg h

theorem step_inside (h : c ≠ '\'') (hb : ¬ (c = '\\' ∧ reader = .mysql)) :
    step reader .inside c next = (.content, .inside) := by
  rw [step, if_neg h, if_neg hb]

theorem strays_cons :
    Strays place (c :: s) ↔ (c = '\\' ∧ s.head? = some '\'' ∧ place ≠ .inside) ∨
      Strays (step .mysql place c s.head?).2 s := by
  constructor
  · rintro ⟨before, after, heq, hplace⟩
    cases before with
    | nil =>
      obtain ⟨rfl, rfl⟩ := List.cons.inj heq
      exact .inl ⟨rfl, rfl, hplace⟩
    | cons d before =>
      obtain ⟨rfl, rfl⟩ := List.cons.inj heq
      refine .inr ⟨before, after, rfl, ?_⟩
      -- the step looks at the next character only to see whether it is a quote
      cases before with
      | nil => simpa [placeAfter, step] using hplace
      | cons => exact hplace
  · rintro (⟨rfl, hs, hplace⟩ | ⟨before, after, rfl, hplace⟩)
    · obtain ⟨after, rfl⟩ := List.head?_eq_some_iff.mp hs
      exact ⟨[], after, rfl, hplace⟩
    · refine ⟨c :: before, after, rfl, ?_⟩
      cases before with
      | nil => simpa [placeAfter, step] using hplace
      | cons => exact hplace

/-! ## Out of step -/

/-- In a run of quotes that one reader pairs one quote later than the other, the end of the run
closes the literal for one of them only. -/
theorem roles_ne_of_apart (h : (Line.quoted s).head? = some '\'') :
    (s.head? = some '\'' →
      roles .mysql .paired s ≠ roles .sqlite .inside (Line.quoted s)) ∧
    roles .mysql .inside s ≠ roles .sqlite .paired (Line.quoted s) := by
  induction s with
  | nil => cases h
  | cons c s ih =>
    refine ⟨fun hc => ?_, ?_⟩
    · obtain rfl : c = '\'' := Option.some.inj hc
      rw [Line.quoted_quote, roles, roles, step_paired]
      by_cases hs : (Line.quoted s).head? = some '\''
      · rw [step_inside_pair hs]
        simpa using (ih hs).2
      · rw [step_inside_closing hs]
        simp
    · rw [Line.quoted, roles, roles, step_paired]
      by_cases hs : s.head? = some '\''
      · have hquoted := Line.quoted_head?_eq_quote_iff.mpr (.inl hs)
        have hpaired : step .mysql .inside c s.head? = (.content, .paired) := by
          rcases Line.quoted_head?_eq_quote_iff.mp h with hc | hc
          · obtain rfl : c = '\'' := Option.some.inj hc
            exact step_inside_pair hs
          · obtain ⟨rfl, -⟩ := List.cons_prefix_cons.mp hc
            rfl
        rw [hpaired]
        simpa using (ih hquoted).1 hs
      · have hc : c = '\'' := by
          rcases Line.quoted_head?_eq_quote_iff.mp h with hc | ⟨t, ht⟩
          · exact Option.some.inj hc
          · exact absurd (by rw [← (List.cons.inj ht).2]; rfl) hs
        rw [hc, step_inside_closing hs]
        simp

/-! ## In step -/

/-- Where the two readers stand before a text and before the same text with its quotes doubled: at
one place, or the first alone behind a backslash that escapes no quote. -/
inductive Together : Place → Place → Text → Prop
  | outside (s : Text) : Together .outside .outside s
  | inside (s : Text) : Together .inside .inside s
  | pair (s : Text) : Together .paired .paired ('\'' :: s)
  | escape {s : Text} : s.head? ≠ some '\'' → Together .paired .inside s

/-- The two readers give a character one role, and are together again behind it. -/
def Agree (p q : Place) (c : Char) (s : Text) : Prop :=
  ∃ role p' q', step .mysql p c s.head? = (role, p') ∧
    step .sqlite q (if c = '\\' ∧ s.head? = some '\'' then '\'' else c) (Line.quoted s).head? =
      (role, q') ∧
    Together p' q' s

/-- Over a quote the readers stay together, unless it closes a literal right before a stray pair. -/
theorem Together.step_quote {p q : Place} (h : Together p q ('\'' :: s)) :
    Agree p q '\'' s ∨
      (p = .inside ∧ q = .inside ∧ s.head? ≠ some '\'' ∧ ['\\', '\''] <+: s) := by
  unfold Agree
  rw [ite_self]
  cases h with
  | outside => exact .inl ⟨_, _, _, rfl, rfl, .inside s⟩
  | pair => exact .inl ⟨_, _, _, rfl, rfl, .inside s⟩
  | escape hs => exact absurd rfl hs
  | inside =>
    by_cases hs : s.head? = some '\''
    · obtain ⟨t, rfl⟩ := List.head?_eq_some_iff.mp hs
      have hquoted := Line.quoted_head?_eq_quote_iff.mpr (.inl hs)
      exact .inl ⟨_, _, _, step_inside_pair hs, step_inside_pair hquoted, .pair t⟩
    · by_cases hstray : ['\\', '\''] <+: s
      · exact .inr ⟨rfl, rfl, hs, hstray⟩
      · have hquoted : (Line.quoted s).head? ≠ some '\'' := fun hq =>
          (Line.quoted_head?_eq_quote_iff.mp hq).elim hs hstray
        exact .inl ⟨_, _, _, step_inside_closing hs, step_inside_closing hquoted, .outside s⟩

/-- Over any other character the readers stay together, unless it is a stray backslash. -/
theorem Together.step_other {p q : Place} (h : Together p q (c :: s)) (hc : c ≠ '\'')
    (hfree : ¬ (c = '\\' ∧ s.head? = some '\'' ∧ p ≠ .inside)) : Agree p q c s := by
  unfold Agree
  by_cases hpair : c = '\\' ∧ s.head? = some '\''
  · obtain ⟨rfl, hs⟩ := hpair
    obtain ⟨t, rfl⟩ := List.head?_eq_some_iff.mp hs
    obtain rfl : p = .inside := by
      by_contra hp
      exact hfree ⟨rfl, hs, hp⟩
    cases h with
    | inside =>
      rw [if_pos ⟨rfl, hs⟩, Line.quoted_quote]
      exact ⟨_, _, _, rfl, rfl, .pair t⟩
  · rw [if_neg hpair]
    cases h with
    | outside => exact ⟨_, _, _, step_outside hc, step_outside hc, .outside s⟩
    | pair => exact absurd rfl hc
    | escape => exact ⟨_, _, _, rfl, step_inside hc (by simp), .inside s⟩
    | inside =>
      by_cases hb : c = '\\'
      · subst hb
        have hs : s.head? ≠ some '\'' := fun hs => hpair ⟨rfl, hs⟩
        exact ⟨_, _, _, rfl, step_inside hc (by simp), .escape hs⟩
      · exact ⟨_, _, _, step_inside hc (by simp [hb]), step_inside hc (by simp), .inside s⟩

/-- A backslash before a quote that it does not escape makes the readers differ. -/
theorem Together.roles_ne {p q : Place} (h : Together p q ('\\' :: s)) (hs : s.head? = some '\'')
    (hp : p ≠ .inside) : roles .mysql p ('\\' :: s) ≠ roles .sqlite q (Line.quoted ('\\' :: s)) := by
  have hquoted := Line.quoted_head?_eq_quote_iff.mpr (.inl hs)
  rw [Line.quoted, if_pos ⟨rfl, hs⟩, roles, roles]
  cases h with
  | outside => simp [step_outside]
  | inside => exact absurd rfl hp
  | escape =>
    rw [step_paired, step_inside_pair hquoted]
    simpa using (roles_ne_of_apart hquoted).2

theorem Together.roles_iff {p q : Place} (h : Together p q s) :
    roles .mysql p s = roles .sqlite q (Line.quoted s) ↔ ¬ Strays p s := by
  induction s generalizing p q with
  | nil =>
    have hnone : ¬ Strays p [] := by
      rintro ⟨before, after, heq, -⟩
      simp at heq
    exact iff_of_true rfl hnone
  | cons c s ih =>
    have hagree : Agree p q c s → ¬ (c = '\\' ∧ s.head? = some '\'' ∧ p ≠ .inside) →
        (roles .mysql p (c :: s) = roles .sqlite q (Line.quoted (c :: s)) ↔ ¬ Strays p (c :: s)) := by
      rintro ⟨role, p', q', hp, hq, hnext⟩ hfree
      rw [Line.quoted, roles, roles, strays_cons, hp, hq, List.cons.injEq, ih hnext]
      simp [hfree]
    by_cases hhere : c = '\\' ∧ s.head? = some '\'' ∧ p ≠ .inside
    · obtain ⟨rfl, hs, hp⟩ := hhere
      exact iff_of_false (h.roles_ne hs hp) (fun hn => hn (strays_cons.mpr (.inl ⟨rfl, hs, hp⟩)))
    · by_cases hc : c = '\''
      · subst hc
        rcases h.step_quote with hquote | ⟨rfl, rfl, hs, t, rfl⟩
        · exact hagree hquote hhere
        · -- one reader leaves the literal before the pair, the other goes on through it
          have hquoted := Line.quoted_head?_eq_quote_iff.mpr (.inr ⟨t, rfl⟩)
          have hstrays : Strays .outside (['\\', '\''] ++ t) :=
            ⟨[], t, rfl, by simp [placeAfter]⟩
          rw [Line.quoted_quote, roles, roles, strays_cons, step_inside_closing hs,
            step_inside_pair hquoted]
          exact iff_of_false (by simp) (fun hn => hn (.inr hstrays))
      · exact hagree (h.step_other hc hhere) hhere

/-- Every character keeps its role when the quotes are doubled exactly when no backslash stands
before a quote that it does not escape. -/
theorem roles_quoted_iff (line : Text) :
    roles .sqlite .outside (Line.quoted line) = roles .mysql .outside line ↔
      ¬ Strays .outside line := by
  rw [eq_comm]
  exact (Together.outside line).roles_iff

end StringLiteral

open StringLiteral

/-- With its quotes doubled, a line whose literals are terminated has the same literals in the same
places exactly when no backslash stands before a quote that it does not escape; and then it has as
many as before, all terminated. -/
theorem doubleQuotes_literals {line : Text} (hline : Terminated .mysql line) :
    (roles .sqlite .outside (Line.doubleQuotes line).1 = roles .mysql .outside line ↔
      ¬ Strays .outside line) ∧
    (¬ Strays .outside line → Terminated .sqlite (Line.doubleQuotes line).1 ∧
      count .sqlite (Line.doubleQuotes line).1 = count .mysql line) := by
  rw [Line.doubleQuotes_line]
  refine ⟨roles_quoted_iff line, fun hstrays => ?_⟩
  have hroles := (roles_quoted_iff line).mpr hstrays
  have hcount : count .sqlite (Line.quoted line) = count .mysql line :=
    congrArg (List.count Role.opening) hroles
  refine ⟨?_, hcount⟩
  rw [Terminated, hroles, hcount]
  exact hline

theorem doubleQuotes_literals_of_apostrophes :
    let line := "INSERT INTO \"t\" VALUES ('it\\'s','C:\\\\n');".toList
    Terminated .mysql line ∧ ¬ Strays .outside line ∧
      Terminated .sqlite (Line.doubleQuotes line).1 ∧ count .sqlite (Line.doubleQuotes line).1 = 2 := by
  intro line
  have hline : Terminated .mysql line := by decide
  obtain ⟨hiff, hkept⟩ := doubleQuotes_literals hline
  have hstrays : ¬ Strays .outside line := hiff.mp (by decide)
  obtain ⟨hterminated, hcount⟩ := hkept hstrays
  exact ⟨hline, hstrays, hterminated, hcount⟩

/-- A string that ends in a backslash is a terminated literal for the writer and an open one for the
reader of the new line. -/
theorem doubleQuotes_opens_literal :
    ¬ ∀ line, Terminated .mysql line →
      Terminated .sqlite (Line.doubleQuotes line).1 ∧
        count .sqlite (Line.doubleQuotes line).1 = count .mysql line := by
  intro h
  have hpath := h "INSERT INTO \"t\" VALUES ('C:\\\\');".toList (by decide)
  revert hpath
  decide

end DumpConversion
