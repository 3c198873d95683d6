import DumpConversion.Proofs.Dialect.Definitions

/-! # The lines that insert rows

What the rules make of an insertion. Its names and values are set apart by characters that no keyword
has, so a keyword on the line would lie within one of them.

* `insertionOf`: an insertion of rows whose values are already written.
* `Doubles`: a piece of a line in which doubling the quotes can be done by itself.
* `Written`: a value in both dialects, whatever its kind.
* `kept_insertionOf`, `Table.kept_insertion`: an insertion comes out with its quotes doubled.
-/

namespace DumpConversion.Dialect

set_option autoImplicit false

/-! ## Words on the line -/

/-- A row whose values are already written. -/
def rowOf (values : List Text) : Text := '(' :: (Text.joinWith [','] values ++ [')'])

/-- The line that inserts rows. -/
def insertionOf (name : Name) (rows : List (List Text)) : Text :=
  "INSERT INTO ".toList ++ (name.quoted ++
    (" VALUES ".toList ++ (Text.joinWith [','] (rows.map rowOf) ++ [';'])))

theorem Table.insertion_eq (t : Table) (quote : Text) (rows : List Row) :
    t.insertion quote rows = insertionOf t.name (rows.map (List.map (Value.text quote))) := by
  have hrows : rowText quote = rowOf ∘ List.map (Value.text quote) := rfl
  unfold Table.insertion insertionOf
  rw [List.map_map, hrows]

/-- What a value says: its numeral, or the characters of its string. -/
def Value.content : Value → Text
  | integer n => numeral n
  | string s => s.text

theorem isDigit_of_mem_numeral {n : Int} {c : Char} (h : c ∈ numeral n) :
    c.isDigit = true ∨ c = '-' := by
  have hdecimal : ∀ {m : Nat}, c ∈ Text.decimal m → c.isDigit = true :=
    fun hc => Nat.isDigit_of_mem_toDigits (by decide) (by decide) hc
  cases n with
  | ofNat m => exact .inl (hdecimal h)
  | negSucc m =>
    rcases List.mem_cons.mp h with rfl | h
    · exact .inr rfl
    · exact .inl (hdecimal h)

section

variable {quote w : Text}

theorem prefix_withQuotes (hquote : quote ≠ []) (hw : ∀ c ∈ quote, c ∉ w) {s : Text}
    (h : w <+: withQuotes quote s) : w <+: s := by
  induction w generalizing s with
  | nil => exact List.nil_prefix
  | cons c w ih =>
    have htail : ∀ d ∈ quote, d ∉ w := fun d hd hm => hw d hd (List.mem_cons_of_mem c hm)
    cases s with
    | nil => exact absurd (List.prefix_nil.mp h) (List.cons_ne_nil c w)
    | cons d s =>
      rw [withQuotes] at h
      split at h
      · obtain ⟨e, quote, rfl⟩ := List.exists_cons_of_ne_nil hquote
        rw [List.cons_append, List.cons_prefix_cons] at h
        exact absurd (by rw [h.1]; exact List.mem_cons_self) (hw e List.mem_cons_self)
      · rw [List.singleton_append, List.cons_prefix_cons] at h
        exact List.cons_prefix_cons.mpr ⟨h.1, ih htail h.2⟩

/-- A word without quotes that stands in a quoted string stands in the string. -/
theorem infix_withQuotes (hquote : quote ≠ []) (hne : w ≠ []) (hw : ∀ c ∈ quote, c ∉ w) {s : Text}
    (h : w <:+: withQuotes quote s) : w <:+: s := by
  induction s with
  | nil => exact h
  | cons d s ih =>
    by_cases hd : d = '\''
    · rw [withQuotes, if_pos hd, Text.infix_append_left_iff hne hw] at h
      exact List.infix_cons (ih h)
    · rw [withQuotes, if_neg hd, List.singleton_append, List.infix_cons_iff] at h
      rcases h with h | h
      · have hword : w <+: withQuotes quote (d :: s) := by
          rw [withQuotes, if_neg hd, List.singleton_append]
          exact h
        exact (prefix_withQuotes hquote hw hword).isInfix
      · exact List.infix_cons (ih h)

/-- The characters between the words of an insertion, and those that a quote is written with. -/
def separators : Text := "\"'\\(),;".toList

theorem forall_separators_not_mem (h : separators.all (fun d => !w.contains d) = true) :
    ∀ d ∈ separators, d ∉ w := fun d hd => by simpa using List.all_eq_true.mp h d hd

theorem infix_value (hne : w ≠ []) (hw : ∀ c ∈ separators, c ∉ w) {v : Value}
    (h : w <:+: v.text Line.backslashQuote) : w <:+: v.content := by
  cases v with
  | integer n => exact h
  | string s =>
    have hletters : Line.backslashQuote ⊆ separators := by decide
    have hescape : ∀ c ∈ Line.backslashQuote, c ∉ w := fun c hc => hw c (hletters hc)
    have hquote : ∀ c ∈ ['\''], c ∉ w := List.forall_mem_singleton.mpr (hw _ (by decide))
    have hstring := (Text.infix_surrounded_iff hne hquote hquote _).mp h
    exact infix_withQuotes (by decide) hne hescape hstring

/-- Without a character that no numeral has, only a string could hold a word. -/
theorem not_infix_value {c : Char} (hc : c ∈ w) (hletter : c.isDigit = false ∧ c ≠ '-')
    (hw : separators.all (fun d => !w.contains d) = true)
    (hstring : ∀ s : PlainString, ¬ w <:+: s.text) (v : Value) :
    ¬ w <:+: v.text Line.backslashQuote := by
  intro h
  have hcontent := infix_value (List.ne_nil_of_mem hc) (forall_separators_not_mem hw) h
  cases v with
  | integer n =>
    rcases isDigit_of_mem_numeral (hcontent.subset hc) with hd | hd
    · rw [hletter.1] at hd
      cases hd
    · exact hletter.2 hd
  | string s => exact hstring s hcontent

theorem infix_rowOf (hne : w ≠ []) (hw : ∀ c ∈ separators, c ∉ w) {row : List Text}
    (h : w <:+: rowOf row) : ∃ v ∈ row, w <:+: v := by
  have hvalues := (Text.infix_surrounded_iff hne (List.forall_mem_singleton.mpr (hw '(' (by decide)))
    (List.forall_mem_singleton.mpr (hw ')' (by decide))) _).mp h
  exact Text.infix_joinWith hne (hw ',' (by decide)) hvalues

theorem head?_rows {rows : List (List Text)} {c : Char}
    (h : (Text.joinWith [','] (rows.map rowOf) ++ [';']).head? = some c) : c ∈ separators := by
  cases rows with
  | nil =>
    cases h
    decide
  | cons row rows =>
    cases rows <;> cases h <;> decide

/-- A word stands on an insertion only within one of its fixed words, its name or its values. -/
theorem infix_insertionOf (name : Name) (hne : w ≠ []) (hw : ∀ c ∈ separators, c ∉ w)
    {rows : List (List Text)} (h : w <:+: insertionOf name rows) :
    (w <:+: "INSERT INTO ".toList ∨ w <:+: name.text ∨ w <:+: " VALUES ".toList) ∨
      ∃ row ∈ rows, ∃ v ∈ row, w <:+: v := by
  have hmark := hw '"' (by decide)
  -- the quotes around the name and the first parenthesis cut the line into its words
  have hsplit := (Text.infix_append_iff_of_head fun c hc => by
    rw [name.quoted_append] at hc
    cases hc
    exact hmark).mp h
  rw [name.quoted_append, ← List.nil_append (_ :: _), Text.infix_append_cons_iff hmark,
    Text.infix_append_cons_iff hmark,
    Text.infix_append_iff_of_head fun c hc => hw c (head?_rows hc)] at hsplit
  rcases hsplit with h | h | h | h | h
  · exact .inl (.inl h)
  · exact absurd (List.infix_nil.mp h) hne
  · exact .inl (.inr (.inl h))
  · exact .inl (.inr (.inr h))
  · have hrows := (Text.infix_surrounded_iff (a := []) hne (List.forall_mem_nil _)
      (List.forall_mem_singleton.mpr (hw ';' (by decide))) _).mp h
    obtain ⟨piece, hpiece, hinfix⟩ := Text.infix_joinWith hne (hw ',' (by decide)) hrows
    obtain ⟨row, hrow, rfl⟩ := List.mem_map.mp hpiece
    exact .inr ⟨row, hrow, infix_rowOf hne hw hinfix⟩

/-- Without a character that no name has, only a value could hold a word. -/
theorem not_infix_insertionOf (name : Name) {c : Char} (hc : c ∈ w) (hletter : c ∉ nameLetters)
    (hw : separators.all (fun d => !w.contains d) = true)
    (hfixed : ¬ w <:+: "INSERT INTO ".toList ∧ ¬ w <:+: " VALUES ".toList)
    {rows : List (List Text)} (hvalues : ∀ row ∈ rows, ∀ v ∈ row, ¬ w <:+: v) :
    ¬ w <:+: insertionOf name rows := by
  intro h
  rcases infix_insertionOf name (List.ne_nil_of_mem hc) (forall_separators_not_mem hw) h with
    (h | h | h) | ⟨row, hrow, v, hv, h⟩
  · exact hfixed.1 h
  · exact hletter (name.letters (h.subset hc))
  · exact hfixed.2 h
  · exact hvalues row hrow v hv h

theorem not_mem_iff_not_infix {c : Char} {s : Text} : c ∉ s ↔ ¬ [c] <:+: s := by
  rw [not_iff_not]
  constructor
  · intro h
    obtain ⟨a, b, rfl⟩ := List.append_of_mem h
    exact ⟨a, b, by rw [List.append_assoc, List.singleton_append]⟩
  · exact fun h => h.subset List.mem_cons_self

end

/-! ## Doubling quotes piece by piece -/

/-- Wherever the first text stands, doubling the quotes turns it into the second and goes on behind
it. -/
def Doubles (a b : Text) : Prop := ∀ s, Line.quoted (a ++ s) = b ++ Line.quoted s

theorem doubles_of_no_backslash {a : Text} (ha : '\\' ∉ a) : Doubles a a := by
  intro s
  induction a with
  | nil => rfl
  | cons c a ih =>
    rw [List.mem_cons, not_or] at ha
    rw [List.cons_append, Line.quoted, if_neg fun h => ha.1 h.1.symm, ih ha.2, List.cons_append]

theorem Doubles.append {a b c d : Text} (hab : Doubles a b) (hcd : Doubles c d) :
    Doubles (a ++ c) (b ++ d) := by
  intro s
  rw [List.append_assoc, hab, hcd, List.append_assoc]

theorem doubles_joinWith {α : Type} {f g : α → Text} (l : List α) (h : ∀ x ∈ l, Doubles (f x) (g x)) :
    Doubles (Text.joinWith [','] (l.map f)) (Text.joinWith [','] (l.map g)) := by
  induction l with
  | nil => exact doubles_of_no_backslash List.not_mem_nil
  | cons x l ih =>
    obtain ⟨hx, hl⟩ := List.forall_mem_cons.mp h
    cases l with
    | nil => exact hx
    | cons y l => exact (hx.append (doubles_of_no_backslash (by decide))).append (ih hl)

theorem doubles_withQuotes {s : Text} (hs : '\\' ∉ s) :
    Doubles (withQuotes Line.backslashQuote s) (withQuotes Line.quotePair s) := by
  have hquote : Doubles Line.backslashQuote Line.quotePair := by
    intro s
    rw [Line.backslashQuote, List.cons_append, List.cons_append, List.nil_append, Line.quoted,
      if_pos ⟨rfl, rfl⟩, Line.quoted_quote]
    rfl
  induction s with
  | nil => exact doubles_of_no_backslash List.not_mem_nil
  | cons c s ih =>
    rw [List.mem_cons, not_or] at hs
    rw [withQuotes, withQuotes]
    split
    · exact hquote.append (ih hs.2)
    · exact (doubles_of_no_backslash (by simpa using hs.1)).append (ih hs.2)

theorem doubles_value (v : Value) : Doubles (v.text Line.backslashQuote) (v.text Line.quotePair) := by
  cases v with
  | integer n =>
    refine doubles_of_no_backslash fun h => ?_
    rcases isDigit_of_mem_numeral h with hd | hd <;> exact absurd hd (by decide)
  | string s =>
    have hmark : Doubles ['\''] ['\''] := doubles_of_no_backslash (by decide)
    exact hmark.append ((doubles_withQuotes s.no_backslash).append hmark)

/-! ## Insertions -/

/-- A value as a dump writes it, in which no rule finds anything but quotes, and as the target
reads it. -/
structure Written (dumped translated : Text) : Prop where
  doubles : Doubles dumped translated
  no_newline : ¬ ['\n'] <:+: dumped
  no_return : ¬ ['\r'] <:+: dumped
  no_key : ¬ Line.keyWord <:+: dumped
  no_unsigned : ¬ Line.unsignedQualifier <:+: dumped
  no_collate : ¬ "COLLATE".toList <:+: dumped
  no_character : ¬ "CHARACTER".toList <:+: dumped

theorem Written.value (v : Value) : Written (v.text Line.backslashQuote) (v.text Line.quotePair) where
  doubles := doubles_value v
  no_newline := not_infix_value (c := '\n') (by decide) (by decide) (by decide)
    (fun s => not_mem_iff_not_infix.mp s.no_newline) v
  no_return := not_infix_value (c := '\r') (by decide) (by decide) (by decide)
    (fun s => not_mem_iff_not_infix.mp s.no_return) v
  no_key := not_infix_value (c := 'K') (by decide) (by decide) (by decide) PlainString.no_key v
  no_unsigned :=
    not_infix_value (c := 'u') (by decide) (by decide) (by decide) PlainString.no_unsigned v
  no_collate :=
    not_infix_value (c := 'C') (by decide) (by decide) (by decide) PlainString.no_collate v
  no_character :=
    not_infix_value (c := 'C') (by decide) (by decide) (by decide) PlainString.no_character v

section

variable {α : Type} {f g : α → Text} (h : ∀ v, Written (f v) (g v)) (name : Name)
variable (rows : List (List α))

include h

theorem doubles_insertionOf :
    Doubles (insertionOf name (rows.map (List.map f))) (insertionOf name (rows.map (List.map g))) := by
  have hwords : ∀ {a : Text}, '\\' ∉ a → Doubles a a := doubles_of_no_backslash
  have hrow (row : List α) : Doubles (rowOf (row.map f)) (rowOf (row.map g)) := by
    have hvalues := doubles_joinWith row fun v _ => (h v).doubles
    exact (hwords (a := ['(']) (by decide)).append (hvalues.append (hwords (by decide)))
  have hname : Doubles name.quoted name.quoted :=
    hwords fun hmem => absurd (name.quoted_subset hmem) (by decide)
  have hrows := doubles_joinWith rows fun row _ => hrow row
  unfold insertionOf
  rw [List.map_map, List.map_map]
  exact (hwords (by decide)).append (hname.append ((hwords (by decide)).append
    (hrows.append (hwords (by decide)))))

/-- An insertion stays, and every quote in its strings is doubled. -/
theorem kept_insertionOf :
    Kept (insertionOf name (rows.map (List.map f))) (insertionOf name (rows.map (List.map g))) := by
  have hend : EndsAmong [';'] (insertionOf name (rows.map (List.map f))) := by
    have hlast := (endsAmong_of_subset (List.Subset.refl [';'])).of_suffix (List.cons_ne_nil _ _)
      (Text.joinWith [','] ((rows.map (List.map f)).map rowOf))
    exact ((hlast.of_suffix (by simp) " VALUES ".toList).of_suffix (by simp) _).of_suffix (by simp) _
  have hvalues {w : Text} (hw : ∀ v, ¬ w <:+: f v) :
      ∀ row ∈ rows.map (List.map f), ∀ v ∈ row, ¬ w <:+: v := by
    intro row hrow v hv
    obtain ⟨row, -, rfl⟩ := List.mem_map.mp hrow
    obtain ⟨v, -, rfl⟩ := List.mem_map.mp hv
    exact hw v
  have hplain := rewritten_eq_quoted_of_plain
    (not_infix_insertionOf name (c := 'C') (by decide) (by decide) (by decide) (by decide)
      (hvalues fun v => (h v).no_collate))
    (not_infix_insertionOf name (c := 'C') (by decide) (by decide) (by decide) (by decide)
      (hvalues fun v => (h v).no_character))
    (not_infix_insertionOf name (c := ' ') (by decide) (by decide) (by decide) (by decide)
      (hvalues fun v => (h v).no_unsigned))
  have hquoted : Line.quoted (insertionOf name (rows.map (List.map f))) =
      insertionOf name (rows.map (List.map g)) := by
    have hdoubles := doubles_insertionOf h name rows []
    rwa [List.append_nil, Line.quoted, List.append_nil] at hdoubles
  exact ⟨hend.isTrimmed rfl (by decide),
    not_mem_iff_not_infix.mpr (not_infix_insertionOf name (c := '\n') (by decide) (by decide)
      (by decide) (by decide) (hvalues fun v => (h v).no_newline)),
    not_mem_iff_not_infix.mpr (not_infix_insertionOf name (c := '\r') (by decide) (by decide)
      (by decide) (by decide) (hvalues fun v => (h v).no_return)),
    not_infix_insertionOf name (c := 'K') (by decide) (by decide) (by decide) (by decide)
      (hvalues fun v => (h v).no_key), hplain.trans hquoted, rfl⟩

end

theorem Table.kept_insertion (t : Table) (rows : List Row) :
    Kept (t.insertion Line.backslashQuote rows) (t.insertion Line.quotePair rows) := by
  rw [t.insertion_eq, t.insertion_eq]
  exact kept_insertionOf Written.value t.name rows

end DumpConversion.Dialect
