import DumpConversion.Proofs.Dialect.Schema
import DumpConversion.Proofs.Dump.FinalForm
import DumpConversion.Proofs.Text.Literals

/-! # The lines of a table definition

What the rules make of the lines that define a table, read off the characters of their pieces: a
piece that lacks a character of a keyword cannot hold the keyword.

* `Kept`: a line that stays in a dump, with what the rules make of it.
* `Column.rewritten_dumped`: a column loses its clauses and its qualifier.
* `Column.kept`, `Table.kept_opening`, `Table.kept_closing`: the lines of a definition.
-/

namespace DumpConversion.Dialect

set_option autoImplicit false

/-- A line that no rule drops, and what the rules make of it. -/
structure Kept (line result : Text) : Prop where
  isTrimmed : line.IsTrimmed
  no_newline : '\n' ∉ line
  no_return : '\r' ∉ line
  no_key : ¬ Line.keyWord <:+: line
  rewritten : Line.rewritten line = result
  shown : Text.isBlankText result = false

/-- On a line in which no rule finds anything only quotes can change. -/
theorem rewritten_eq_quoted_of_plain {line : Text} (hcollate : ¬ "COLLATE".toList <:+: line)
    (hcharacter : ¬ "CHARACTER".toList <:+: line) (hunsigned : ¬ Line.unsignedQualifier <:+: line) :
    Line.rewritten line = Line.quoted line := by
  have hunqualified : Line.unqualified line = line :=
    Line.unqualified_eq_self
      (Clause.occursAfter_of_absent Clause.collate_isKeyword rfl hcollate none)
      (Clause.occursAfter_of_absent Clause.characterSet_isKeyword rfl hcharacter none) hunsigned
  rw [Line.rewritten_eq_quoted, hunqualified]

/-! ## The characters of a definition -/

/-- The characters of a column without its clauses. -/
def coreLetters : Text := nameLetters ++ "\" (),".toList

/-- The characters of a column up to its character set clause. -/
def settingLetters : Text := coreLetters ++ "'CHARTES".toList

/-- The characters of a column with its clauses. -/
def columnLetters : Text := settingLetters ++ "DFLNOU".toList

theorem coreLetters_subset : coreLetters ⊆ columnLetters :=
  fun _ hc => List.mem_append_left _ (List.mem_append_left _ hc)

/-- The characters at which a column can end before its clauses. -/
def endLetters : Text := nameLetters ++ ")'\"".toList

/-- The text is empty or ends in one of the given characters. -/
def EndsAmong (letters s : Text) : Prop := ∀ c, s.getLast? = some c → c ∈ letters

section

variable {letters a b : Text}

theorem endsAmong_of_subset (h : a ⊆ letters) : EndsAmong letters a :=
  fun _ hc => h (List.mem_of_getLast? hc)

theorem EndsAmong.mono {others : Text} (ha : EndsAmong letters a) (h : letters ⊆ others) :
    EndsAmong others a := fun c hc => h (ha c hc)

theorem EndsAmong.append (ha : EndsAmong letters a) (hb : EndsAmong letters b) :
    EndsAmong letters (a ++ b) := by
  intro c hc
  rw [List.getLast?_append] at hc
  cases hlast : b.getLast? with
  | some d =>
    rw [hlast] at hc
    exact hb c (by rw [hlast]; exact hc)
  | none =>
    rw [hlast] at hc
    exact ha c hc

theorem EndsAmong.of_suffix (hb : EndsAmong letters b) (hne : b ≠ []) (a : Text) :
    EndsAmong letters (a ++ b) := by
  intro c hc
  rw [List.getLast?_append_of_ne_nil a hne] at hc
  exact hb c hc

theorem EndsAmong.isTrimmed (ha : EndsAmong letters a) (hstart : a.head?.any Text.isBlank = false)
    (hblank : letters.all (fun c => !Text.isBlank c) = true) : a.IsTrimmed := by
  refine ⟨fun c hc => ?_, fun c hc => ?_⟩
  · rwa [hc, Option.any_some] at hstart
  · simpa using List.all_eq_true.mp hblank c (ha c hc)

end

/-- A line of characters that no key and no line ending has stays. -/
theorem kept_of_subset {line result letters : Text} (hsubset : line ⊆ letters)
    (hletters : 'K' ∉ letters ∧ '\n' ∉ letters ∧ '\r' ∉ letters) (htrimmed : line.IsTrimmed)
    (hrewritten : Line.rewritten line = result) (hshown : Text.isBlankText result = false) :
    Kept line result :=
  ⟨htrimmed, fun h => hletters.2.1 (hsubset h), fun h => hletters.2.2 (hsubset h),
    Text.not_infix_of_subset (by decide) hletters.1 hsubset, hrewritten, hshown⟩

theorem Name.quoted_append (n : Name) (s : Text) :
    n.quoted ++ s = '"' :: (n.text ++ '"' :: s) := by
  rw [Name.quoted, List.cons_append, List.append_assoc, List.singleton_append]

theorem Name.quoted_subset (n : Name) : n.quoted ⊆ coreLetters := by
  have hname : n.text ⊆ coreLetters := fun c hc => List.mem_append_left _ (n.letters hc)
  rw [Name.quoted, List.cons_subset, List.append_subset]
  exact ⟨by decide, hname, by decide⟩

theorem ClauseName.text_subset (n : ClauseName) : n.text ⊆ nameLetters ++ "'\"".toList := by
  have hword : n.word ⊆ nameLetters ++ "'\"".toList :=
    fun c hc => List.mem_append_left _ (n.letters hc)
  rw [ClauseName.text]
  cases n.quotes with
  | bare => exact hword
  | single | double =>
    rw [Quotes.around, List.cons_subset, List.append_subset]
    exact ⟨by decide, hword, by decide⟩

theorem ClauseName.isName (n : ClauseName) : Clause.IsName n.text := by
  have hletters : ∀ c ∈ nameLetters ++ "'\"".toList, Clause.isNameChar c = true :=
    List.all_eq_true.mp (by decide)
  refine ⟨?_, fun c hc => hletters c (n.text_subset hc)⟩
  rw [ClauseName.text]
  cases hquotes : n.quotes with
  | bare => exact n.ne_nil hquotes
  | single | double => exact List.cons_ne_nil _ _

theorem forall_mem_isName (n : Option ClauseName) :
    ∀ name ∈ n.map ClauseName.text, Clause.IsName name := by
  cases n with
  | none => simp
  | some n =>
    intro name hname
    cases hname
    exact n.isName

theorem optional_subset {k : Clause} {letters : Text}
    (hk : ' ' :: k.words.flatMap (· ++ [' ']) ⊆ letters)
    (hname : nameLetters ++ "'\"".toList ⊆ letters) (n : Option ClauseName) :
    k.optional (n.map ClauseName.text) ⊆ letters := by
  cases n with
  | none => exact List.nil_subset _
  | some n =>
    rw [Option.map_some, Clause.optional, Clause.phrase, ← List.cons_append, List.append_subset]
    exact ⟨hk, List.Subset.trans n.text_subset hname⟩

theorem optional_endsAmong (k : Clause) (n : Option ClauseName) :
    EndsAmong endLetters (k.optional (n.map ClauseName.text)) := by
  cases n with
  | none => exact endsAmong_of_subset (List.nil_subset _)
  | some n =>
    have hname : n.text ⊆ endLetters := List.Subset.trans n.text_subset (by decide)
    rw [Option.map_some, Clause.optional, Clause.phrase, ← List.cons_append]
    exact (endsAmong_of_subset hname).of_suffix n.isName.ne_nil _

/-- The pieces before a clause neither hold its keyword nor begin it. -/
theorem precedes_of_endsAmong {w a : Text} {d : Char} (hd : d ∈ w) (ha : d ∉ a)
    (hend : EndsAmong endLetters a)
    (hw : endLetters.all (fun c => !Text.isBlank c && !w.contains c) = true) :
    Clause.Precedes w a := by
  refine ⟨Text.not_infix_of_not_mem hd ha, fun c hc => ?_⟩
  have hc := List.all_eq_true.mp hw c (hend c hc)
  simpa using hc

/-! ## Types -/

namespace ColumnType

variable (t : ColumnType)

theorem text_subset : t.text ⊆ nameLetters ++ "(),".toList := by
  have hword : t.word ⊆ nameLetters ++ "(),".toList :=
    fun c hc => List.mem_append_left _ (t.letters hc)
  rw [text, List.append_subset]
  refine ⟨hword, ?_⟩
  split
  · next s hs =>
    rw [List.cons_subset, List.append_subset]
    exact ⟨by decide, List.Subset.trans (t.size_letters s hs) (by decide), by decide⟩
  · exact List.nil_subset _

theorem text_ne_nil : t.text ≠ [] := by
  intro h
  exact t.ne_nil (List.append_eq_nil_iff.mp h).1

theorem text_endsAmong : EndsAmong endLetters t.text := by
  have hword : t.word ⊆ endLetters := fun c hc => List.mem_append_left _ (t.letters hc)
  rw [text]
  refine (endsAmong_of_subset hword).append ?_
  split
  · exact (endsAmong_of_subset (by decide)).of_suffix (List.cons_ne_nil ')' []) ('(' :: _)
  · exact endsAmong_of_subset (List.nil_subset _)

/-- The type of a column is not taken for the qualifier, whatever stands after it. -/
theorem not_unsignedWord_prefix {s : Text} (hs : ∀ c, s.head? = some c → c ∉ unsignedWord) :
    ¬ unsignedWord <+: t.text ++ s := by
  obtain ⟨u, hu, hhead⟩ : ∃ u, t.text ++ s = t.word ++ u ∧
      ∀ c, u.head? = some c → c ∉ unsignedWord := by
    rw [text]
    cases t.size with
    | some size =>
      refine ⟨_, List.append_assoc _ _ _, fun c hc => ?_⟩
      cases hc
      decide
    | none => exact ⟨s, by rw [List.append_nil], hs⟩
  rw [hu]
  rintro ⟨z, hz⟩
  rcases List.append_eq_append_iff.mp hz with ⟨v, hword, -⟩ | ⟨v, hword, rfl⟩
  · exact t.not_unsigned ⟨v, hword.symm⟩
  · cases v with
    | nil => exact t.not_unsigned ⟨[], by rw [hword]; simp⟩
    | cons d v => exact hhead d rfl (by rw [hword]; simp)

end ColumnType

/-! ## Columns -/

theorem Nullness.text_subset (n : Nullness) : n.text ⊆ " NOTULDEFA".toList := by
  cases n <;> decide

theorem Nullness.text_endsAmong (n : Nullness) : EndsAmong ['L'] n.text := by
  cases n with
  | unsaid => exact endsAmong_of_subset (List.nil_subset _)
  | notNull | defaultNull =>
    intro d hd
    cases hd
    decide

namespace Column

variable (c : Column)

theorem qualified_subset : c.core ++ c.qualifier ⊆ coreLetters := by
  rw [core, List.append_subset, List.append_subset, List.cons_subset, qualifier]
  refine ⟨⟨c.name.quoted_subset, by decide, List.Subset.trans c.type.text_subset (by decide)⟩, ?_⟩
  split
  · decide
  · exact List.nil_subset _

theorem core_endsAmong : EndsAmong endLetters c.core := by
  rw [core, List.append_cons]
  exact c.type.text_endsAmong.of_suffix c.type.text_ne_nil _

theorem qualified_endsAmong : EndsAmong endLetters (c.core ++ c.qualifier) := by
  refine c.core_endsAmong.append ?_
  rw [qualifier]
  split
  · intro d hd
    cases hd
    decide
  · exact endsAmong_of_subset (List.nil_subset _)

variable {tail : Text}

theorem endsName_tail (htail : tail ⊆ [',']) : Clause.EndsName (c.nullness.text ++ tail) := by
  cases c.nullness with
  | unsaid =>
    cases tail with
    | nil => exact Clause.endsName_nil
    | cons d tail =>
      have hd := List.mem_singleton.mp (htail List.mem_cons_self)
      rw [hd]
      exact Clause.endsName_cons.mpr (by decide)
  | notNull | defaultNull => exact Clause.endsName_cons.mpr (by decide)

theorem tail_subset (htail : tail ⊆ [',']) : c.nullness.text ++ tail ⊆ " NOTULDEFA,".toList := by
  rw [List.append_subset]
  exact ⟨List.Subset.trans c.nullness.text_subset (by decide), List.Subset.trans htail (by decide)⟩

theorem dropCollations_dumped (htail : tail ⊆ [',']) :
    (Line.dropCollations (c.dumped ++ tail)).1 =
      c.core ++ c.qualifier ++ Clause.characterSet.optional (c.characterSet.map ClauseName.text) ++
        (c.nullness.text ++ tail) := by
  have hsetting : c.core ++ c.qualifier ++
      Clause.characterSet.optional (c.characterSet.map ClauseName.text) ⊆ settingLetters := by
    rw [List.append_subset]
    exact ⟨fun d hd => List.mem_append_left _ (c.qualified_subset hd),
      optional_subset (by decide) (by decide) _⟩
  have hprecedes := precedes_of_endsAmong (w := "COLLATE".toList) (d := 'L') (by decide)
    (fun h => absurd (hsetting h) (by decide))
    (c.qualified_endsAmong.append (optional_endsAmong _ _)) (by decide)
  have htext : ¬ "COLLATE".toList <:+: c.nullness.text ++ tail :=
    Text.not_infix_of_subset (c := 'C') (by decide) (by decide) (c.tail_subset htail)
  rw [Line.dropCollations, dumped, List.append_assoc _ c.nullness.text,
    List.append_assoc _ _ (_ ++ _)]
  exact Clause.strip_optional Clause.collate_isKeyword rfl hprecedes (forall_mem_isName c.collation)
    (c.endsName_tail htail) htext

theorem clauseFree_dumped (htail : tail ⊆ [',']) :
    Line.clauseFree (c.dumped ++ tail) = c.core ++ c.qualifier ++ (c.nullness.text ++ tail) := by
  have hprecedes := precedes_of_endsAmong (w := "CHARACTER".toList) (d := 'C') (by decide)
    (fun h => absurd (c.qualified_subset h) (by decide)) c.qualified_endsAmong (by decide)
  have htext : ¬ "CHARACTER".toList <:+: c.nullness.text ++ tail :=
    Text.not_infix_of_subset (c := 'C') (by decide) (by decide) (c.tail_subset htail)
  rw [Line.clauseFree, c.dropCollations_dumped htail, List.append_assoc _ _ (_ ++ _)]
  exact Clause.strip_optional Clause.characterSet_isKeyword rfl hprecedes
    (forall_mem_isName c.characterSet) (c.endsName_tail htail) htext

theorem dropUnsigned_core {s : Text} (hs : ¬ Line.unsignedQualifier <:+: s)
    (hhead : ∀ d, s.head? = some d → d ∉ unsignedWord) :
    (Line.dropUnsigned (c.core ++ (c.qualifier ++ s))).1 = c.core ++ s := by
  have hrest : (Text.replaceAll Line.unsignedQualifier [] (c.qualifier ++ s)).1 = s := by
    rw [qualifier]
    split
    · rw [Text.replaceAll_prefix (by decide), Text.replaceAll_of_not_infix hs, List.nil_append]
    · rw [List.nil_append, Text.replaceAll_of_not_infix hs]
  have hqualified : ∀ d, (c.qualifier ++ s).head? = some d → d ∉ unsignedWord := by
    rw [qualifier]
    split
    · intro d hd
      cases hd
      decide
    · exact hhead
  have hname : ' ' ∉ c.name.quoted := by
    rw [Name.quoted, List.mem_cons, List.mem_append]
    rintro (h | h | h)
    · cases h
    · exact absurd (c.name.letters h) (by decide)
    · exact absurd h (by decide)
  have htype : ' ' ∉ c.type.text := fun h => absurd (c.type.text_subset h) (by decide)
  have hspace : Line.unsignedQualifier.isPrefixOf (' ' :: (c.type.text ++ (c.qualifier ++ s))) =
      false := by
    rw [Bool.eq_false_iff, Ne, List.isPrefixOf_iff_prefix]
    intro h
    exact c.type.not_unsignedWord_prefix hqualified (List.cons_prefix_cons.mp h).2
  -- the one space before the qualifier stands before the type
  rw [Line.dropUnsigned, core, List.append_assoc, List.cons_append,
    Text.replaceAll_append_of_head rfl hname, Text.replaceAll_cons_of_no_match hspace,
    Text.replaceAll_append_of_head rfl htype, hrest, List.append_assoc, List.cons_append]

/-- The rules take the clauses and the qualifier off a column, and nothing else. -/
theorem rewritten_dumped (htail : tail ⊆ [',']) :
    Line.rewritten (c.dumped ++ tail) = c.translated ++ tail := by
  -- the clauses go from the end of the line to its front, then the qualifier
  have hunsigned : (Line.dropUnsigned (Line.clauseFree (c.dumped ++ tail))).1 =
      c.translated ++ tail := by
    rw [c.clauseFree_dumped htail, List.append_assoc, c.dropUnsigned_core, translated,
      List.append_assoc]
    · exact Text.not_infix_of_subset (c := 'u') (by decide) (by decide) (c.tail_subset htail)
    · intro d hd
      have hletters : " NOTULDEFA,".toList.all (fun d => !unsignedWord.contains d) = true := by decide
      simpa using List.all_eq_true.mp hletters d (c.tail_subset htail (List.mem_of_head? hd))
  have hbackslash : '\\' ∉ c.translated ++ tail := by
    rw [translated, List.append_assoc, List.mem_append, not_or]
    exact ⟨fun h => absurd (c.qualified_subset (List.mem_append_left _ h)) (by decide),
      fun h => absurd (c.tail_subset htail h) (by decide)⟩
  rw [Line.rewritten_eq_quoted, Line.unqualified, hunsigned, Line.quoted_eq_self_iff]
  exact Text.not_infix_of_not_mem (c := '\\') (by decide) hbackslash

theorem dumped_subset (htail : tail ⊆ [',']) : c.dumped ++ tail ⊆ columnLetters := by
  have hletters : " NOTULDEFA,".toList ⊆ columnLetters := by decide
  rw [dumped, List.append_assoc _ c.nullness.text, List.append_subset, List.append_subset,
    List.append_subset]
  refine ⟨⟨⟨fun d hd => ?_, ?_⟩, ?_⟩, fun d hd => hletters (c.tail_subset htail hd)⟩
  · exact coreLetters_subset (c.qualified_subset hd)
  · exact optional_subset (by decide) (by decide) _
  · exact optional_subset (by decide) (by decide) _

theorem dumped_endsAmong (htail : tail ⊆ [',']) :
    EndsAmong (endLetters ++ "L,".toList) (c.dumped ++ tail) := by
  have hclauses := (c.qualified_endsAmong.append (optional_endsAmong Clause.characterSet
    c.characterSet)).append (optional_endsAmong Clause.collate c.collation)
  have hcomma : EndsAmong (endLetters ++ "L,".toList) tail :=
    (endsAmong_of_subset htail).mono (by decide)
  exact ((hclauses.mono (List.subset_append_left _ _)).append
    (c.nullness.text_endsAmong.mono (by decide))).append hcomma

/-- A column stays, and comes out as in the target dialect. -/
theorem kept (htail : tail ⊆ [',']) : Kept (c.dumped ++ tail) (c.translated ++ tail) := by
  have htrimmed := (c.dumped_endsAmong htail).isTrimmed rfl (by decide)
  exact kept_of_subset (c.dumped_subset htail) (by decide) htrimmed (c.rewritten_dumped htail)
    rfl

/-- In the target dialect a column does not end with a comma. -/
theorem withoutTrailingCommas_translated (htail : tail ⊆ [',']) :
    Retained.withoutTrailingCommas (c.translated ++ tail) = c.translated := by
  have hcommas : ∀ d ∈ tail, (d == ',') = true := fun d hd => by simpa using htail hd
  have hlast : EndsAmong (endLetters ++ ['L']) c.translated :=
    (c.core_endsAmong.mono (List.subset_append_left _ _)).append
      (c.nullness.text_endsAmong.mono (List.subset_append_right _ _))
  rw [Retained.withoutTrailingCommas, Text.dropTrailing_append_of_pos hcommas]
  exact Line.withoutTrailingCommas_of_none (Line.trailingCommas_eq_zero_iff.mpr fun h =>
    absurd (hlast _ h) (by decide))

end Column

/-! ## The first and the last line of a definition -/

namespace Table

variable (t : Table)

theorem opening_subset : t.opening ⊆ coreLetters ++ "CREATBL".toList :=
  List.append_subset.mpr ⟨by decide, List.append_subset.mpr
    ⟨fun _ hc => List.mem_append_left _ (t.name.quoted_subset hc), by decide⟩⟩

theorem opening_endsAmong : EndsAmong ['('] t.opening := by
  have hend : EndsAmong ['('] " (".toList := by
    intro c hc
    cases hc
    decide
  exact (hend.of_suffix (by decide) t.name.quoted).of_suffix (by simp) _

theorem not_unsigned_opening : ¬ Line.unsignedQualifier <:+: t.opening := by
  have hsplit : t.opening = "CREATE TABLE ".toList ++ '"' :: (t.name.text ++ '"' :: " (".toList) :=
    congrArg ("CREATE TABLE ".toList ++ ·) (t.name.quoted_append _)
  have hname : ' ' ∉ t.name.text := fun h => absurd (t.name.letters h) (by decide)
  rw [hsplit, Text.infix_append_cons_iff (by decide), Text.infix_append_cons_iff (by decide)]
  rintro (h | h | h)
  · exact absurd h (by decide)
  · exact Text.not_infix_of_not_mem (by decide) hname h
  · exact absurd h (by decide)

theorem kept_opening : Kept t.opening t.opening := by
  have hno : ∀ {c : Char} {w : Text}, c ∈ w → c ∉ coreLetters ++ "CREATBL".toList →
      ¬ w <:+: t.opening :=
    fun hw hletters => Text.not_infix_of_subset hw hletters t.opening_subset
  have hplain := rewritten_eq_quoted_of_plain (hno (c := 'O') (by decide) (by decide))
    (hno (c := 'H') (by decide) (by decide)) t.not_unsigned_opening
  have hquoted := Line.quoted_eq_self_iff.mpr (hno (c := '\\') (by decide) (by decide))
  have htrimmed := t.opening_endsAmong.isTrimmed rfl (by decide)
  exact kept_of_subset t.opening_subset (by decide) htrimmed (hplain.trans hquoted) rfl

theorem closing_subset : t.closing ⊆ settingLetters ++ [';'] := by
  have hclause : Clause.characterSet.optional (t.characterSet.map ClauseName.text) ⊆
      settingLetters ++ [';'] :=
    optional_subset (by decide) (by decide) _
  rw [closing, List.cons_subset, List.append_subset]
  exact ⟨by decide, hclause, by decide⟩

theorem rewritten_closing : Line.rewritten t.closing = ");".toList := by
  have hcollate : ¬ "COLLATE".toList <:+: t.closing :=
    Text.not_infix_of_subset (c := 'O') (by decide) (by decide) t.closing_subset
  have hprecedes := precedes_of_endsAmong (w := "CHARACTER".toList) (a := [')']) (d := 'C')
    (by decide) (by decide) (endsAmong_of_subset (by decide)) (by decide)
  have hclauses : Line.clauseFree t.closing = ");".toList := by
    rw [Line.clauseFree, Line.dropCollations, Clause.strip_eq_self
      (Clause.occursAfter_of_absent Clause.collate_isKeyword rfl hcollate none)]
    exact Clause.strip_optional Clause.characterSet_isKeyword rfl hprecedes
      (forall_mem_isName t.characterSet) (Clause.endsName_cons.mpr (by decide)) (by decide)
  rw [Line.rewritten_eq_quoted, Line.unqualified, hclauses]
  rfl

theorem kept_closing : Kept t.closing ");".toList := by
  have hend : EndsAmong [';'] t.closing := by
    rw [closing, ← List.cons_append]
    exact (endsAmong_of_subset (List.Subset.refl _)).of_suffix (List.cons_ne_nil _ _) _
  have htrimmed := hend.isTrimmed rfl (by decide)
  exact kept_of_subset t.closing_subset (by decide) htrimmed t.rewritten_closing (by decide)

end Table

end DumpConversion.Dialect
