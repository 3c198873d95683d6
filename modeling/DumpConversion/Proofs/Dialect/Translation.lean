import DumpConversion.Proofs.Dialect.Insertions

/-! # From one dialect to the other

A scan of tables in the dialect of the dump gives the same tables in the target dialect: of the lines
of a table, every one but the key lines stays, and the last column loses its comma.

* `retained_dumpedLines`: the lines of a table that a scan retains.
* `finalLines_table`, `finalLines_flatMap`: what becomes of the retained lines of a table, and of any
  number of tables.
* `sanitizeText_blocks`, `sanitizeText_dumped`: a dump is accepted and comes out translated.
-/

namespace DumpConversion

set_option autoImplicit false

/-! ## Retained lines -/

namespace Dump

theorem closesNext_cons_of_visible {line : Text} {rest : List Text}
    (h : Line.isVisible line = true) : closesNext (line :: rest) = Line.closesTable line := by
  rw [closesNext, List.find?_cons_of_pos h]
  rfl

theorem finalLines_cons_of_open {line : Text} {rest : List Text} (h : closesNext rest = false) :
    finalLines (line :: rest) = Line.rewritten line :: finalLines rest := by
  rw [finalLines_cons, finalLine_of_not_losesCommas (by rw [losesCommas, h, Bool.and_false])]

theorem finalLines_cons_of_closing {line : Text} {rest : List Text}
    (hline : Line.isVisible line = true) (h : closesNext rest = true) :
    finalLines (line :: rest) =
      Retained.withoutTrailingCommas (Line.rewritten line) :: finalLines rest := by
  rw [finalLines_cons, finalLine, losesCommas, hline, h]
  rfl

end Dump

namespace Dialect

namespace Kept

variable {line result : Text}

theorem isVisible (h : Kept line result) : Line.isVisible line = true := by
  rw [Line.isVisible, h.rewritten, h.shown]
  rfl

theorem declaresKey (h : Kept line result) : Line.declaresKey line = false := by
  rw [Bool.eq_false_iff]
  exact fun hkey => h.no_key (Line.declaresKey_iff.mp hkey)

theorem trim_indented (h : Kept line result) {indent : Text}
    (hindent : Text.isBlankText indent = true) : Text.trim (indent ++ line) = line := by
  have htrim := Text.trim_surrounded (b := []) hindent h.isTrimmed rfl
  rwa [List.append_nil] at htrim

end Kept

/-- Lines that stay are retained without their indentation. -/
theorem retained_indented {indent : Text} (hindent : Text.isBlankText indent = true)
    {ls : List Text} (h : ∀ l ∈ ls, ∃ result, Kept l result) :
    Dump.retained (ls.map (indent ++ ·)) = ls := by
  induction ls with
  | nil => rfl
  | cons line ls ih =>
    obtain ⟨⟨result, hline⟩, hls⟩ := List.forall_mem_cons.mp h
    have htail := ih hls
    rw [Dump.retained] at htail ⊢
    rw [List.map_cons, List.map_cons, hline.trim_indented hindent,
      List.filter_cons_of_pos (by rw [hline.declaresKey]; rfl), htail]

theorem retained_kept {ls : List Text} (h : ∀ l ∈ ls, ∃ result, Kept l result) :
    Dump.retained ls = ls := by
  have hindented := @retained_indented [] rfl ls h
  rwa [show ls.map (([] : Text) ++ ·) = ls from List.map_id ls] at hindented

theorem retained_keys (indent : Text) {ls : List Text} (h : ∀ l ∈ ls, Line.keyWord <:+: l) :
    Dump.retained (ls.map (indent ++ ·)) = [] := by
  rw [Dump.retained, List.filter_eq_nil_iff]
  intro line hline
  obtain ⟨raw, hraw, rfl⟩ := List.mem_map.mp hline
  obtain ⟨l, hl, rfl⟩ := List.mem_map.mp hraw
  have hblank : ∀ c ∈ Line.keyWord, (!Text.isBlank c) = true := List.all_eq_true.mp (by decide)
  have hkey : Line.keyWord <:+: Text.trim (indent ++ l) :=
    (Text.infix_trim_iff (by decide) (fun c hc => by simpa using hblank c hc) _).mpr
      ((h l hl).trans (List.suffix_append indent l).isInfix)
  rw [Line.declaresKey_iff.mpr hkey]
  decide

theorem separated_concat (ls : List Text) (last : Text) :
    separated (ls ++ [last]) = ls.map (· ++ [',']) ++ [last] := by
  induction ls with
  | nil => rfl
  | cons line ls ih =>
    cases ls with
    | nil => rfl
    | cons next ls =>
      rw [List.cons_append, List.cons_append, separated, ← List.cons_append, ih]
      rfl

theorem Layout.isBlankText_indent (y : Layout) : Text.isBlankText y.indent = true := by
  have hblanks : [' ', '\t'].all Text.isBlank = true := by decide
  rw [Text.isBlankText_iff]
  exact fun c hc => List.all_eq_true.mp hblanks c (y.indent_blank hc)

/-! ## The lines of one table -/

/-- The columns of a table as they stand in a dump without its key lines: a comma follows each, and
`tail` the last one. -/
def columnLines (front : List Column) (last : Column) (tail : Text) : List Text :=
  front.map (fun c => c.dumped ++ [',']) ++ [last.dumped ++ tail]

theorem forall_mem_columnLines {front : List Column} {last : Column} {tail : Text}
    (htail : tail ⊆ [',']) : ∀ l ∈ columnLines front last tail, ∃ result, Kept l result := by
  intro l hl
  rcases List.mem_append.mp hl with hl | hl
  · obtain ⟨c, -, rfl⟩ := List.mem_map.mp hl
    exact ⟨_, c.kept (List.Subset.refl _)⟩
  · rw [List.mem_singleton.mp hl]
    exact ⟨_, last.kept htail⟩

/-- Whether a key line follows decides whether the last column has a comma. -/
theorem retained_definitions (y : Layout) (front : List Column) (last : Column)
    (keys : List KeyLine) :
    ∃ tail : Text, tail ⊆ [','] ∧
      Dump.retained ((separated ((front ++ [last]).map Column.dumped ++ keys.map KeyLine.text)).map
        (y.indent ++ ·)) = columnLines front last tail := by
  rcases List.eq_nil_or_concat keys with rfl | ⟨keys, key, rfl⟩
  · refine ⟨[], List.nil_subset _, ?_⟩
    have hlines : separated ((front ++ [last]).map Column.dumped ++ [].map KeyLine.text) =
        columnLines front last [] := by
      rw [List.map_nil, List.append_nil, List.map_append, List.map_singleton, separated_concat,
        List.map_map, columnLines, List.append_nil]
      rfl
    rw [hlines, retained_indented y.isBlankText_indent (forall_mem_columnLines (List.nil_subset _))]
  · refine ⟨[','], List.Subset.refl _, ?_⟩
    have hlines : separated ((front ++ [last]).map Column.dumped ++
          (keys.concat key).map KeyLine.text) =
        columnLines front last [','] ++ (keys.map (fun k => k.text ++ [',']) ++ [key.text]) := by
      rw [List.concat_eq_append, List.map_append, List.map_append, ← List.append_assoc,
        List.map_singleton, List.map_singleton, separated_concat, List.map_append, List.map_append,
        List.map_map, List.map_map, columnLines, List.append_assoc]
      rfl
    have hkeys : ∀ l ∈ keys.map (fun k => k.text ++ [',']) ++ [key.text], Line.keyWord <:+: l := by
      intro l hl
      rcases List.mem_append.mp hl with hl | hl
      · obtain ⟨k, -, rfl⟩ := List.mem_map.mp hl
        exact k.key.trans (List.prefix_append k.text [',']).isInfix
      · rw [List.mem_singleton.mp hl]
        exact key.key
    rw [hlines, List.map_append, Dump.retained_append, retained_keys y.indent hkeys,
      List.append_nil,
      retained_indented y.isBlankText_indent (forall_mem_columnLines (List.Subset.refl _))]

/-- Of a table a scan retains the lines that no key stands on. -/
theorem retained_dumpedLines (y : Layout) (t : Table) {front : List Column} {last : Column}
    (hcolumns : t.columns = front ++ [last]) :
    ∃ tail : Text, tail ⊆ [','] ∧ Dump.retained (t.dumpedLines y) =
      t.opening :: (columnLines front last tail ++
        (t.closing :: (y.batches t.rows).map (t.insertion Line.backslashQuote))) := by
  obtain ⟨tail, htail, hdefinitions⟩ := retained_definitions y front last t.keys
  refine ⟨tail, htail, ?_⟩
  have hopening : Dump.retained [t.opening] = [t.opening] :=
    retained_kept (List.forall_mem_singleton.mpr ⟨_, t.kept_opening⟩)
  have hend : Dump.retained (t.closing :: (y.batches t.rows).map (t.insertion Line.backslashQuote)) =
      t.closing :: (y.batches t.rows).map (t.insertion Line.backslashQuote) := by
    refine retained_kept (List.forall_mem_cons.mpr ⟨⟨_, t.kept_closing⟩, fun l hl => ?_⟩)
    obtain ⟨rows, -, rfl⟩ := List.mem_map.mp hl
    exact ⟨_, t.kept_insertion rows⟩
  rw [Table.dumpedLines, hcolumns, ← List.singleton_append, Dump.retained_append,
    Dump.retained_append, hopening, hdefinitions, hend]
  rfl

/-! ## What becomes of them -/

theorem closesNext_columnLines (front : List Column) (last : Column) {tail : Text}
    (htail : tail ⊆ [',']) (rest : List Text) :
    Dump.closesNext (columnLines front last tail ++ rest) = false := by
  cases front with
  | nil => exact Dump.closesNext_cons_of_visible (last.kept htail).isVisible
  | cons c front => exact Dump.closesNext_cons_of_visible (c.kept (List.Subset.refl _)).isVisible

/-- Before the closing line the last column loses its comma, and no other line does. -/
theorem finalLines_columnLines (front : List Column) (last : Column) {tail : Text}
    (htail : tail ⊆ [',']) {closing : Text} {rest : List Text}
    (hclosing : Line.closesTable closing = true) :
    Dump.finalLines (columnLines front last tail ++ closing :: rest) =
      front.map (fun c => c.translated ++ [',']) ++
        last.translated :: Dump.finalLines (closing :: rest) := by
  -- induction on the columns before the last: each of them has a column behind it
  induction front with
  | nil =>
    have hlast := last.kept htail
    have hnext : Dump.closesNext (closing :: rest) = true := by
      rw [Dump.closesNext_cons_of_visible (Line.isVisible_of_closesTable hclosing), hclosing]
    rw [columnLines, List.map_nil, List.nil_append, List.singleton_append,
      Dump.finalLines_cons_of_closing hlast.isVisible hnext, hlast.rewritten,
      last.withoutTrailingCommas_translated htail]
    rfl
  | cons c front ih =>
    have hc := c.kept (List.Subset.refl [','])
    have hnext := closesNext_columnLines front last htail (closing :: rest)
    have hcons : columnLines (c :: front) last tail ++ closing :: rest =
        (c.dumped ++ [',']) :: (columnLines front last tail ++ closing :: rest) := rfl
    rw [hcons, Dump.finalLines_cons_of_open hnext, hc.rewritten, ih, List.map_cons, List.cons_append]

section

variable {α : Type} {f g : α → Text} {rest : List Text}

theorem closesNext_kept (h : ∀ x, Kept (f x) (g x)) (hopen : ∀ x, Line.closesTable (f x) = false)
    (l : List α) (hrest : Dump.closesNext rest = false) :
    Dump.closesNext (l.map f ++ rest) = false := by
  cases l with
  | nil => exact hrest
  | cons x l => exact (Dump.closesNext_cons_of_visible (h x).isVisible).trans (hopen x)

/-- Lines that stay and do not close a table come out as what the rules make of them. -/
theorem finalLines_kept (h : ∀ x, Kept (f x) (g x)) (hopen : ∀ x, Line.closesTable (f x) = false)
    (l : List α) (hrest : Dump.closesNext rest = false) :
    Dump.finalLines (l.map f ++ rest) = l.map g ++ Dump.finalLines rest := by
  induction l with
  | nil => rfl
  | cons x l ih =>
    rw [List.map_cons, List.cons_append,
      Dump.finalLines_cons_of_open (closesNext_kept h hopen l hrest), (h x).rewritten, ih,
      List.map_cons, List.cons_append]

end

theorem Table.exists_columns (t : Table) : ∃ front last, t.columns = front ++ [last] := by
  obtain ⟨front, last, h⟩ := (List.eq_nil_or_concat t.columns).resolve_left t.columns_ne
  exact ⟨front, last, by rw [h, List.concat_eq_append]⟩

/-- One table: what follows is an opening line again, or nothing that can be seen. -/
theorem finalLines_table (y : Layout) (t : Table) {rest : List Text}
    (hrest : Dump.closesNext rest = false) :
    Dump.finalLines (Dump.retained (t.dumpedLines y) ++ rest) =
        t.translatedLines y ++ Dump.finalLines rest ∧
      Dump.closesNext (Dump.retained (t.dumpedLines y) ++ rest) = false := by
  obtain ⟨front, last, hcolumns⟩ := t.exists_columns
  obtain ⟨tail, htail, hretained⟩ := retained_dumpedLines y t hcolumns
  have hopen (rows : List Row) : Line.closesTable (t.insertion Line.backslashQuote rows) = false :=
    rfl
  have hinsertions := closesNext_kept t.kept_insertion hopen (y.batches t.rows) hrest
  have htranslated : t.translatedLines y =
      t.opening :: (front.map (fun c => c.translated ++ [',']) ++ last.translated :: ");".toList ::
        (y.batches t.rows).map (t.insertion Line.quotePair)) := by
    rw [Table.translatedLines, hcolumns, List.map_append, List.map_singleton, separated_concat,
      List.map_map, List.append_assoc]
    rfl
  have hlines : Dump.retained (t.dumpedLines y) ++ rest =
      t.opening :: (columnLines front last tail ++ t.closing ::
        ((y.batches t.rows).map (t.insertion Line.backslashQuote) ++ rest)) := by
    rw [hretained, List.cons_append, List.append_assoc, List.cons_append]
  rw [hlines]
  refine ⟨?_, Dump.closesNext_cons_of_visible t.kept_opening.isVisible⟩
  rw [Dump.finalLines_cons_of_open (closesNext_columnLines front last htail _),
    t.kept_opening.rewritten, finalLines_columnLines front last htail rfl,
    Dump.finalLines_cons_of_open hinsertions, t.kept_closing.rewritten,
    finalLines_kept t.kept_insertion hopen _ hrest, htranslated]
  simp only [List.cons_append, List.append_assoc]

/-- Blocks of lines one after the other, by induction from the last: no block disturbs the one before
it. -/
theorem finalLines_flatMap {α : Type} {f g : α → List Text}
    (h : ∀ x rest, Dump.closesNext rest = false →
      Dump.finalLines (Dump.retained (f x) ++ rest) = g x ++ Dump.finalLines rest ∧
        Dump.closesNext (Dump.retained (f x) ++ rest) = false)
    (l : List α) {rest : List Text} (hrest : Dump.closesNext rest = false) :
    Dump.finalLines (Dump.retained (l.flatMap f) ++ rest) = l.flatMap g ++ Dump.finalLines rest ∧
      Dump.closesNext (Dump.retained (l.flatMap f) ++ rest) = false := by
  induction l with
  | nil => exact ⟨rfl, hrest⟩
  | cons x l ih =>
    obtain ⟨hlines, hopen⟩ := ih
    obtain ⟨hblock, hfirst⟩ := h x _ hopen
    rw [List.flatMap_cons, List.flatMap_cons, Dump.retained_append, List.append_assoc,
      List.append_assoc]
    exact ⟨by rw [hblock, hlines], hfirst⟩

/-! ## The dump as a text -/

/-- No line feed and no carriage return stands on the line. -/
def Unbroken (line : Text) : Prop := '\n' ∉ line ∧ '\r' ∉ line

theorem Unbroken.append {a b : Text} (ha : Unbroken a) (hb : Unbroken b) : Unbroken (a ++ b) :=
  ⟨fun h => (List.mem_append.mp h).elim ha.1 hb.1, fun h => (List.mem_append.mp h).elim ha.2 hb.2⟩

theorem Kept.unbroken {line result : Text} (h : Kept line result) : Unbroken line :=
  ⟨h.no_newline, h.no_return⟩

theorem forall_mem_separated {ls : List Text} (h : ∀ l ∈ ls, Unbroken l) :
    ∀ l ∈ separated ls, Unbroken l := by
  have hcomma : Unbroken [','] := ⟨by decide, by decide⟩
  rcases List.eq_nil_or_concat ls with rfl | ⟨ls, last, rfl⟩
  · exact h
  · rw [List.concat_eq_append] at h
    rw [List.concat_eq_append, separated_concat]
    intro l hl
    rcases List.mem_append.mp hl with hl | hl
    · obtain ⟨line, hline, rfl⟩ := List.mem_map.mp hl
      exact (h line (List.mem_append_left _ hline)).append hcomma
    · exact h l (List.mem_append_right _ hl)

theorem unbroken_dumpedLines (y : Layout) (t : Table) : ∀ l ∈ t.dumpedLines y, Unbroken l := by
  have hindent : Unbroken y.indent :=
    ⟨fun h => absurd (y.indent_blank h) (by decide), fun h => absurd (y.indent_blank h) (by decide)⟩
  have hdefinitions : ∀ l ∈ t.columns.map Column.dumped ++ t.keys.map KeyLine.text, Unbroken l := by
    intro l hl
    rcases List.mem_append.mp hl with hl | hl
    · obtain ⟨c, -, rfl⟩ := List.mem_map.mp hl
      have hc := c.kept (List.nil_subset [','])
      rw [List.append_nil] at hc
      exact hc.unbroken
    · obtain ⟨k, -, rfl⟩ := List.mem_map.mp hl
      exact ⟨k.no_newline, k.no_return⟩
  rw [Table.dumpedLines, List.forall_mem_cons, List.forall_mem_append, List.forall_mem_cons]
  refine ⟨t.kept_opening.unbroken, fun l hl => ?_, t.kept_closing.unbroken, fun l hl => ?_⟩
  · obtain ⟨line, hline, rfl⟩ := List.mem_map.mp hl
    exact hindent.append (forall_mem_separated hdefinitions line hline)
  · obtain ⟨rows, -, rfl⟩ := List.mem_map.mp hl
    exact (t.kept_insertion rows).unbroken

end Dialect

/-- A text whose first line stays and does not close a table is accepted. -/
theorem sanitizeText_isOk_of_first {s first result : Text} {rest : List Text}
    (hlines : (Text.lines s).map Text.trim = first :: rest) (hfirst : Dialect.Kept first result)
    (hopen : Line.closesTable first = false) : ∃ out, sanitizeText s = .ok out := by
  rw [sanitizeText_isOk_iff]
  intro before raw later hsplit _ hcloses
  rw [hsplit] at hlines
  cases before with
  | nil =>
    rw [List.nil_append, List.map_cons, List.cons.injEq] at hlines
    rw [hlines.1, hopen] at hcloses
    cases hcloses
  | cons line before =>
    rw [List.cons_append, List.map_cons, List.cons.injEq] at hlines
    refine ⟨first, ?_, hfirst.isVisible⟩
    rw [Dump.retained, List.map_cons, hlines.1, List.filter_cons_of_pos
      (by rw [hfirst.declaresKey]; rfl)]
    exact List.mem_cons_self

namespace Dialect

theorem unbroken_terminator (y : Layout) : ∀ l ∈ y.terminator, Unbroken l := by
  intro l hl
  rw [Layout.terminator] at hl
  split at hl
  · rw [List.mem_singleton.mp hl]
    exact ⟨List.not_mem_nil, List.not_mem_nil⟩
  · exact absurd hl List.not_mem_nil

/-- The empty line at the end stays and shows nothing. -/
theorem finalLines_terminator (y : Layout) :
    Dump.retained y.terminator = y.terminator ∧ Dump.closesNext y.terminator = false ∧
      Dump.finalLines y.terminator = y.terminator := by
  rw [Layout.terminator]
  split
  · exact ⟨rfl, rfl, rfl⟩
  · exact ⟨rfl, rfl, rfl⟩

/-- Lines of which the first opens a table are accepted, and come out in their final form. -/
theorem sanitizeText_opened (t : Table) (e : LineEnding) {lines : List Text}
    (hfirst : ∃ next more, lines = t.opening :: next :: more) (h : ∀ l ∈ lines, Unbroken l) :
    ∃ out, sanitizeText (Text.joinWith e.separator lines) = .ok out ∧
      out.text = Text.joinWith e.separator (Dump.finalLines (Dump.retained lines)) := by
  obtain ⟨next, more, hshape⟩ := hfirst
  have hne : lines ≠ [] := by
    rw [hshape]
    exact List.cons_ne_nil _ _
  have hlines : (Text.lines (Text.joinWith e.separator lines)).map Text.trim =
      lines.map Text.trim :=
    Text.map_trim_lines_joinWith hne fun l hl => (h l hl).1
  have hending : LineEnding.ofText (Text.joinWith e.separator lines) = e := by
    rw [hshape] at h ⊢
    exact LineEnding.ofText_joinWith fun l hl => (h l hl).2
  have hstart : (Text.lines (Text.joinWith e.separator lines)).map Text.trim =
      t.opening :: (next :: more).map Text.trim := by
    rw [hlines, hshape, List.map_cons, Text.trim_eq_self_iff.mpr t.kept_opening.isTrimmed]
  obtain ⟨out, hout⟩ := sanitizeText_isOk_of_first hstart t.kept_opening rfl
  exact ⟨out, hout, by rw [text_eq_joinWith hout, Dump.retained_of_map_trim_eq hlines, hending]⟩

/-- A dump with a table begins with an opening line and has another line after it. -/
theorem exists_first_lines (y : Layout) (t : Table) (rest : List Text) :
    ∃ next more, t.dumpedLines y ++ rest = t.opening :: next :: more := by
  obtain ⟨tail, htail⟩ : ∃ tail, t.dumpedLines y ++ rest = t.opening :: tail := ⟨_, rfl⟩
  cases tail with
  | cons next more => exact ⟨next, more, htail⟩
  | nil =>
    rw [Table.dumpedLines] at htail
    simp at htail

/-- Blocks of lines, each of which opens a table, are accepted and come out block by block. -/
theorem sanitizeText_blocks {α : Type} (y : Layout) {f g : α → List Text} (table : α → Table)
    (hfirst : ∀ x rest, ∃ next more, f x ++ rest = (table x).opening :: next :: more)
    (hunbroken : ∀ x, ∀ l ∈ f x, Unbroken l)
    (hfinal : ∀ x rest, Dump.closesNext rest = false →
      Dump.finalLines (Dump.retained (f x) ++ rest) = g x ++ Dump.finalLines rest ∧
        Dump.closesNext (Dump.retained (f x) ++ rest) = false) (blocks : List α) :
    ∃ out, sanitizeText (y.joined (blocks.flatMap f)) = .ok out ∧
      out.text = y.joined (blocks.flatMap g) := by
  cases blocks with
  | nil =>
    -- without a line the line ending cannot be told, and nothing is joined by it
    have htext : y.joined [] = [] := by
      rw [Layout.joined, Layout.terminator]
      cases y.isTerminated <;> rfl
    rw [List.flatMap_nil, List.flatMap_nil, htext]
    exact ⟨_, rfl, rfl⟩
  | cons x blocks =>
    have hlines : ∀ l ∈ (x :: blocks).flatMap f ++ y.terminator, Unbroken l := by
      intro l hl
      rcases List.mem_append.mp hl with hl | hl
      · obtain ⟨x, -, hx⟩ := List.mem_flatMap.mp hl
        exact hunbroken x l hx
      · exact unbroken_terminator y l hl
    have hopening : ∃ next more,
        (x :: blocks).flatMap f ++ y.terminator = (table x).opening :: next :: more := by
      rw [List.flatMap_cons, List.append_assoc]
      exact hfirst x _
    obtain ⟨out, hout, htext⟩ := sanitizeText_opened (table x) y.ending hopening hlines
    obtain ⟨hretained, hopen, hend⟩ := finalLines_terminator y
    have hblocks := finalLines_flatMap hfinal (x :: blocks) hopen
    refine ⟨out, hout, ?_⟩
    rw [htext, Dump.retained_append, hretained, hblocks.1, hend]
    rfl

/-- Tables in the dialect of a dump are accepted and come out as the same tables in the target
dialect, whatever the layout of the dump. -/
theorem sanitizeText_dumped (y : Layout) (tables : List Table) :
    ∃ out, sanitizeText (y.dumped tables) = .ok out ∧ out.text = y.translated tables := by
  have hfinal (t : Table) (rest : List Text) (hrest : Dump.closesNext rest = false) :=
    finalLines_table y t hrest
  exact sanitizeText_blocks y id (exists_first_lines y) (unbroken_dumpedLines y) hfinal tables

example :
    let id : Column := ⟨⟨"id".toList, by decide⟩,
      ⟨"int".toList, some "10".toList, by decide, by decide, by decide, by decide⟩,
      true, none, none, .notNull⟩
    let key : KeyLine := ⟨"PRIMARY KEY (\"id\")".toList, by decide, by decide, by decide⟩
    let users : Table := ⟨⟨"users".toList, by decide⟩, [id], by simp, [key], none,
      [[.integer 1, .integer (-2)]]⟩
    let y : Layout := ⟨"  ".toList, by decide, .lf, List.map ([·]), true⟩
    y.dumped [users] =
        ("CREATE TABLE \"users\" (\n  \"id\" int(10) unsigned NOT NULL,\n" ++
          "  PRIMARY KEY (\"id\")\n);\nINSERT INTO \"users\" VALUES (1,-2);\n").toList ∧
      y.translated [users] =
        ("CREATE TABLE \"users\" (\n\"id\" int(10) NOT NULL\n);\n" ++
          "INSERT INTO \"users\" VALUES (1,-2);\n").toList := by
  decide

end Dialect
end DumpConversion
