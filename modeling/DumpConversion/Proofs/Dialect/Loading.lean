import DumpConversion.Proofs.Database.Queries
import DumpConversion.Proofs.Database.Reading
import DumpConversion.Proofs.Dialect.Listing

/-! # Loading tables in the target dialect

The lines of a listing in the target dialect are the statements that make its table and fill it.

* `Listing.Loadable`: what the database asks of a table, beyond the form of its lines.
* `Listing.stored`: the table that results.
* `Item`: a column or a value as the tokens between two commas.
* `Says`, `Says.spells`: the text of a statement in the target dialect, and how it is read.
* `Script`, `script_listings`: the lines of listings are a script of statements.
* `Loadable.executeAll`: these statements make the tables and fill them.
-/

namespace DumpConversion.Dialect

set_option autoImplicit false

open SqlToken (Reads ReadsLines BeginsApart Whole beginsApart_cons)

/-! ## What a database asks for -/

/-- One or two numerals, as in the type of a column. -/
inductive IsSize : Text → Prop where
  | one (a : Digits) : IsSize a.text
  | two (a b : Digits) : IsSize (a.text ++ ',' :: b.text)

structure ColumnType.IsSimple (t : ColumnType) : Prop where
  start : t.word.head?.any Char.isDigit = false
  word : t.word ∉ SqlToken.reservedWords
  size : ∀ s ∈ t.size, IsSize s

/-- Of the strings only those without control characters are loaded as they are. -/
def Cell.isPrintable : Cell → Bool
  | string s => s.text.all fun c => decide (' ' ≤ c) && c != '\x7F'
  | _ => true

/-- A table that the database can make and fill. -/
structure Listing.Loadable (t : Listing) : Prop where
  name : ¬ reservedStart <+: t.name.text
  columns : (t.columns.map fun c => c.name.text).Nodup
  types : ∀ c ∈ t.columns, c.type.IsSimple
  widths : ∀ row ∈ t.rows, row.length = t.columns.length
  /-- No column that may not be null is given a null. -/
  filled : ∀ row ∈ t.rows, ∀ cell ∈ t.columns.zip row, cell.1.nullness = .notNull → cell.2 ≠ .null
  printable : ∀ row ∈ t.rows, ∀ v ∈ row, v.isPrintable = true

/-- Tables that a new database can take together. -/
structure Loadable (tables : List Listing) : Prop where
  each : ∀ t ∈ tables, t.Loadable
  names : (tables.map fun t => t.name.text).Nodup

theorem Listing.filled_of_nullable {t : Listing} (h : ∀ c ∈ t.columns, c.nullness ≠ .notNull) :
    ∀ row ∈ t.rows, ∀ cell ∈ t.columns.zip row, cell.1.nullness = .notNull → cell.2 ≠ .null :=
  fun _ _ cell hcell hnotNull => absurd hnotNull (h cell.1 (List.of_mem_zip hcell).1)

/-! ## What it stores -/

def Column.stored (c : Column) : DumpConversion.Column :=
  ⟨c.name.text, decide (c.nullness = .notNull)⟩

def Cell.stored : Cell → DumpConversion.Value
  | null => .null
  | number isNegative whole places => .number (signed isNegative whole places)
  | string s => .text s.text

def Listing.stored (t : Listing) : DumpConversion.Table :=
  ⟨t.name.text, t.columns.map Column.stored, t.rows.map (List.map Cell.stored)⟩

/-! ## Items -/

/-- The text gives the tokens, and neither a comma nor a semicolon comes between them. -/
structure Item (text : Text) (p : List SqlToken) : Prop where
  reads : Reads text p
  whole : Whole p
  unended : .symbol ';' ∉ p

section

variable {texts : List Text} {pieces : List (List SqlToken)}

theorem unended_intercalate (h : ∀ p ∈ pieces, .symbol ';' ∉ p) :
    .symbol ';' ∉ List.intercalate [.symbol ','] pieces := by
  induction pieces with
  | nil => exact List.not_mem_nil
  | cons p pieces ih =>
    obtain ⟨hp, hpieces⟩ := List.forall_mem_cons.mp h
    cases pieces with
    | nil => simpa [List.intercalate] using hp
    | cons q pieces =>
      rw [List.intercalate_cons_cons, List.append_assoc, List.mem_append, List.mem_append]
      rintro (hmem | hmem | hmem)
      · exact hp hmem
      · exact absurd hmem (by decide)
      · exact ih hpieces hmem

theorem reads_joinWith (h : List.Forall₂ Item texts pieces) :
    Reads (Text.joinWith [','] texts) (List.intercalate [.symbol ','] pieces) := by
  induction h with
  | nil => exact .nil
  | @cons text p texts pieces hitem hitems ih =>
    cases hitems with
    | nil => simpa [Text.joinWith, List.intercalate] using hitem.reads
    | cons hnext hitems =>
      rw [Text.joinWith_cons (List.cons_ne_nil _ _), List.intercalate_cons_cons,
        List.append_assoc, List.append_assoc]
      exact hitem.reads.append (.symbol_cons (by decide) ih) (beginsApart_cons (by decide) _)

theorem readsLines_separated (h : List.Forall₂ Item texts pieces) :
    ReadsLines (separated texts) (List.intercalate [.symbol ','] pieces) := by
  induction h with
  | nil => exact .nil
  | @cons text p texts pieces hitem hitems ih =>
    cases hitems with
    | nil =>
      simpa [separated, List.intercalate] using ReadsLines.singleton hitem.reads
    | cons hnext hitems =>
      have hcomma : Reads [','] [.symbol ','] := .symbol_cons (by decide) .nil
      rw [List.intercalate_cons_cons, separated]
      exact .cons (hitem.reads.append hcomma (beginsApart_cons (by decide) _)) ih

end

/-! ## Names and numbers -/

theorem foldCase_of_subset {s : Text} (h : s ⊆ nameLetters) : foldCase s = s := by
  have hlower : nameLetters.all (fun c => decide (c.toLower = c)) = true := by decide
  have hid : s.map Char.toLower = s.map id := List.map_congr_left fun c hc =>
    of_decide_eq_true (List.all_eq_true.mp hlower c (h hc))
  rw [foldCase, hid, List.map_id]

theorem Name.nulFree (n : Name) : '\x00' ∉ n.text := fun h => absurd (n.letters h) (by decide)

theorem Name.reads (n : Name) : Reads n.quoted [.name n.text] :=
  .name n.nulFree fun h => absurd (n.letters h) (by decide)

theorem Digits.isDigit (d : Digits) : ∀ c ∈ d.text, c.isDigit = true := by
  have hdigits : "0123456789".toList.all Char.isDigit = true := by decide
  exact fun c hc => List.all_eq_true.mp hdigits c (d.letters hc)

theorem Digits.count_point (d : Digits) : d.text.count '.' = 0 :=
  List.count_eq_zero.mpr fun h => absurd (d.letters h) (by decide)

section

variable (whole : Digits) (places : Option Digits)

theorem head?_magnitude : (magnitude whole places).head?.any Char.isDigit = true := by
  obtain ⟨c, s, hwhole⟩ := List.exists_cons_of_ne_nil whole.ne_nil
  have hc : c.isDigit = true := whole.isDigit c (by rw [hwhole]; exact List.mem_cons_self)
  cases places <;> simpa [magnitude, hwhole] using hc

theorem isNumber_magnitude : SqlToken.isNumber (magnitude whole places) = true := by
  have hpoints : (magnitude whole places).count '.' ≤ 1 := by
    cases places with
    | none => simp [magnitude, whole.count_point]
    | some places => simp [magnitude, whole.count_point, places.count_point]
  have hdigit : (magnitude whole places).any Char.isDigit = true := by
    have hhead := head?_magnitude whole places
    cases hs : magnitude whole places with
    | nil =>
      rw [hs] at hhead
      cases hhead
    | cons c s =>
      rw [hs] at hhead
      rw [List.any_cons, show c.isDigit = true from hhead, Bool.true_or]
  rw [SqlToken.isNumber, hdigit, decide_eq_true hpoints]
  rfl

theorem reads_magnitude : Reads (magnitude whole places) [.number (magnitude whole places)] := by
  have hletters : ".0123456789".toList.all SqlToken.isNumberPart = true := by decide
  exact .number (head?_magnitude whole places)
    (fun c hc => List.all_eq_true.mp hletters c (magnitude_subset whole places hc))
    (isNumber_magnitude whole places)

end

theorem Digits.reads (d : Digits) : Reads d.text [.number d.text] := reads_magnitude d none

/-! ## Columns -/

namespace ColumnType

variable {t : ColumnType}

theorem isTypeWord (h : t.IsSimple) : Statement.isTypeWord (.word t.word) = true := by
  have hfree : SqlToken.isReserved t.word = false := by
    rw [SqlToken.isReserved, foldCase_of_subset t.letters]
    simpa using h.word
  rw [Statement.isTypeWord, hfree]
  rfl

theorem reads_word (h : t.IsSimple) : Reads t.word [.word t.word] := by
  have hstart : nameLetters.all (fun c => c.isDigit || decide (c ∈ Reads.startLetters)) = true := by
    decide
  have hparts : nameLetters.all SqlToken.isWordPart = true := by decide
  obtain ⟨c, w, hword⟩ := List.exists_cons_of_ne_nil t.ne_nil
  have hfirst := List.all_eq_true.mp hstart c (t.letters (by rw [hword]; exact List.mem_cons_self))
  have hdigit := h.start
  refine .word (Bool.and_eq_true_iff.mpr ⟨?_, List.all_eq_true.mpr fun d hd =>
    List.all_eq_true.mp hparts d (t.letters hd)⟩)
  rw [hword] at hdigit ⊢
  simpa [show c.isDigit = false from hdigit] using hfirst

theorem exists_sizes (h : t.IsSimple) :
    ∃ sizes, Statement.Sizes sizes ∧ Reads t.text (.word t.word :: sizes) := by
  have hword := reads_word h
  cases hs : t.size with
  | none =>
    have htext : t.text = t.word := by rw [text, hs, List.append_nil]
    rw [htext]
    exact ⟨[], .none, hword⟩
  | some s =>
    have htext : t.text = t.word ++ '(' :: (s ++ [')']) := by rw [text, hs]
    have hclose : Reads [')'] [.symbol ')'] := .symbol_cons (by decide) .nil
    rw [htext]
    cases h.size s hs with
    | one a =>
      have hsize := a.reads.append hclose (beginsApart_cons (by decide) _)
      exact ⟨_, .one a.text, hword.append (.symbol_cons (by decide) hsize)
        (beginsApart_cons (by decide) _)⟩
    | two a b =>
      have hsize := a.reads.append (.symbol_cons (c := ',') (by decide)
        (b.reads.append hclose (beginsApart_cons (by decide) _))) (beginsApart_cons (by decide) _)
      rw [List.append_assoc, List.cons_append]
      exact ⟨_, .two a.text b.text, hword.append (.symbol_cons (by decide) hsize)
        (beginsApart_cons (by decide) _)⟩

end ColumnType

theorem Nullness.exists_constraints (n : Nullness) :
    ∃ constraints, Statement.Constraints constraints (decide (n = .notNull)) ∧
      Reads n.text constraints ∧ BeginsApart n.text := by
  have htwo {a b : Text} (ha : Reads a [.word a]) (hb : Reads b [.word b]) :
      Reads (' ' :: (a ++ ' ' :: b)) [.word a, .word b] := .blank_cons rfl (ha.spaced hb)
  cases n with
  | unsaid => exact ⟨[], .none, .nil, fun _ hc => by cases hc⟩
  | notNull =>
    exact ⟨_, .notNull, htwo (a := "NOT".toList) (b := "NULL".toList) (.word (by decide))
      (.word (by decide)), beginsApart_cons (by decide) _⟩
  | defaultNull =>
    exact ⟨_, .defaultNull, htwo (a := "DEFAULT".toList) (b := "NULL".toList) (.word (by decide))
      (.word (by decide)), beginsApart_cons (by decide) _⟩

theorem Column.exists_item (c : Column) (h : c.type.IsSimple) :
    ∃ p, Item c.translated p ∧ Statement.readColumn p = some c.stored := by
  obtain ⟨sizes, hsizes, htype⟩ := ColumnType.exists_sizes h
  obtain ⟨constraints, hconstraints, hnullness, hapart⟩ := c.nullness.exists_constraints
  refine ⟨_, ⟨(c.name.reads.spaced htype).append hnullness hapart, ?_, ?_⟩,
    Statement.readColumn_eq (ColumnType.isTypeWord h) hsizes hconstraints⟩
  · have hrest := hsizes.whole.append hconstraints.whole
    exact .cons (fun d => by simp) (.cons (fun d => by simp) hrest)
  · simp [hsizes.unended, hconstraints.unended]

/-! ## Values -/

theorem withQuotes_eq_replaceAll (quote s : Text) :
    withQuotes quote s = (Text.replaceAll ['\''] quote s).1 := by
  induction s with
  | nil => rfl
  | cons c s ih => rw [withQuotes, ih, Text.replaceAll_char_cons]

theorem Cell.exists_item {c : Cell} (h : c.isPrintable = true) :
    ∃ p, Item (c.text Line.quotePair) p ∧ Statement.readValue p = some c.stored := by
  cases c with
  | null =>
    exact ⟨_, ⟨.word (by decide), .cons (fun d => by simp) .nil, by simp⟩, by decide⟩
  | number isNegative whole places =>
    have hmagnitude := reads_magnitude whole places
    cases isNegative with
    | false => exact ⟨_, ⟨hmagnitude, .cons (fun d => by simp) .nil, by simp⟩, rfl⟩
    | true =>
      exact ⟨_, ⟨.minus_cons hmagnitude (head?_magnitude whole places),
        .minus_cons (.cons (fun d => by simp) .nil), by simp⟩, rfl⟩
  | string s =>
    have hnul : '\x00' ∉ s.text := fun hmem =>
      absurd (List.all_eq_true.mp h _ hmem) (by decide)
    rw [Cell.text, Value.text, withQuotes_eq_replaceAll]
    exact ⟨_, ⟨.text (Reads.nulFree_replaceAll (by decide) hnul) fun rest hrest =>
      Reads.readQuoted_replaceAll s.text hrest, .cons (fun d => by simp) .nil, by simp⟩, rfl⟩

/-! ## Statements -/

theorem exists_pieces {α β : Type} {f : α → Text} {g : α → β} {read : List SqlToken → Option β}
    {l : List α} (h : ∀ x ∈ l, ∃ p, Item (f x) p ∧ read p = some (g x)) :
    ∃ pieces, List.Forall₂ Item (l.map f) pieces ∧
      (∀ p ∈ pieces, Whole p ∧ .symbol ';' ∉ p) ∧
      List.Forall₂ (fun p v => read p = some v) pieces (l.map g) := by
  induction l with
  | nil => exact ⟨[], .nil, List.forall_mem_nil _, .nil⟩
  | cons x l ih =>
    obtain ⟨⟨p, hitem, hread⟩, hl⟩ := List.forall_mem_cons.mp h
    obtain ⟨pieces, hitems, hwhole, hreads⟩ := ih hl
    exact ⟨p :: pieces, .cons hitem hitems,
      List.forall_mem_cons.mpr ⟨⟨hitem.whole, hitem.unended⟩, hwhole⟩, .cons hread hreads⟩

/-- The statements of the target dialect. -/
inductive Says : Text → Statement → Prop where
  | definition (t : Listing) (y : Layout) (simple : ∀ c ∈ t.columns, c.type.IsSimple) :
      Says (Text.joinWith y.ending.separator (t.definition.translatedLines y.withoutRows))
        (.createTable t.name.text (t.columns.map Column.stored))
  | insertion (n : Name) {row : List Cell} (ne_nil : row ≠ [])
      (printable : ∀ v ∈ row, v.isPrintable = true) :
      Says (insertionOf n [row.map (Cell.text Line.quotePair)])
        (.insert n.text (row.map Cell.stored))

theorem spells_insertion (n : Name) {row : List Cell} (hne : row ≠ [])
    (hprintable : ∀ v ∈ row, v.isPrintable = true) :
    Statement.Spells (insertionOf n [row.map (Cell.text Line.quotePair)])
      (.insert n.text (row.map Cell.stored)) := by
  obtain ⟨pieces, hitems, hpieces, hvalues⟩ :=
    exists_pieces fun c (hc : c ∈ row) => Cell.exists_item (hprintable c hc)
  have hsome : pieces ≠ [] := by
    rintro rfl
    exact hne (List.map_eq_nil_iff.mp (List.forall₂_nil_left_iff.mp hvalues))
  have hclose : Reads [')'] [.symbol ')'] := .symbol_cons (by decide) .nil
  have hrow : Reads (rowOf (row.map (Cell.text Line.quotePair)))
      (.symbol '(' :: (List.intercalate [.symbol ','] pieces ++ [.symbol ')'])) :=
    .symbol_cons (by decide)
      ((reads_joinWith hitems).append hclose (beginsApart_cons (by decide) _))
  have hline : Reads ("INSERT INTO ".toList ++ (n.quoted ++ (" VALUES ".toList ++
      rowOf (row.map (Cell.text Line.quotePair)))))
      (.word "INSERT".toList :: .word "INTO".toList :: .name n.text :: .word "VALUES".toList ::
        .symbol '(' :: (List.intercalate [.symbol ','] pieces ++ [.symbol ')'])) :=
    (Reads.word (w := "INSERT".toList) (by decide)).spaced
      ((Reads.word (w := "INTO".toList) (by decide)).spaced (n.reads.spaced
        ((Reads.word (w := "VALUES".toList) (by decide)).spaced hrow)))
  have hcommas := unended_intercalate fun p hp => (hpieces p hp).2
  refine ⟨_, _, ?_, hline, by simp [SqlToken.statementEnd, hcommas],
    Statement.read_insert hsome (fun p hp => (hpieces p hp).1) hvalues⟩
  have happend (a b c d e : Text) : a ++ (b ++ (c ++ (d ++ e))) = a ++ (b ++ (c ++ d)) ++ e := by
    simp only [List.append_assoc]
  exact happend _ _ _ _ _

theorem spells_definition (t : Listing) (y : Layout) (h : ∀ c ∈ t.columns, c.type.IsSimple) :
    Statement.Spells
      (Text.joinWith y.ending.separator (t.definition.translatedLines y.withoutRows))
      (.createTable t.name.text (t.columns.map Column.stored)) := by
  obtain ⟨pieces, hitems, hpieces, hcolumns⟩ :=
    exists_pieces fun c hc => Column.exists_item c (h c hc)
  have hsome : pieces ≠ [] := by
    rintro rfl
    exact t.columns_ne (List.map_eq_nil_iff.mp (List.forall₂_nil_left_iff.mp hcolumns))
  have hopening : Reads t.definition.opening
      [.word "CREATE".toList, .word "TABLE".toList, .name t.name.text, .symbol '('] :=
    (Reads.word (w := "CREATE".toList) (by decide)).spaced
      ((Reads.word (w := "TABLE".toList) (by decide)).spaced
        (t.name.reads.spaced (.symbol_cons (by decide) .nil)))
  have hclosing : Reads [')'] [.symbol ')'] := .symbol_cons (by decide) .nil
  have hlines : Reads (Text.joinWith y.ending.separator
      (t.definition.opening :: (separated (t.columns.map Column.translated) ++ [[')']])))
      (.word "CREATE".toList :: .word "TABLE".toList :: .name t.name.text ::
        .symbol '(' :: (List.intercalate [.symbol ','] pieces ++ [.symbol ')'])) :=
    (ReadsLines.cons hopening ((readsLines_separated hitems).append
      (.singleton hclosing))).joinWith y.ending
  have hcommas := unended_intercalate fun p hp => (hpieces p hp).2
  refine ⟨_, _, ?_, hlines, by simp [SqlToken.statementEnd, hcommas],
    Statement.read_createTable hsome (fun p hp => (hpieces p hp).1) hcolumns⟩
  exact Text.joinWith_concat_append
    (t.definition.opening :: separated (t.columns.map Column.translated)) [')'] [';']

/-- Every statement of the target dialect is read as what it says. -/
theorem Says.spells {text : Text} {s : Statement} (h : Says text s) : Statement.Spells text s := by
  cases h with
  | definition t y hsimple => exact spells_definition t y hsimple
  | insertion n hne hprintable => exact spells_insertion n hne hprintable

/-! ## Scripts -/

/-- Statements of the target dialect with line ends before and behind them. -/
inductive Script : Text → List Statement → Prop where
  | blank {blank : Text} (ends : blank ⊆ ['\r', '\n']) : Script blank []
  | cons {blank text rest : Text} {s : Statement} {statements : List Statement}
      (ends : blank ⊆ ['\r', '\n']) (first : Says text s)
      (more : Script rest statements) : Script (blank ++ text ++ rest) (s :: statements)

/-- The lines belong to the statements, each of which has lines of its own. -/
def Blocks (y : Layout) (lines : List Text) (statements : List Statement) : Prop :=
  ∃ blocks, lines = blocks.flatten ∧ List.Forall₂ (fun block s =>
    block ≠ [] ∧ Says (Text.joinWith y.ending.separator block) s) blocks statements

theorem exists_joinWith_append (e : LineEnding) {block : List Text} (hne : block ≠ [])
    (lines : List Text) : ∃ blank, blank ⊆ ['\r', '\n'] ∧
      Text.joinWith e.separator (block ++ lines) =
        Text.joinWith e.separator block ++ (blank ++ Text.joinWith e.separator lines) := by
  by_cases hlines : lines = []
  · refine ⟨[], List.nil_subset _, ?_⟩
    rw [hlines, List.append_nil]
    exact (List.append_nil _).symm
  · refine ⟨e.separator, by cases e <;> decide, ?_⟩
    rw [Text.joinWith_append hne hlines, List.append_assoc]

namespace Blocks

variable {y : Layout} {ls ls' : List Text} {ss ss' : List Statement}

theorem singleton {s : Statement} (hne : ls ≠ [])
    (h : Says (Text.joinWith y.ending.separator ls) s) : Blocks y ls [s] :=
  ⟨[ls], List.flatten_singleton.symm, .cons ⟨hne, h⟩ .nil⟩

theorem append (h : Blocks y ls ss) (h' : Blocks y ls' ss') : Blocks y (ls ++ ls') (ss ++ ss') := by
  obtain ⟨blocks, rfl, hsays⟩ := h
  obtain ⟨blocks', rfl, hsays'⟩ := h'
  exact ⟨blocks ++ blocks', List.flatten_append.symm, List.rel_append hsays hsays'⟩

theorem flatMap {α : Type} {f : α → List Text} {g : α → List Statement} {xs : List α}
    (h : ∀ x ∈ xs, Blocks y (f x) (g x)) : Blocks y (xs.flatMap f) (xs.flatMap g) := by
  induction xs with
  | nil => exact ⟨[], rfl, .nil⟩
  | cons x xs ih =>
    obtain ⟨hx, hxs⟩ := List.forall_mem_cons.mp h
    exact hx.append (ih hxs)

/-- Line endings stand between the blocks, and perhaps one behind the last of them. -/
theorem script (h : Blocks y ls ss) {blank : Text} (hblank : blank ⊆ ['\r', '\n']) :
    Script (blank ++ y.joined ls) ss := by
  obtain ⟨blocks, rfl, hsays⟩ := h
  induction hsays generalizing blank with
  | nil =>
    have hnone : y.joined [] = [] := by
      rw [Layout.joined, Layout.terminator]
      split <;> rfl
    rw [List.flatten_nil, hnone, List.append_nil]
    exact .blank hblank
  | @cons block s blocks ss hfirst _ ih =>
    obtain ⟨blank', hblank', hjoined⟩ :=
      exists_joinWith_append y.ending hfirst.1 (blocks.flatten ++ y.terminator)
    rw [List.flatten_cons, Layout.joined, List.append_assoc, hjoined, ← List.append_assoc]
    exact .cons hblank hfirst.2 (ih hblank')

end Blocks

theorem blocks_listing (t : Listing) (y : Layout) (h : t.Loadable) :
    Blocks y (t.translatedLines y) t.stored.statements := by
  have hrows : ∀ row ∈ t.rows, row ≠ [] := by
    rintro row hrow rfl
    exact t.columns_ne (List.length_eq_zero_iff.mp (h.widths [] hrow).symm)
  have hdefinition : Blocks y (t.definition.translatedLines y.withoutRows)
      [.createTable t.name.text (t.columns.map Column.stored)] :=
    .singleton (List.cons_ne_nil _ _) (.definition t y h.types)
  have hinsertions : Blocks y
      (t.rows.flatMap fun row => [insertionOf t.name [row.map (Cell.text Line.quotePair)]])
      (t.rows.flatMap fun row => [.insert t.name.text (row.map Cell.stored)]) :=
    .flatMap fun row hrow => .singleton (List.cons_ne_nil _ _)
      (.insertion t.name (hrows row hrow) (h.printable row hrow))
  rw [← List.map_eq_flatMap, ← List.map_eq_flatMap] at hinsertions
  have hstatements : t.stored.statements =
      [.createTable t.name.text (t.columns.map Column.stored)] ++
        t.rows.map fun row => .insert t.name.text (row.map Cell.stored) := by
    rw [DumpConversion.Table.statements, Listing.stored, List.map_map]
    rfl
  rw [hstatements]
  exact hdefinition.append hinsertions

/-- The lines of listings in the target dialect make the tables and fill them. -/
theorem script_listings (y : Layout) {tables : List Listing} (h : ∀ t ∈ tables, t.Loadable) :
    Script (y.joined (tables.flatMap (Listing.translatedLines · y)))
      ((tables.map Listing.stored).flatMap DumpConversion.Table.statements) := by
  rw [List.flatMap_map]
  exact (Blocks.flatMap fun t ht => blocks_listing t y (h t ht)).script (List.nil_subset _)

/-! ## Tables -/

namespace Listing

variable {t : Listing}

theorem foldCase_name (t : Listing) : foldCase t.stored.name = t.name.text :=
  foldCase_of_subset t.name.letters

theorem Loadable.fits (h : t.Loadable) {row : List Cell} (hrow : row ∈ t.rows) :
    DumpConversion.Table.Fits t.stored.columns (row.map Cell.stored) where
  width := by simp [stored, h.widths row hrow]
  filled := by
    intro cell hcell hrequired hnull
    rw [stored, List.zip_map] at hcell
    obtain ⟨⟨c, v⟩, hmem, rfl⟩ := List.mem_map.mp hcell
    have hv : v = .null := by
      cases v with
      | null => rfl
      | number => cases hnull
      | string => cases hnull
    exact h.filled row hrow (c, v) hmem (of_decide_eq_true hrequired) hv

/-- Nothing in a loadable table keeps the database from making and filling it. -/
theorem Loadable.makeable (h : t.Loadable) : t.stored.Makeable where
  name := by
    rw [Bool.eq_false_iff, Ne, List.isPrefixOf_iff_prefix, t.foldCase_name]
    exact fun hstart => h.name (List.IsPrefix.trans (by decide) hstart)
  columns := by
    refine repeatedName?_eq_none_iff.mpr ?_
    have hnames : (t.stored.columns.map DumpConversion.Column.name).map foldCase =
        t.columns.map fun c => c.name.text := by
      rw [stored, List.map_map, List.map_map]
      exact List.map_congr_left fun c _ => foldCase_of_subset c.name.letters
    rw [hnames]
    exact h.columns
  rows := by
    intro row hrow
    obtain ⟨cells, hcells, rfl⟩ := List.mem_map.mp hrow
    exact h.fits hcells

def counted (t : Listing) : TableCount := ⟨t.name.text, (t.insertions Line.backslashQuote).length⟩

theorem counted_stored (t : Listing) : t.stored.counted = t.counted := by
  rw [counted, insertions, List.length_map, DumpConversion.Table.counted, stored, List.length_map]

theorem Loadable.not_reserved (h : t.Loadable) : isReservedName t.counted.name = false := by
  rw [Bool.eq_false_iff]
  intro hreserved
  have hstart := (isReservedName_iff.mp hreserved).1
  rw [counted, foldCase_of_subset t.name.letters] at hstart
  exact h.name hstart

end Listing

theorem length_insertions (tables : List Listing) :
    (tables.flatMap (Listing.insertions · Line.backslashQuote)).length =
      (tables.map Listing.counted).foldr (fun t n => t.rows + n) 0 := by
  induction tables with
  | nil => rfl
  | cons t tables ih =>
    rw [List.flatMap_cons, List.length_append, ih, List.map_cons, List.foldr_cons, Listing.counted]

/-- In a new database the statements of loadable tables make these tables and nothing else, each with
a row for every insertion. -/
theorem Loadable.executeAll {tables : List Listing} (h : Loadable tables) :
    ∃ (db : Database) (hnamed : db.WellNamed), Database.empty.executeAll
        ((tables.map Listing.stored).flatMap DumpConversion.Table.statements) = .ok db ∧
      db.problems = [] ∧ (db.catalog hnamed).tables = tables.map Listing.counted := by
  have hmakeable : ∀ t ∈ tables.map Listing.stored, t.Makeable :=
    List.forall_mem_map.mpr fun t ht => (h.each t ht).makeable
  have hfolded : (tables.map Listing.stored).map (fun t => foldCase t.name) =
      tables.map fun t => t.name.text := by
    rw [List.map_map]
    exact List.map_congr_left fun t _ => Listing.foldCase_name t
  have hnames : ((tables.map Listing.stored).map fun t => foldCase t.name).Nodup :=
    hfolded ▸ h.names
  have hnamed := Database.wellNamed_tables hnames
    (List.forall_mem_map.mpr fun t _ => t.name.nulFree)
  refine ⟨_, hnamed, Database.executeAll_tables hmakeable hnames fun _ _ => List.forall_mem_nil _,
    Database.problems_tables hmakeable, ?_⟩
  have htables : (Database.mk ((tables.map Listing.stored).map .table)).tables =
      tables.map Listing.stored := Database.tables_mk _
  have hcounted : (tables.map Listing.stored).map DumpConversion.Table.counted =
      tables.map Listing.counted := by
    rw [List.map_map]
    exact List.map_congr_left fun t _ => Listing.counted_stored t
  exact (congrArg (List.map DumpConversion.Table.counted) htables).trans hcounted

end DumpConversion.Dialect
