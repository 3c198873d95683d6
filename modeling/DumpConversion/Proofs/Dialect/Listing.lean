import DumpConversion.Proofs.Dialect.Translation

/-! # Tables with a line for every row

A dump may insert every row by itself. Its rows then take values of all kinds, and the number of its
insertions is the number of its rows.

* `Cell`: a null, a number with or without a point, or a string.
* `Listing`: a table with rows of cells, and its lines in the two dialects.
* `sanitizeText_listed`: a dump of listings is accepted and comes out translated.
-/

namespace DumpConversion.Dialect

set_option autoImplicit false

/-! ## Cells -/

structure Digits where
  text : Text
  ne_nil : text ≠ []
  letters : text ⊆ "0123456789".toList

inductive Cell where
  | null
  | number (isNegative : Bool) (whole : Digits) (places : Option Digits)
  | string (s : PlainString)

/-- A number without its sign. -/
def magnitude (whole : Digits) : Option Digits → Text
  | none => whole.text
  | some places => whole.text ++ '.' :: places.text

def signed (isNegative : Bool) (whole : Digits) (places : Option Digits) : Text :=
  if isNegative then '-' :: magnitude whole places else magnitude whole places

def Cell.text (quote : Text) : Cell → Text
  | null => "NULL".toList
  | number isNegative whole places => signed isNegative whole places
  | string s => (Value.string s).text quote

theorem magnitude_subset (whole : Digits) (places : Option Digits) :
    magnitude whole places ⊆ ".0123456789".toList := by
  have hdigits (d : Digits) : d.text ⊆ ".0123456789".toList :=
    List.Subset.trans d.letters (by decide)
  cases places with
  | none => exact hdigits whole
  | some places =>
    exact List.append_subset.mpr
      ⟨hdigits whole, List.cons_subset.mpr ⟨by decide, hdigits places⟩⟩

/-- Letters in which no rule finds anything stand for themselves. -/
theorem Written.of_subset {a letters : Text} (h : a ⊆ letters)
    (hletters : '\\' ∉ letters ∧ '\n' ∉ letters ∧ '\r' ∉ letters ∧ 'K' ∉ letters ∧ 'u' ∉ letters ∧
      'C' ∉ letters) : Written a a := by
  obtain ⟨hbackslash, hnewline, hreturn, hkey, hunsigned, hclause⟩ := hletters
  exact ⟨doubles_of_no_backslash fun hmem => hbackslash (h hmem),
    Text.not_infix_of_subset List.mem_cons_self hnewline h,
    Text.not_infix_of_subset List.mem_cons_self hreturn h,
    Text.not_infix_of_subset (by decide) hkey h, Text.not_infix_of_subset (by decide) hunsigned h,
    Text.not_infix_of_subset (by decide) hclause h, Text.not_infix_of_subset (by decide) hclause h⟩

theorem Written.cell (c : Cell) : Written (c.text Line.backslashQuote) (c.text Line.quotePair) := by
  cases c with
  | null => exact .of_subset (List.Subset.refl "NULL".toList) (by decide)
  | number isNegative whole places =>
    have hmagnitude : magnitude whole places ⊆ "-.0123456789".toList :=
      List.Subset.trans (magnitude_subset whole places) (by decide)
    cases isNegative with
    | false => exact .of_subset hmagnitude (by decide)
    | true => exact .of_subset (List.cons_subset.mpr ⟨by decide, hmagnitude⟩) (by decide)
  | string s => exact .value (.string s)

/-! ## Listings -/

/-- A table of which every row is inserted by itself. -/
structure Listing where
  name : Name
  columns : List Column
  columns_ne : columns ≠ []
  keys : List KeyLine
  characterSet : Option ClauseName
  rows : List (List Cell)

/-- The layout of definitions without rows. -/
def Layout.withoutRows (y : Layout) : Layout := { y with batches := fun _ => [] }

namespace Listing

variable (t : Listing)

def definition : Table := ⟨t.name, t.columns, t.columns_ne, t.keys, t.characterSet, []⟩

/-- One line for each row. -/
def insertions (quote : Text) : List Text :=
  t.rows.map fun row => insertionOf t.name [row.map (Cell.text quote)]

def dumpedLines (y : Layout) : List Text :=
  t.definition.dumpedLines y.withoutRows ++ t.insertions Line.backslashQuote

def translatedLines (y : Layout) : List Text :=
  t.definition.translatedLines y.withoutRows ++ t.insertions Line.quotePair

end Listing

/-- The listings as a dump writes them. How many rows an insertion takes is not up to the layout. -/
def Layout.listed (y : Layout) (tables : List Listing) : Text :=
  y.joined (tables.flatMap (Listing.dumpedLines · y))

/-! ## Translation -/

namespace Listing

variable (t : Listing)

theorem kept_insertion (row : List Cell) :
    Kept (insertionOf t.name [row.map (Cell.text Line.backslashQuote)])
      (insertionOf t.name [row.map (Cell.text Line.quotePair)]) :=
  kept_insertionOf Written.cell t.name [row]

theorem retained_insertions :
    Dump.retained (t.insertions Line.backslashQuote) = t.insertions Line.backslashQuote := by
  refine retained_kept fun l hl => ?_
  obtain ⟨row, -, rfl⟩ := List.mem_map.mp hl
  exact ⟨_, t.kept_insertion row⟩

theorem finalLines_listing (y : Layout) {rest : List Text} (hrest : Dump.closesNext rest = false) :
    Dump.finalLines (Dump.retained (t.dumpedLines y) ++ rest) =
        t.translatedLines y ++ Dump.finalLines rest ∧
      Dump.closesNext (Dump.retained (t.dumpedLines y) ++ rest) = false := by
  have hopen (row : List Cell) :
      Line.closesTable (insertionOf t.name [row.map (Cell.text Line.backslashQuote)]) = false := rfl
  have hnext := closesNext_kept t.kept_insertion hopen t.rows hrest
  obtain ⟨hlines, hfirst⟩ := finalLines_table y.withoutRows t.definition hnext
  rw [dumpedLines, Dump.retained_append, retained_insertions, List.append_assoc, insertions]
  refine ⟨?_, hfirst⟩
  rw [hlines, finalLines_kept t.kept_insertion hopen t.rows hrest, translatedLines, insertions,
    List.append_assoc]

theorem unbroken_listing (y : Layout) : ∀ l ∈ t.dumpedLines y, Unbroken l := by
  intro l hl
  rcases List.mem_append.mp hl with hl | hl
  · exact unbroken_dumpedLines y.withoutRows t.definition l hl
  · obtain ⟨row, -, rfl⟩ := List.mem_map.mp hl
    exact (t.kept_insertion row).unbroken

end Listing

/-- Listings in the dialect of a dump are accepted and come out in the target dialect, whatever the
layout of the dump. -/
theorem sanitizeText_listed (y : Layout) (tables : List Listing) :
    ∃ out, sanitizeText (y.listed tables) = .ok out ∧
      out.text = y.joined (tables.flatMap (Listing.translatedLines · y)) := by
  have hfirst (t : Listing) (rest : List Text) :
      ∃ next more, t.dumpedLines y ++ rest = t.definition.opening :: next :: more := by
    rw [Listing.dumpedLines, List.append_assoc]
    exact exists_first_lines y.withoutRows t.definition _
  have hfinal (t : Listing) (rest : List Text) (hrest : Dump.closesNext rest = false) :=
    t.finalLines_listing y hrest
  exact sanitizeText_blocks y Listing.definition hfirst (fun t => t.unbroken_listing y) hfinal tables

end DumpConversion.Dialect
