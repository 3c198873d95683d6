import DumpConversion.Text.Lines

/-! # Retained lines

The lines kept so far. Only the newest line that is not blank may still change, and only by losing
trailing commas.

* `Retained.lines`: the view of the retained lines, oldest line first.
* `Retained.add`: one more line.
* `Retained.dropTrailingCommas`: the comma repair, with the number of commas removed; there is
  nothing to repair when every line is blank.
-/

namespace DumpConversion

set_option autoImplicit false

/-- The retained lines, the newest first. -/
structure Retained where
  newestFirst : List Text
  deriving DecidableEq, Repr

namespace Retained

/-- No lines. -/
def empty : Retained := ⟨[]⟩

/-- The retained lines in the order in which they were added. -/
def lines (r : Retained) : List Text := r.newestFirst.reverse

/-- Adds a line. -/
def add (r : Retained) (line : Text) : Retained := ⟨line :: r.newestFirst⟩

/-- The line added last. -/
def newest? (r : Retained) : Option Text := r.newestFirst.head?

/-- The line without the commas it ends with. -/
def withoutTrailingCommas (line : Text) : Text := Text.dropTrailing (· == ',') line

/-- Removes the trailing commas of the first line that is not blank, and counts them. -/
def dropCommas : List Text → Option (List Text × Nat)
  | [] => none
  | line :: older =>
    if Text.isBlankText line then
      (dropCommas older).map fun p => (line :: p.1, p.2)
    else
      let kept := withoutTrailingCommas line
      some (kept :: older, line.length - kept.length)

/-- Removes the trailing commas of the newest line that is not blank, and counts them. -/
def dropTrailingCommas (r : Retained) : Option (Retained × Nat) :=
  (dropCommas r.newestFirst).map fun p => (⟨p.1⟩, p.2)

/-- The retained lines as one text. -/
def joinedBy (r : Retained) (separator : Text) : Text := Text.joinWith separator r.lines

/-! ## Small lemmas -/

@[simp] theorem lines_empty : empty.lines = [] := rfl

@[simp] theorem lines_add (r : Retained) (line : Text) :
    (r.add line).lines = r.lines ++ [line] := by
  simp [lines, add]

@[simp] theorem newest?_add (r : Retained) (line : Text) : (r.add line).newest? = some line := rfl

theorem dropCommas_eq_none_iff {ls : List Text} :
    dropCommas ls = none ↔ ∀ line ∈ ls, Text.isBlankText line = true := by
  induction ls with
  | nil => simp [dropCommas]
  | cons line older ih =>
    by_cases h : Text.isBlankText line = true
    · simp [dropCommas, h, ih]
    · simp [dropCommas, h]

theorem dropTrailingCommas_eq_none_iff {r : Retained} :
    r.dropTrailingCommas = none ↔ ∀ line ∈ r.lines, Text.isBlankText line = true := by
  simp [dropTrailingCommas, lines, dropCommas_eq_none_iff]

end Retained

end DumpConversion
