import DumpConversion.Text.Occurrence

/-! # Lines

A text is cut into lines at its line feeds and put together again with a separator.

* `splitOn sep`: the pieces of a text between the occurrences of one character, always at least one.
* `joinWith sep`: the pieces in order with `sep` between neighbours.
* `LineEnding`: which separator a text uses. One carriage return before a line feed settles it.
-/

namespace DumpConversion

set_option autoImplicit false

namespace Text

/-! ## Cutting and joining -/

/-- The pieces of the text between the occurrences of `sep`. -/
def splitOn (sep : Char) : Text → List Text
  | [] => [[]]
  | c :: s =>
    if c = sep then [] :: splitOn sep s
    else match splitOn sep s with
      | [] => [[c]]
      | piece :: rest => (c :: piece) :: rest

/-- The pieces in order, with `sep` between neighbours. -/
def joinWith (sep : Text) : List Text → Text
  | [] => []
  | [piece] => piece
  | piece :: rest => piece ++ sep ++ joinWith sep rest

/-- The lines of a text: its pieces between line feeds. -/
def lines (s : Text) : List Text := splitOn '\n' s

/-! ## Small lemmas -/

theorem splitOn_ne_nil (sep : Char) (s : Text) : splitOn sep s ≠ [] := by
  cases s with
  | nil => simp [splitOn]
  | cons c s =>
    by_cases h : c = sep
    · simp [splitOn, h]
    · simp only [splitOn, if_neg h]
      split <;> simp

theorem joinWith_cons {sep piece : Text} {rest : List Text} (h : rest ≠ []) :
    joinWith sep (piece :: rest) = piece ++ sep ++ joinWith sep rest := by
  cases rest with
  | nil => exact absurd rfl h
  | cons _ _ => rfl

theorem joinWith_splitOn (sep : Char) (s : Text) : joinWith [sep] (splitOn sep s) = s := by
  induction s with
  | nil => rfl
  | cons c s ih =>
    by_cases h : c = sep
    · rw [splitOn, if_pos h, joinWith_cons (splitOn_ne_nil sep s), ih, h]
      rfl
    · rw [splitOn, if_neg h]
      cases hs : splitOn sep s with
      | nil => exact absurd hs (splitOn_ne_nil sep s)
      | cons piece rest =>
        rw [hs] at ih
        cases rest with
        | nil => simpa [joinWith] using ih
        | cons next rest => simpa [joinWith] using ih

theorem length_lines (s : Text) : (lines s).length = s.count '\n' + 1 := by
  unfold lines
  induction s with
  | nil => rfl
  | cons c s ih =>
    by_cases h : c = '\n'
    · simp [splitOn, h, ih]
    · simp only [splitOn, if_neg h]
      cases hs : splitOn '\n' s with
      | nil => exact absurd hs (splitOn_ne_nil '\n' s)
      | cons piece rest => simp [hs] at ih; simp [h, ih]

end Text

/-! ## Line endings -/

/-- The convention that separates the lines of a text. -/
inductive LineEnding where
  | lf
  | crlf
  deriving DecidableEq, Repr

namespace LineEnding

/-- The characters between two lines. -/
def separator : LineEnding → Text
  | lf => ['\n']
  | crlf => ['\r', '\n']

/-- A text that holds a carriage return before a line feed anywhere is `crlf`. -/
def ofText (s : Text) : LineEnding := if Text.occursIn crlf.separator s then crlf else lf

theorem ofText_eq_crlf_iff {s : Text} : ofText s = crlf ↔ ['\r', '\n'] <:+: s := by
  unfold ofText
  rw [← Text.occursIn_iff]
  by_cases h : Text.occursIn crlf.separator s = true
  · simp [h, show Text.occursIn ['\r', '\n'] s = true from h]
  · simp [h, show ¬ Text.occursIn ['\r', '\n'] s = true from h]

end LineEnding

end DumpConversion
