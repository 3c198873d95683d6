/-! # Blank characters

A text is a list of characters, so that every operation on it is a list operation.

* `isBlank`: the characters that separate words and pad lines, the Unicode property White_Space.
* `trim` and its two halves: a text without the blanks at its ends.
* `dropTrailing p`: a text without the longest tail whose characters all satisfy `p`.
-/

namespace DumpConversion

set_option autoImplicit false

/-- Text is handled as the list of its characters. -/
abbrev Text := List Char

namespace Text

/-! ## The property -/

/-- The inclusive code point ranges of the Unicode property White_Space. -/
def blankRanges : List (Nat × Nat) :=
  [(0x09, 0x0D), (0x20, 0x20), (0x85, 0x85), (0xA0, 0xA0), (0x1680, 0x1680), (0x2000, 0x200A),
    (0x2028, 0x2029), (0x202F, 0x202F), (0x205F, 0x205F), (0x3000, 0x3000)]

/-- A blank is a character with the Unicode property White_Space. -/
def isBlank (c : Char) : Bool :=
  blankRanges.any fun r => decide (r.1 ≤ c.toNat) && decide (c.toNat ≤ r.2)

/-- A text is blank when every character of it is; the empty text is blank. -/
def isBlankText (s : Text) : Bool := s.all isBlank

/-! ## Trimming -/

/-- The text without the longest tail whose characters satisfy `p`. -/
def dropTrailing (p : Char → Bool) (s : Text) : Text := (s.reverse.dropWhile p).reverse

/-- The text without the blanks it begins with. -/
def trimStart (s : Text) : Text := s.dropWhile isBlank

/-- The text without the blanks it ends with. -/
def trimEnd (s : Text) : Text := dropTrailing isBlank s

/-- The text without the blanks at either end. -/
def trim (s : Text) : Text := trimEnd (trimStart s)

/-! ## Small lemmas -/

@[simp] theorem isBlankText_nil : isBlankText [] = true := rfl

@[simp] theorem dropTrailing_nil (p : Char → Bool) : dropTrailing p [] = [] := rfl

theorem dropTrailing_isPrefix (p : Char → Bool) (s : Text) : dropTrailing p s <+: s := by
  have h : s.reverse.dropWhile p <:+ s.reverse := List.dropWhile_suffix p
  simpa [dropTrailing] using List.reverse_prefix.mpr h

@[simp] theorem trim_nil : trim [] = [] := rfl

end Text

end DumpConversion
