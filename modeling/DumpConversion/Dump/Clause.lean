import DumpConversion.Text.WordChar
import DumpConversion.Text.Blank

/-! # Naming clauses

A naming clause is a keyword followed by one name, such as a collation or a character set. It may
stand anywhere on a line.

* `Clause`: the words of the keyword.
* `Clause.rest?`: whether a clause stands at the front of a text, and what follows it. The clause
  takes the blanks before its keyword, the keyword at the start of a word, blanks after every word
  of it, and a name that reaches to the next blank, comma, semicolon or parenthesis.
* `Clause.strip`: the line without its clauses, found from the left, and their number.
-/

namespace DumpConversion

set_option autoImplicit false

/-- The kind of a clause: the words of its keyword. -/
structure Clause where
  words : List Text

namespace Clause

/-- The clause that names a collation. -/
def collate : Clause := ⟨["COLLATE".toList]⟩

/-- The clause that names a character set. -/
def characterSet : Clause := ⟨["CHARACTER".toList, "SET".toList]⟩

/-! ## Recognition -/

/-- The characters that end a name and stay on the line. -/
def isDelimiter (c : Char) : Bool := c == ',' || c == ';' || c == '(' || c == ')'

/-- The characters of a name. -/
def isNameChar (c : Char) : Bool := !Text.isBlank c && !isDelimiter c

/-- What follows the given words, each of them followed by one or more blanks. -/
def afterWords : List Text → Text → Option Text
  | [], s => some s
  | w :: ws, s =>
    if w.isPrefixOf s && (s.drop w.length).head?.any Text.isBlank then
      afterWords ws (Text.trimStart (s.drop w.length))
    else none

/-- What follows a name of at least one character. -/
def afterName (s : Text) : Option Text :=
  if s.head?.any isNameChar then some (s.dropWhile isNameChar) else none

/-- A word can start here: the character before is none, or no word character. -/
def startsWord (previous : Option Char) : Bool := !previous.any Text.isWordChar

/-- What follows a clause at the front of the text, when `previous` is the character before. -/
def rest? (k : Clause) (previous : Option Char) (s : Text) : Option Text :=
  let body := Text.trimStart s
  match (afterWords k.words body).bind afterName with
  | some rest => if s.head?.any Text.isBlank || startsWord previous then some rest else none
  | none => none

/-! ## Removal -/

/-- Removes the clauses after passing over `skip` characters, which belong to a clause already
removed. -/
def stripFrom (k : Clause) : Nat → Option Char → Text → Text × Nat
  | _, _, [] => ([], 0)
  | skip + 1, _, c :: s => stripFrom k skip (some c) s
  | 0, previous, c :: s =>
    match k.rest? previous (c :: s) with
    | some rest =>
      let r := stripFrom k (s.length - rest.length) (some c) s
      (r.1, r.2 + 1)
    | none =>
      let r := stripFrom k 0 (some c) s
      (c :: r.1, r.2)

/-- The line without its clauses, and how many there were. -/
def strip (k : Clause) (line : Text) : Text × Nat := stripFrom k 0 none line

/-- A clause stands somewhere on the line. -/
def occursAfter (k : Clause) : Option Char → Text → Bool
  | _, [] => false
  | previous, c :: s => (k.rest? previous (c :: s)).isSome || occursAfter k (some c) s

/-- A clause stands somewhere on the line. -/
def occurs (k : Clause) (line : Text) : Bool := occursAfter k none line

/-! ## Small lemmas -/

@[simp] theorem strip_nil (k : Clause) : k.strip [] = ([], 0) := rfl

theorem rest?_eq_none_of_afterWords {k : Clause} {p : Option Char} {s : Text}
    (h : afterWords k.words (Text.trimStart s) = none) : k.rest? p s = none := by
  simp [rest?, h]

theorem stripFrom_eq_self {k : Clause} {p : Option Char} {s : Text}
    (h : k.occursAfter p s = false) : k.stripFrom 0 p s = (s, 0) := by
  induction s generalizing p with
  | nil => rfl
  | cons c s ih =>
    simp only [occursAfter, Bool.or_eq_false_iff, Option.isSome_eq_false_iff,
      Option.isNone_iff_eq_none] at h
    simp [stripFrom, h.1, ih h.2]

theorem strip_eq_self {k : Clause} {line : Text} (h : k.occurs line = false) :
    k.strip line = (line, 0) := stripFrom_eq_self h

end Clause

end DumpConversion
