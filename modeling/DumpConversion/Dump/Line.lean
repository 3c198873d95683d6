import DumpConversion.Dump.Clause
import DumpConversion.Text.Occurrence

/-! # Rules on one line of a dump

Each rule looks at one trimmed line and at nothing else. A change returns the new line and how often
it was made.

* `declaresKey`: the line declares an index or a key and is dropped.
* `closesTable`: the line closes the list of columns and keys of a table.
* `dropCollations`, `dropCharacterSets`: removal of the naming clauses.
* `dropUnsigned`: removal of the unsigned qualifier.
* `doubleQuotes`: a quote escaped by a backslash becomes a doubled quote.
* `adapt`: the four changes in this order.
-/

namespace DumpConversion.Line

set_option autoImplicit false

/-! ## Kinds of lines -/

/-- The word that marks a key declaration. -/
def keyWord : Text := "KEY".toList

/-- The line declares a key: the marker stands anywhere on it. -/
def declaresKey (line : Text) : Bool := Text.occursIn keyWord line

/-- The line closes a block: it begins with a closing parenthesis. -/
def closesTable (line : Text) : Bool := line.head? == some ')'

/-! ## Changes -/

/-- Removes every collation clause. -/
def dropCollations (line : Text) : Text × Nat := Clause.collate.strip line

/-- Removes every character set clause. -/
def dropCharacterSets (line : Text) : Text × Nat := Clause.characterSet.strip line

/-- The qualifier of an unsigned integer type, with the space before it. -/
def unsignedQualifier : Text := " unsigned".toList

/-- Removes every unsigned qualifier. -/
def dropUnsigned (line : Text) : Text × Nat := Text.replaceAll unsignedQualifier [] line

/-- A quote inside a string, escaped by a backslash. -/
def backslashQuote : Text := ['\\', '\'']

/-- A quote inside a string, written twice. -/
def quotePair : Text := ['\'', '\'']

/-- Writes every quote escaped by a backslash twice instead. -/
def doubleQuotes (line : Text) : Text × Nat := Text.replaceAll backslashQuote quotePair line

/-- A changed line with the number of times that each change was made. -/
structure Adapted where
  line : Text
  collations : Nat
  characterSets : Nat
  unsigned : Nat
  quotes : Nat
  deriving DecidableEq, Repr

/-- Makes the four changes in order. -/
def adapt (line : Text) : Adapted :=
  let a := dropCollations line
  let b := dropCharacterSets a.1
  let c := dropUnsigned b.1
  let d := doubleQuotes c.1
  ⟨d.1, a.2, b.2, c.2, d.2⟩

/-! ## Small lemmas -/

theorem declaresKey_iff {line : Text} : declaresKey line = true ↔ keyWord <:+: line :=
  Text.occursIn_iff

theorem closesTable_iff {line : Text} : closesTable line = true ↔ ∃ s, line = ')' :: s := by
  cases line <;> simp [closesTable]

end DumpConversion.Line
