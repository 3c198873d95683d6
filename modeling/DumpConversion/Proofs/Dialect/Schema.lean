import DumpConversion.Dump.Line
import DumpConversion.Proofs.Dump.ClausePhrase
import DumpConversion.Text.Lines
import DumpConversion.Text.Numeral

/-! # Tables in two dialects

Tables as a dump writes them and as the target database reads them. A value of each type carries the
proof that it is well formed, so every list of tables has both texts.

* `Name`, `ClauseName`, `ColumnType`, `Column`, `KeyLine`, `PlainString`, `Value`, `Table`: what a
  dump is about.
* `Layout`: what a dump may choose: the blanks before a definition, the line ending, how many rows an
  insertion takes, and whether the last line is ended.
* `Layout.dumped`: the tables as a dump writes them, with key lines, naming clauses, unsigned
  qualifiers and escaped quotes.
* `Layout.translated`: the same tables in the target dialect.
-/

namespace DumpConversion.Dialect

set_option autoImplicit false

/-! ## Names -/

def nameLetters : Text := "abcdefghijklmnopqrstuvwxyz0123456789_".toList

/-- The name of a table or a column. -/
structure Name where
  text : Text
  letters : text ⊆ nameLetters

def Name.quoted (n : Name) : Text := '"' :: (n.text ++ ['"'])

inductive Quotes where
  | bare
  | single
  | double
  deriving DecidableEq, Repr

def Quotes.around (q : Quotes) (s : Text) : Text :=
  match q with
  | bare => s
  | single => '\'' :: (s ++ ['\''])
  | double => '"' :: (s ++ ['"'])

structure ClauseName where
  word : Text
  quotes : Quotes
  ne_nil : quotes = .bare → word ≠ []
  letters : word ⊆ nameLetters

def ClauseName.text (n : ClauseName) : Text := n.quotes.around n.word

/-! ## Columns -/

def unsignedWord : Text := "unsigned".toList

structure ColumnType where
  word : Text
  size : Option Text
  ne_nil : word ≠ []
  letters : word ⊆ nameLetters
  not_unsigned : ¬ unsignedWord <+: word
  size_letters : ∀ s ∈ size, s ⊆ "0123456789,".toList

def ColumnType.text (t : ColumnType) : Text :=
  t.word ++ match t.size with
    | some s => '(' :: (s ++ [')'])
    | none => []

inductive Nullness where
  | unsaid
  | notNull
  | defaultNull
  deriving DecidableEq, Repr

def Nullness.text : Nullness → Text
  | unsaid => []
  | notNull => " NOT NULL".toList
  | defaultNull => " DEFAULT NULL".toList

structure Column where
  name : Name
  type : ColumnType
  isUnsigned : Bool
  characterSet : Option ClauseName
  collation : Option ClauseName
  nullness : Nullness

namespace Column

/-- What both dialects say of a column. -/
def core (c : Column) : Text := c.name.quoted ++ (' ' :: c.type.text)

def qualifier (c : Column) : Text := if c.isUnsigned then Line.unsignedQualifier else []

def dumped (c : Column) : Text :=
  c.core ++ c.qualifier ++ Clause.characterSet.optional (c.characterSet.map ClauseName.text) ++
    Clause.collate.optional (c.collation.map ClauseName.text) ++ c.nullness.text

def translated (c : Column) : Text := c.core ++ c.nullness.text

end Column

/-- A key line, which the target dialect does without. -/
structure KeyLine where
  text : Text
  key : Line.keyWord <:+: text
  no_newline : '\n' ∉ text
  no_return : '\r' ∉ text

/-! ## Values -/

/-- A string in which no rule finds anything, quotes apart. -/
structure PlainString where
  text : Text
  no_backslash : '\\' ∉ text
  no_newline : '\n' ∉ text
  no_return : '\r' ∉ text
  no_key : ¬ Line.keyWord <:+: text
  no_unsigned : ¬ Line.unsignedQualifier <:+: text
  no_collate : ¬ "COLLATE".toList <:+: text
  no_character : ¬ "CHARACTER".toList <:+: text

inductive Value where
  | integer (n : Int)
  | string (s : PlainString)

/-- The text with every quote written as the dialect writes it. -/
def withQuotes (quote : Text) : Text → Text
  | [] => []
  | c :: s => (if c = '\'' then quote else [c]) ++ withQuotes quote s

def numeral : Int → Text
  | .ofNat n => Text.decimal n
  | .negSucc n => '-' :: Text.decimal (n + 1)

def Value.text (quote : Text) : Value → Text
  | integer n => numeral n
  | string s => '\'' :: (withQuotes quote s.text ++ ['\''])

abbrev Row := List Value

def rowText (quote : Text) (row : Row) : Text :=
  '(' :: (Text.joinWith [','] (row.map (Value.text quote)) ++ [')'])

/-! ## Tables -/

structure Table where
  name : Name
  columns : List Column
  columns_ne : columns ≠ []
  keys : List KeyLine
  characterSet : Option ClauseName
  rows : List Row

structure Layout where
  /-- The blanks before every definition of a column or a key. -/
  indent : Text
  indent_blank : indent ⊆ [' ', '\t']
  ending : LineEnding
  /-- The rows that one insertion takes: each by itself, all of a table, or anything between. -/
  batches : List Row → List (List Row)
  /-- A line ending follows the last line. -/
  isTerminated : Bool

/-- The definitions of a table, with a comma after each but the last. -/
def separated : List Text → List Text
  | [] => []
  | [last] => [last]
  | first :: next :: rest => (first ++ [',']) :: separated (next :: rest)

namespace Table

variable (t : Table)

def opening : Text := "CREATE TABLE ".toList ++ (t.name.quoted ++ " (".toList)

/-- The line that ends the definition of a table, with a character set for the table. -/
def closing : Text :=
  ')' :: (Clause.characterSet.optional (t.characterSet.map ClauseName.text) ++ [';'])

def insertion (quote : Text) (rows : List Row) : Text :=
  "INSERT INTO ".toList ++ (t.name.quoted ++
    (" VALUES ".toList ++ (Text.joinWith [','] (rows.map (rowText quote)) ++ [';'])))

def dumpedLines (y : Layout) : List Text :=
  t.opening :: ((separated (t.columns.map Column.dumped ++ t.keys.map KeyLine.text)).map
    (y.indent ++ ·) ++ (t.closing :: (y.batches t.rows).map (t.insertion Line.backslashQuote)))

def translatedLines (y : Layout) : List Text :=
  t.opening :: (separated (t.columns.map Column.translated) ++
    (");".toList :: (y.batches t.rows).map (t.insertion Line.quotePair)))

end Table

namespace Layout

variable (y : Layout)

/-- The empty line behind the line ending of the last line. -/
def terminator : List Text := if y.isTerminated then [[]] else []

def joined (lines : List Text) : Text :=
  Text.joinWith y.ending.separator (lines ++ y.terminator)

def dumped (tables : List Table) : Text := y.joined (tables.flatMap (Table.dumpedLines · y))

def translated (tables : List Table) : Text := y.joined (tables.flatMap (Table.translatedLines · y))

end Layout
end DumpConversion.Dialect
