import DumpConversion.Text.Blank
import DumpConversion.Text.Occurrence

/-! # Queries

What an inspection asks of a database.

* `matchesPattern`: names that match a pattern with wildcards.
* `integrityQuery`: the query for the report of the integrity check.
* `tablesQuery`: the query for the names of the tables, in order, without those that match a pattern.
* `countQuery`: the query for the number of the rows of a table.
-/

namespace DumpConversion

set_option autoImplicit false

/-! ## Patterns -/

/-- An end of the text has the property; the whole text is an end, and so is the empty one. -/
def someEnd (p : Text → Bool) : Text → Bool
  | [] => p []
  | c :: s => p (c :: s) || someEnd p s

/-- The text matches the pattern, in which `%` stands for any text and `_` for any character. The
case of ASCII letters makes no difference. -/
def matchesPattern : Text → Text → Bool
  | [], s => s.isEmpty
  | c :: pattern, s =>
    if c = '%' then someEnd (matchesPattern pattern) s
    else match s with
      | [] => false
      | d :: s => (c == '_' || c.toLower == d.toLower) && matchesPattern pattern s

/-! ## Texts -/

/-- The query for the lines of the integrity check. -/
def integrityQuery : Text := "PRAGMA integrity_check".toList

/-- The pattern of the names that are not listed. -/
def reservedPattern : Text := "sqlite_%".toList

/-- The query for the names of the tables, in their order. -/
def tablesQuery : Text :=
  "SELECT name FROM sqlite_master WHERE type='table' AND name NOT LIKE '".toList ++
    reservedPattern ++ "' ORDER BY name".toList

/-- The query for the number of the rows of a table. Quotes inside its name are doubled. -/
def countQuery (name : Text) : Text :=
  "SELECT count(*) FROM \"".toList ++ (Text.replaceAll ['"'] ['"', '"'] name).1 ++ ['"']

end DumpConversion
