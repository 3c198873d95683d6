import DumpConversion.Conversion.Stages
import DumpConversion.Output.Json

/-! # Reports

What is shown to the user after a command, as text or as a tree of named values.

* `Statistics.tree`, `Account.tree`: the values. A machine has no clock, so every time in a report
  is zero.
* `Account.lines`: the report in words.
-/

namespace DumpConversion

set_option autoImplicit false

/-! ## Trees -/

/-- A time or a span of time. -/
def noTime : Tree := .number 0

/-- The counts of a scan. -/
def Statistics.tree (s : Statistics) : Tree :=
  .record [("lines_read", .number s.read), ("lines_written", .number s.written),
    ("key_lines_dropped", .number s.keyLines),
    ("trailing_commas_removed", .number s.trailingCommas),
    ("collations_removed", .number s.collations),
    ("character_sets_removed", .number s.characterSets),
    ("unsigned_removed", .number s.unsigned),
    ("quotes_rewritten", .number s.quotes)]

/-- A copy of a previous database. -/
def KeptCopy.tree (k : KeptCopy) : Tree :=
  .record [("path", .text k.path.text), ("size", .number k.size), ("sha256", .text k.sha256),
    ("created_at", noTime)]

/-- The tables of a database. -/
def Inventory.tree (i : Inventory) : Tree :=
  .record [("integrity", .text i.integrity),
    ("tables", .list (i.tables.map fun t =>
      .record [("name", .text t.name), ("rows", .number t.rows)]))]

/-- A field that is left out without a value. -/
def optionalField (name : String) (value : Option Tree) : List (String × Tree) :=
  (value.map fun v => (name, v)).toList

/-- The report of a conversion. -/
def Account.tree (a : Account) : Tree :=
  .record ([("target", .text a.target.text), ("dump_file", .text a.dumpFile.text),
      ("sanitize", a.statistics.tree)] ++
    optionalField "backup" (a.kept.map KeptCopy.tree) ++
    optionalField "verify" (a.inventory.map Inventory.tree) ++
    [("started_at", noTime), ("finished_at", noTime), ("elapsed_ms", noTime)])

/-! ## Words -/

/-- The line about a previous database. -/
def KeptCopy.line (k : KeptCopy) : String := s!"  backup:   {k.path.shown} ({k.size} bytes)"

/-- The line about the tables of a database. -/
def Inventory.line (i : Inventory) : String :=
  s!"  verified: {i.tables.length} tables, {i.rowCount} rows, integrity {String.ofList i.integrity}"

/-- The report of a conversion in words. -/
def Account.lines (a : Account) : List String :=
  let n := a.statistics
  [s!"Converted into {a.target.shown}",
    s!"  dump:     {a.dumpFile.shown} ({n.read} lines read, {n.written} written)",
    s!"  removed:  {n.keyLines} key lines, {n.trailingCommas} trailing commas, " ++
      s!"{n.collations} COLLATE, {n.characterSets} CHARACTER SET, {n.unsigned} unsigned",
    s!"  quotes:   {n.quotes} rewritten"] ++
  (a.kept.map KeptCopy.line).toList ++
  (a.inventory.map Inventory.line).toList ++
  ["  elapsed:  0ms"]

/-- The report of a scan in words. -/
def sanitizedLine (input output : Path) (n : Statistics) : String :=
  s!"Sanitized {input.shown} -> {output.shown}: kept {n.written} of {n.read} lines, " ++
    s!"dropped {n.keyLines} key lines"

/-- Lines of text, each with its line feed. -/
def printedLines (lines : List String) : Text := lines.flatMap fun l => l.toList ++ ['\n']

end DumpConversion
