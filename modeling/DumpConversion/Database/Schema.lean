import DumpConversion.Bytes.Utf8

/-! # Databases

Databases of plain tables: no keys and no other constraints than required columns, no triggers, names
in UTF-8.

* `Value`, `Column`, `Table`: rows of values under named columns, some of which are required.
* `Database`: tables and views in the order of their creation.
* `Database.problems`: what an integrity check finds wrong, nothing in an intact database.
* `foldCase`, `nameLe`: which names are the same, and their order.
-/

namespace DumpConversion

set_option autoImplicit false

/-- A stored value. Numbers keep the form in which they were written. -/
inductive Value where
  | null
  | number (written : Text)
  | text (content : Text)
  deriving DecidableEq, Repr

/-- A column; a required one may not hold a null. -/
structure Column where
  name : Text
  required : Bool
  deriving DecidableEq, Repr

/-- A table with its rows in the order of insertion. -/
structure Table where
  name : Text
  columns : List Column
  rows : List (List Value)
  deriving DecidableEq, Repr

/-- What a database can hold under a name. -/
inductive SchemaObject where
  | table (t : Table)
  | view (name : Text)
  deriving DecidableEq, Repr

/-- The objects of a database in the order of their creation. -/
structure Database where
  objects : List SchemaObject
  deriving DecidableEq, Repr

/-! ## Names -/

/-- The case of ASCII letters does not tell names apart. -/
def foldCase (name : Text) : Text := name.map Char.toLower

/-- Names are ordered by their bytes. -/
def nameLe (a b : Text) : Bool := decide (Utf8.encode a ≤ Utf8.encode b)

/-! ## Views of a database -/

namespace SchemaObject

/-- The name of an object. -/
def name : SchemaObject → Text
  | table t => t.name
  | view n => n

/-- The table of an object, if it is one. -/
def table? : SchemaObject → Option Table
  | table t => some t
  | view _ => none

end SchemaObject

namespace Database

/-- A database without objects. -/
def empty : Database := ⟨[]⟩

/-- All tables in the order of their creation. -/
def tables (d : Database) : List Table := d.objects.filterMap SchemaObject.table?

/-- The object with a name, whatever the case. -/
def find? (d : Database) (name : Text) : Option SchemaObject :=
  d.objects.find? fun o => decide (foldCase o.name = foldCase name)

end Database

/-! ## Integrity -/

/-- A null found in a required column. -/
structure Problem where
  table : Text
  column : Text
  deriving DecidableEq, Repr

/-- The line that reports a problem. -/
def Problem.line (p : Problem) : Text := "NULL value in ".toList ++ p.table ++ '.' :: p.column

/-- The problems of a table, row by row. -/
def Table.problems (t : Table) : List Problem :=
  t.rows.flatMap fun row => (t.columns.zip row).filterMap fun cell =>
    if cell.1.required && cell.2 == Value.null then some ⟨t.name, cell.1.name⟩ else none

/-- The integrity check gives up after this many lines. -/
def problemLimit : Nat := 100

/-- The problems that the integrity check reports, the newest table first. -/
def Database.problems (d : Database) : List Problem :=
  (d.tables.reverse.flatMap Table.problems).take problemLimit

/-! ## Small lemmas -/

theorem tables_empty : Database.empty.tables = [] := rfl

end DumpConversion
