import DumpConversion.Database.Query
import DumpConversion.Machine.Platform
import DumpConversion.Text.Lines

/-! # Inspection of a loaded database

* `TableCount`, `Inventory`: the listed tables in the order of their names, with the number of their
  rows.
* `Engine.check`, `Engine.listTables`: the integrity check, and the list of the tables with the number
  of the rows of each.
* `Engine.inventory`: the inventory of a database that passes the check, or the report of the check.
* `inspect`: the inventory of the database that is opened under a path, for reading only.
-/

namespace DumpConversion

set_option autoImplicit false

/-- A table with the number of its rows. -/
structure TableCount where
  name : Text
  rows : Nat
  deriving DecidableEq, Repr

/-- What was found in a database. -/
structure Inventory where
  integrity : Text
  tables : List TableCount
  deriving DecidableEq, Repr

/-- The number of rows in all tables. -/
def Inventory.rowCount (i : Inventory) : Nat := i.tables.foldr (fun t n => t.rows + n) 0

/-- The report of the integrity check for an intact database. -/
def intactAnswer : Text := "ok".toList

/-- The lines of a report in one. -/
def joinedReport (lines : List Text) : Text := Text.joinWith "; ".toList lines

namespace Engine

variable (engine : Engine)

/-! ## Queries -/

/-- The lines of the integrity check. -/
def check (s : Session engine.Connection) :
    Except DatabaseFault (List Text) × Session engine.Connection :=
  let (answer, s) := engine.rows integrityQuery s
  match answer.fault with
  | some fault => (.error fault, s)
  | none => (.ok answer.rows, s)

/-- Counts the rows of tables one after the other. A negative number is taken for none. -/
def countTables : List Text → Session engine.Connection →
    Except DatabaseFault (List TableCount) × Session engine.Connection
  | [], s => (.ok [], s)
  | name :: names, s =>
    match engine.count (countQuery name) s with
    | (.error fault, s) => (.error fault, s)
    | (.ok rows, s) =>
      match countTables names s with
      | (.error fault, s) => (.error fault, s)
      | (.ok counts, s) => (.ok (⟨name, rows.toNat⟩ :: counts), s)

/-- The listed tables with the number of their rows. They are counted while the list is read, so that
a fault at the end of the list comes after the faults in counting. -/
def listTables (s : Session engine.Connection) :
    Except DatabaseFault (List TableCount) × Session engine.Connection :=
  let (answer, s) := engine.rows tablesQuery s
  match engine.countTables answer.rows s with
  | (.error fault, s) => (.error fault, s)
  | (.ok counts, s) =>
    match answer.fault with
    | some fault => (.error fault, s)
    | none => (.ok counts, s)

/-! ## Inspections -/

/-- The inventory of an open database, or what the integrity check reports of it. -/
def inventory (p : Path) (s : Session engine.Connection) :
    Except Failure Inventory × Session engine.Connection :=
  match engine.check s with
  | (.error fault, s) => (.error (.database fault), s)
  | (.ok lines, s) =>
    if joinedReport lines ≠ intactAnswer then
      (.error (.inspection p (.reported (joinedReport lines))), s)
    else match engine.listTables s with
      | (.error fault, s) => (.error (.database fault), s)
      | (.ok counts, s) => (.ok ⟨joinedReport lines, counts⟩, s)

/-- The inventory of the database in a file. Files beside it may change. -/
def inspect (p : Path) (d : Disk) : Except Failure Inventory × Disk :=
  if !d.isFile p then (.error (.inspection p .notCreated), d)
  else engine.onDatabase (engine.inventory p) (engine.openReadOnly p d)

end Engine

/-- The inspection of a database as a step of a conversion. -/
def inspect [Platform] (p : Path) : Procedure Inventory := .onDisk (Platform.engine.inspect p)

/-! ## Small lemmas -/

theorem joinedReport_eq_intact_iff {lines : List Text} :
    joinedReport lines = intactAnswer ↔ lines = [intactAnswer] := by
  constructor
  · intro h
    match lines with
    | [] => cases h
    | [line] => exact congrArg (fun line => [line]) h
    | first :: second :: rest =>
      -- two lines have a semicolon between them
      have hmem : ';' ∈ joinedReport (first :: second :: rest) := by
        simp [joinedReport, Text.joinWith]
      rw [h] at hmem
      exact absurd hmem (by decide)
  · rintro rfl
    rfl

namespace Engine

variable {engine : Engine} {p : Path} {d d' : Disk} {s s' s'' : Session engine.Connection}
variable {lines names : List Text} {counts : List TableCount} {fault : DatabaseFault}

theorem check_of_fault (h : engine.rows integrityQuery s = (⟨lines, some fault⟩, s')) :
    engine.check s = (.error fault, s') := by
  simp [check, h]

theorem check_of_answer (h : engine.rows integrityQuery s = (⟨lines, none⟩, s')) :
    engine.check s = (.ok lines, s') := by
  simp [check, h]

theorem listTables_of_count_error {end? : Option DatabaseFault}
    (h : engine.rows tablesQuery s = (⟨names, end?⟩, s'))
    (hcounts : engine.countTables names s' = (.error fault, s'')) :
    engine.listTables s = (.error fault, s'') := by
  simp [listTables, h, hcounts]

theorem listTables_of_fault (h : engine.rows tablesQuery s = (⟨names, some fault⟩, s'))
    (hcounts : engine.countTables names s' = (.ok counts, s'')) :
    engine.listTables s = (.error fault, s'') := by
  simp [listTables, h, hcounts]

theorem listTables_of_answer (h : engine.rows tablesQuery s = (⟨names, none⟩, s'))
    (hcounts : engine.countTables names s' = (.ok counts, s'')) :
    engine.listTables s = (.ok counts, s'') := by
  simp [listTables, h, hcounts]

theorem inventory_of_check_error (p : Path) (h : engine.check s = (.error fault, s')) :
    engine.inventory p s = (.error (.database fault), s') := by
  simp [inventory, h]

theorem inventory_of_report (p : Path) (h : engine.check s = (.ok lines, s'))
    (hlines : lines ≠ [intactAnswer]) :
    engine.inventory p s = (.error (.inspection p (.reported (joinedReport lines))), s') := by
  have hreport : joinedReport lines ≠ intactAnswer := mt joinedReport_eq_intact_iff.mp hlines
  simp [inventory, h, hreport]

theorem inventory_of_list_error (p : Path) (h : engine.check s = (.ok [intactAnswer], s'))
    (hlist : engine.listTables s' = (.error fault, s'')) :
    engine.inventory p s = (.error (.database fault), s'') := by
  have hreport : joinedReport [intactAnswer] = intactAnswer := rfl
  simp [inventory, h, hreport, hlist]

theorem inventory_of_list (p : Path) (h : engine.check s = (.ok [intactAnswer], s'))
    (hlist : engine.listTables s' = (.ok counts, s'')) :
    engine.inventory p s = (.ok ⟨intactAnswer, counts⟩, s'') := by
  have hreport : joinedReport [intactAnswer] = intactAnswer := rfl
  simp [inventory, h, hreport, hlist]

theorem inspect_of_missing (engine : Engine) (h : d.isFile p = false) :
    engine.inspect p d = (.error (.inspection p .notCreated), d) := by
  simp [inspect, h]

theorem inspect_of_open_error (hfile : d.isFile p = true)
    (h : engine.openReadOnly p d = (.error fault, d')) :
    engine.inspect p d = (.error (.database fault), d') := by
  simp [inspect, hfile, h, onDatabase]

theorem inspect_of_open {connection : engine.Connection} (hfile : d.isFile p = true)
    (h : engine.openReadOnly p d = (.ok connection, d')) :
    engine.inspect p d = ((engine.inventory p ⟨connection, d'⟩).1,
      engine.close (engine.inventory p ⟨connection, d'⟩).2) := by
  simp [inspect, hfile, h, onDatabase]

end Engine

end DumpConversion
