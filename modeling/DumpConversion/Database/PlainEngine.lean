import DumpConversion.Database.Execution
import DumpConversion.Database.Query
import DumpConversion.Machine.Platform
import DumpConversion.Settings.Document

/-! # An engine for plain tables

A database engine for databases of plain tables, which takes the statements of a loaded dump.

* `Database.report`, `Database.listedNames`, `Database.countRows`: the answers to the queries of an
  inspection.
* `Disk.databaseLocation`, `Disk.openDatabase`: the file behind a path. Some names ask for a database in
  memory.
* `PlainConnection`: a connection works on its own copy of the database until it commits.
* `Engine.plain`: the engine.
* `Platform.plain`: the platform with this engine and settings in YAML.
-/

namespace DumpConversion

set_option autoImplicit false

/-! ## Answers -/

namespace Database

/-- The lines of the integrity check. -/
def report (d : Database) : List Text :=
  match d.problems with
  | [] => ["ok".toList]
  | problems => problems.map Problem.line

/-- The names of the tables that the pattern of reserved names leaves, in the order of their bytes. -/
def listedNames (d : Database) : List Text :=
  ((d.tables.map Table.name).filter fun n => !matchesPattern reservedPattern n).mergeSort nameLe

end Database

/-- The name of the table whose rows a query asks for. -/
def readCountQuery (query : Text) : Option Text :=
  match SqlToken.lexStatement query with
  | some ([select, count, .symbol '(', .symbol '*', .symbol ')', source, table], []) =>
    if select.isKeyword "SELECT" && count.isKeyword "count" && source.isKeyword "FROM" then
      table.name?
    else none
  | _ => none

namespace Database

/-- The answer to a query for the number of the rows of a table. -/
def countRows (d : Database) (query : Text) : Except DatabaseFault Int :=
  match readCountQuery query with
  | none => .error .malformedStatement
  | some name =>
    match (d.find? name).bind SchemaObject.table? with
    | none => .error (.noTable name)
    | some t => .ok t.rows.length

/-- The answer to a query for texts. -/
def answer (d : Database) (query : Text) : Answer :=
  if query = integrityQuery then ⟨d.report, none⟩
  else if query = tablesQuery then ⟨d.listedNames, none⟩
  else ⟨[], some .malformedStatement⟩

end Database

/-! ## Files -/

namespace Disk

/-- The location that the engine makes of a path, without looking at the disk; a database in memory
has none. -/
def databaseLocation (d : Disk) (p : Path) : Option Location :=
  if memoryNames.contains p.text then none
  else
    let start := if p.isAbsolute then [] else d.workDir
    some (((Text.splitOn '/' p.text).filter fun piece => !Path.isIdle piece).foldl step start)

/-- Opens the file at a location as a database; a missing one is made without content. -/
def openDatabase (d : Disk) (l : Location) : Except DatabaseFault (Disk × Content) :=
  match d.find? l with
  | some e =>
    match e.content? with
    | some c => .ok (d, c)
    | none => .error .cannotOpen
  | none =>
    if d.find? l.dropLast = some .directory then .ok (d.set l (.file .empty), .empty)
    else .error .cannotOpen

end Disk

/-! ## Connections -/

/-- A connection to a file, or to a database in memory. -/
structure PlainConnection where
  place : Option Location
  /-- The content when the transaction began. -/
  committed : Content
  /-- The content as the connection sees it. -/
  current : Content
  deriving DecidableEq, Repr

namespace PlainConnection

/-- A connection to a database that nothing was changed in. -/
def ofContent (place : Option Location) (c : Content) : PlainConnection := ⟨place, c, c⟩

/-- Opens the file at a path for reading and writing. -/
def openWritable (p : Path) (d : Disk) : Except DatabaseFault PlainConnection × Disk :=
  match d.databaseLocation p with
  | none => (.ok (ofContent none .empty), d)
  | some l =>
    match d.openDatabase l with
    | .ok (d, c) => (.ok (ofContent (some l) c), d)
    | .error fault => (.error fault, d)

/-- Opens the file at a path for reading. -/
def openReadOnly (p : Path) (d : Disk) : Except DatabaseFault PlainConnection × Disk :=
  if memoryNames.contains p.text then (.ok (ofContent none .empty), d)
  else match d.read p with
    | .ok c => (.ok (ofContent none c), d)
    | .error _ => (.error .cannotOpen, d)

/-- The content after a statement. One without tokens does not look at the database. -/
def afterStatement (c : Content) (tokens : List SqlToken) : Except DatabaseFault Content :=
  if tokens = [] then .ok c
  else match c.database?, Statement.read tokens with
    | none, _ => .error .notDatabase
    | _, none => .error .malformedStatement
    | some db, some statement => (db.execute statement).map Content.database

/-- The connection with another content. -/
def withContent (s : Session PlainConnection) (c : Content) : Session PlainConnection :=
  { s with connection := { s.connection with current := c } }

/-- Executes the first statement of a script. -/
def statement (script : Text) (s : Session PlainConnection) :
    Except DatabaseFault Nat × Session PlainConnection :=
  match SqlToken.lexStatement script with
  | none => (.error .malformedStatement, s)
  | some (tokens, rest) =>
    match afterStatement s.connection.current tokens with
    | .error fault => (.error fault, s)
    | .ok c => (.ok ((SqlToken.untilNul script).length - rest.length), withContent s c)

/-- Writes what the connection sees into its file. -/
def commit (s : Session PlainConnection) : Session PlainConnection where
  connection := { s.connection with committed := s.connection.current }
  disk :=
    match s.connection.place with
    | none => s.disk
    | some l => s.disk.set l (.file s.connection.current)

/-- Goes back to the content when the transaction began. -/
def rollback (s : Session PlainConnection) : Session PlainConnection :=
  withContent s s.connection.committed

/-- Answers a query by texts. -/
def rows (query : Text) (s : Session PlainConnection) : Answer :=
  match s.connection.current.database? with
  | none => ⟨[], some .notDatabase⟩
  | some db => db.answer query

/-- Answers a query by a number. -/
def count (query : Text) (s : Session PlainConnection) : Except DatabaseFault Int :=
  match s.connection.current.database? with
  | none => .error .notDatabase
  | some db => db.countRows query

/-! ## Small lemmas -/

section

variable {p : Path} {d e : Disk} {l : Location} {c : Content} {fault : DatabaseFault}

theorem openWritable_of_opened (hlocation : d.databaseLocation p = some l)
    (h : d.openDatabase l = .ok (e, c)) :
    openWritable p d = (.ok (ofContent (some l) c), e) := by
  simp [openWritable, hlocation, h]

theorem openWritable_of_refused (hlocation : d.databaseLocation p = some l)
    (h : d.openDatabase l = .error fault) :
    openWritable p d = (.error fault, d) := by
  simp [openWritable, hlocation, h]

end

end PlainConnection

/-- The engine for plain tables. -/
def Engine.plain : Engine where
  Connection := PlainConnection
  openWritable := PlainConnection.openWritable
  openReadOnly := PlainConnection.openReadOnly
  startTransaction s := (.ok (), s)
  statement := PlainConnection.statement
  commit s := (.ok (), PlainConnection.commit s)
  rollback := PlainConnection.rollback
  rows query s := (PlainConnection.rows query s, s)
  count query s := (PlainConnection.count query s, s)
  close := Session.disk

/-- A platform with executables of this behaviour, settings in YAML and the engine for plain
tables. -/
abbrev Platform.plain (behaviour : Program → Call → Disk → Activity) : Platform where
  behaviour := behaviour
  readLayer := Layer.ofText
  engine := Engine.plain
  takesFilter _ := false

end DumpConversion
