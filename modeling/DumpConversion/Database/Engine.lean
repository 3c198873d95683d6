import DumpConversion.Conversion.Failure

/-! # Database engines

The engine that opens files as databases, executes scripts and answers queries is not a part of a
conversion. Here is what a conversion asks of it. Every step may fail, and every step may change the
files of the connection it works on.

* `Engine`: the steps of an engine.
* `Engine.execute`: a script is executed statement by statement.
* `Engine.transact`: a script is executed in one transaction.
* `Engine.onDatabase`: a database is opened, used and closed again.
-/

namespace DumpConversion

set_option autoImplicit false

/-- An open connection together with the files. -/
structure Session (Connection : Type) where
  connection : Connection
  disk : Disk

/-- The answer to a query: its rows in order, which a fault may cut short. -/
structure Answer where
  rows : List Text
  fault : Option DatabaseFault
  deriving DecidableEq, Repr

/-- The steps of a database engine. -/
structure Engine where
  /-- What is known of an open connection. -/
  Connection : Type
  /-- Opens the file at a path for reading and writing. -/
  openWritable : Path → Disk → Except DatabaseFault Connection × Disk
  /-- Opens the file at a path for reading. -/
  openReadOnly : Path → Disk → Except DatabaseFault Connection × Disk
  /-- Begins a transaction. -/
  startTransaction : Session Connection → Except DatabaseFault Unit × Session Connection
  /-- Executes the first statement of a text and tells how many characters it took. Where it takes
  none, there is nothing left to execute. -/
  statement : Text → Session Connection → Except DatabaseFault Nat × Session Connection
  /-- Ends a transaction and keeps its changes. -/
  commit : Session Connection → Except DatabaseFault Unit × Session Connection
  /-- Ends a transaction, if one is open, without its changes. -/
  rollback : Session Connection → Session Connection
  /-- Answers a query by the texts in its first column. -/
  rows : Text → Session Connection → Answer × Session Connection
  /-- Answers a query by a number. -/
  count : Text → Session Connection → Except DatabaseFault Int × Session Connection
  /-- Closes the connection. -/
  close : Session Connection → Disk

namespace Engine

variable (engine : Engine)

/-! ## Scripts -/

/-- Executes the statements of a script one after the other, at most `fuel` of them. -/
def executeUpTo : Nat → Text → Session engine.Connection →
    Except DatabaseFault Unit × Session engine.Connection
  | 0, _, s => (.ok (), s)
  | fuel + 1, script, s =>
    if script = [] then (.ok (), s)
    else match engine.statement script s with
      | (.error fault, s) => (.error fault, s)
      | (.ok taken, s) =>
        if taken = 0 then (.ok (), s) else executeUpTo fuel (script.drop taken) s

/-- Executes the statements of a script one after the other. Every statement takes a character. -/
def execute (script : Text) (s : Session engine.Connection) :
    Except DatabaseFault Unit × Session engine.Connection :=
  engine.executeUpTo script.length script s

/-- Executes a script in one transaction, which is rolled back if the script or its end fails. -/
def transact (script : Text) (s : Session engine.Connection) :
    Except DatabaseFault Unit × Session engine.Connection :=
  match engine.startTransaction s with
  | (.error fault, s) => (.error fault, s)
  | (.ok (), s) =>
    match engine.execute script s with
    | (.error fault, s) => (.error fault, engine.rollback s)
    | (.ok (), s) =>
      match engine.commit s with
      | (.error fault, s) => (.error fault, engine.rollback s)
      | (.ok (), s) => (.ok (), s)

/-! ## Connections -/

/-- Works on a database that has been opened, and closes it. -/
def onDatabase {α : Type}
    (work : Session engine.Connection → Except Failure α × Session engine.Connection) :
    Except DatabaseFault engine.Connection × Disk → Except Failure α × Disk
  | (.error fault, d) => (.error (.database fault), d)
  | (.ok connection, d) =>
    let (r, s) := work ⟨connection, d⟩
    (r, engine.close s)

/-- Executes a script in one transaction on the database at a path. -/
def load (target : Path) (script : Text) (d : Disk) : Except Failure Unit × Disk :=
  engine.onDatabase (fun s =>
    let (r, s) := engine.transact script s
    (r.mapError .database, s)) (engine.openWritable target d)

/-! ## Small lemmas -/

/-- More fuel than characters makes no difference. -/
theorem executeUpTo_of_le {script : Text} {m n : Nat} (hm : script.length ≤ m)
    (hn : script.length ≤ n) (s : Session engine.Connection) :
    engine.executeUpTo m script s = engine.executeUpTo n script s := by
  induction m generalizing script n s with
  | zero =>
    obtain rfl : script = [] := List.length_eq_zero_iff.mp (Nat.le_zero.mp hm)
    cases n <;> rfl
  | succ m ih =>
    by_cases hempty : script = []
    · subst hempty
      cases n <;> rfl
    · have hpos := List.length_pos_iff.mpr hempty
      obtain ⟨n, rfl⟩ : ∃ k, n = k + 1 := ⟨n - 1, by omega⟩
      simp only [executeUpTo, if_neg hempty]
      split
      · rfl
      · next taken s' _ =>
        by_cases htaken : taken = 0
        · rw [if_pos htaken, if_pos htaken]
        · have hrest : (script.drop taken).length ≤ m ∧ (script.drop taken).length ≤ n := by
            rw [List.length_drop]
            omega
          rw [if_neg htaken, if_neg htaken, ih hrest.1 hrest.2]

/-- What is executed first, and what then. -/
theorem execute_eq (script : Text) (s : Session engine.Connection) :
    engine.execute script s =
      if script = [] then (.ok (), s)
      else match engine.statement script s with
        | (.error fault, s) => (.error fault, s)
        | (.ok taken, s) =>
          if taken = 0 then (.ok (), s) else engine.execute (script.drop taken) s := by
  by_cases hempty : script = []
  · subst hempty
    rfl
  · obtain ⟨n, hn⟩ : ∃ k, script.length = k + 1 :=
      ⟨script.length - 1, by have := List.length_pos_iff.mpr hempty; omega⟩
    rw [if_neg hempty, execute, hn, executeUpTo, if_neg hempty]
    split
    · rfl
    · next taken s' _ =>
      by_cases htaken : taken = 0
      · rw [if_pos htaken, if_pos htaken]
      · rw [if_neg htaken, if_neg htaken, execute]
        refine engine.executeUpTo_of_le ?_ (Nat.le_refl _) s'
        rw [List.length_drop]
        omega

section

variable {engine} {target : Path} {script : Text} {d d' : Disk} {fault : DatabaseFault}
variable {connection : engine.Connection} {r : Except DatabaseFault Unit}
variable {s s' s'' ended : Session engine.Connection}

theorem transact_of_start_error (h : engine.startTransaction s = (.error fault, s')) :
    engine.transact script s = (.error fault, s') := by
  simp [transact, h]

theorem transact_of_execute_error (hstart : engine.startTransaction s = (.ok (), s'))
    (h : engine.execute script s' = (.error fault, s'')) :
    engine.transact script s = (.error fault, engine.rollback s'') := by
  simp [transact, hstart, h]

theorem transact_of_commit_error (hstart : engine.startTransaction s = (.ok (), s'))
    (hexecute : engine.execute script s' = (.ok (), s''))
    (h : engine.commit s'' = (.error fault, ended)) :
    engine.transact script s = (.error fault, engine.rollback ended) := by
  simp [transact, hstart, hexecute, h]

theorem transact_of_commit (hstart : engine.startTransaction s = (.ok (), s'))
    (hexecute : engine.execute script s' = (.ok (), s'')) (h : engine.commit s'' = (.ok (), ended)) :
    engine.transact script s = (.ok (), ended) := by
  simp [transact, hstart, hexecute, h]

theorem load_of_open_error (h : engine.openWritable target d = (.error fault, d')) :
    engine.load target script d = (.error (.database fault), d') := by
  simp [load, onDatabase, h]

theorem load_of_open (hopen : engine.openWritable target d = (.ok connection, d'))
    (h : engine.transact script ⟨connection, d'⟩ = (r, s)) :
    engine.load target script d = (r.mapError .database, engine.close s) := by
  simp [load, onDatabase, hopen, h]

end

end Engine

end DumpConversion
