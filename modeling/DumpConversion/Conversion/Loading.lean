import DumpConversion.Machine.Command

/-! # Loading a sanitized dump

* `Loader`: executes a dump against the database in a file.
* `loadByShell`: feeds the dump to the shell of the database.
* `loadInProcess`: has the database engine execute the dump in one transaction.
-/

namespace DumpConversion

set_option autoImplicit false

open Procedure (disk check onDisk)

/-- Executes the dump at the second path against the database at the first. -/
abbrev Loader := Path → Path → Procedure Unit

/-! ## By the shell -/

/-- What a program reads from a file that is opened as its input; from a directory it reads
nothing. -/
def Disk.input (d : Disk) (p : Path) : Except IoError Bytes :=
  (d.entry p).map fun e => (e.2.content?.map Content.image).getD []

/-- The shell of the database with a dump as its input. -/
def shellCommand (program target : Path) (dump : Bytes) : Command where
  program := program.text
  arguments := ["-bail".toList, target.text]
  password := none
  stdin := dump
  stdout := none

/-- Feeds the dump to the given shell, within a limit in milliseconds. -/
def loadByShell [Platform] (program : Path) (limit : Option Nat) : Loader := fun target dump => do
  let input ← check (((← disk).input dump).mapError .io)
  (shellCommand program target input).run limit

/-! ## In one transaction -/

/-- Executes the dump against the database in one transaction. -/
def loadInProcess [Platform] : Loader := fun target dump => do
  let script ← check (((← disk).readText dump).mapError .io)
  onDisk (Platform.engine.load target script)

/-- The loader that the settings ask for. -/
def Settings.loader [Platform] (s : Settings) : Loader :=
  match s.importer with
  | .shell => loadByShell s.tools.sqlite3 s.limit
  | .embedded => loadInProcess

end DumpConversion
