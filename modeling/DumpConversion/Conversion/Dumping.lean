import DumpConversion.Machine.Command

/-! # Dumping the source database

* `Dumper`: writes a complete dump to a file, in place of what was there.
* `Connection.dumpArguments`: the arguments of the dump program. The password is not among them.
* `dumpBy`: runs the dump program into a neighbour of the file, which takes the place of the file
  only after the program has succeeded.
-/

namespace DumpConversion

set_option autoImplicit false

open Procedure (change attempt)

/-- Writes a complete dump to a file. -/
abbrev Dumper := Path → Procedure Unit

/-- The flags that give the dump a form that can be sanitized. -/
def dumpFlags : List String :=
  ["--skip-create-options", "--compatible=ansi", "--skip-extended-insert", "--compact",
    "--single-transaction"]

/-- The arguments of the dump program. -/
def Connection.dumpArguments (c : Connection) : List Text :=
  dumpFlags.map String.toList ++
    ["-h".toList, c.host, "-P".toList, Text.decimal c.port.toNat, "-u".toList, c.user, c.database]

/-- The dump program with its output going to a file. An empty password is not handed over. -/
def dumpCommand (program : Path) (c : Connection) (output : Path) : Command where
  program := program.text
  arguments := c.dumpArguments
  password := if c.password = [] then none else some c.password
  stdin := []
  stdout := some output

/-- Dumps the source database by the given program, within a limit in milliseconds. -/
def dumpBy [Platform] (program : Path) (c : Connection) (limit : Option Nat) : Dumper :=
    fun dump => do
  let part := dump.unfinished
  change (fun d => d.create part .empty) .io
  ((dumpCommand program c part).run limit).orUndo (attempt (change (fun d => d.remove part) .io))
  change (fun d => d.rename part dump) .io

/-- The dumper that the settings ask for. -/
def Settings.dumper [Platform] (s : Settings) : Dumper :=
  dumpBy s.tools.mysqldump s.connection s.limit

/-! ## Small lemmas -/

theorem dumpBy_of_unwritable [Platform] {program : Path} {c : Connection} {limit : Option Nat}
    {dump : Path} {m : Machine} {e : IoError}
    (h : m.disk.create dump.unfinished .empty = .error e) :
    dumpBy program c limit dump m = (.error (.io e), m) := by
  rw [dumpBy, Procedure.bind_of_error (Procedure.change_of_error h)]

end DumpConversion
