import DumpConversion.Conversion.Dumping
import DumpConversion.Conversion.Inspection
import DumpConversion.Conversion.Loading
import DumpConversion.Conversion.Previous
import DumpConversion.Conversion.Sanitizing

/-! # The stages of a conversion

A conversion dumps the source database, sanitizes the dump, sets a previous target aside, and builds
the target from the dump. The first stage that fails ends the conversion with its failure.

* `build`: loads the dump and inspects the result.
* `undoBuild`: what is done after that has failed. A target that was set aside is put back if the
  settings say so; otherwise what stands in its place is removed.
* `convert`: the whole conversion, for any dumper and any loader.
-/

namespace DumpConversion

set_option autoImplicit false

open Procedure (disk change attempt)

/-- The account of a successful conversion. -/
structure Account where
  target : Path
  dumpFile : Path
  statistics : Statistics
  kept : Option KeptCopy
  inventory : Option Inventory
  deriving DecidableEq, Repr

/-- Loads the dump and, if the settings say so, inspects the result. -/
def build [Platform] (s : Settings) (loader : Loader) (target : Path) :
    Procedure (Option Inventory) := do
  loader target s.dumpFile
  if s.verify then return some (← inspect target) else return none

/-- Undoes a failed build; nothing in it can replace the failure of the build. -/
def undoBuild (s : Settings) (target : Path) (wasSetAside : Bool) : Procedure Unit :=
  if wasSetAside && s.restoreOnFailure then attempt (do discard (putBack target))
  else do
    if (← disk).isPresent target then attempt (change (fun d => d.remove target) .io)

/-- Converts the source database into a database file at the target. -/
def convert [Platform] (s : Settings) (dumper : Dumper) (loader : Loader) (target : Path) :
    Procedure Account := do
  dumper s.dumpFile
  let statistics ← sanitizeInto s.dumpFile s.dumpFile s.encoding
  let kept ← setAside target
  let inventory ← (build s loader target).orUndo (undoBuild s target kept.isSome)
  let d ← disk
  return ⟨d.canonical target, d.canonical s.dumpFile, statistics, kept, inventory⟩

/-! ## Small lemmas -/

theorem convert_of_dump_error [Platform] {s : Settings} {dumper : Dumper} {loader : Loader}
    {target : Path} {m n : Machine} {e : Failure} (h : dumper s.dumpFile m = (.error e, n)) :
    convert s dumper loader target m = (.error e, n) := by
  rw [convert, Procedure.bind_of_error h]

theorem build_of_error [Platform] {s : Settings} {loader : Loader} {target : Path}
    {m n : Machine} {e : Failure} (h : loader target s.dumpFile m = (.error e, n)) :
    build s loader target m = (.error e, n) := by
  rw [build, Procedure.bind_of_error h]

end DumpConversion
