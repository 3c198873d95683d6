import DumpConversion.Bytes.Sha256
import DumpConversion.Machine.Basic

/-! # The previous database

A file that stands where a database is to be made is set aside first and can be put back later.

* `KeptCopy`: where the previous file went, its size and its digest.
* `setAside`: copies the file, compares the digests of the copy and the file, and only then removes
  the file. An older copy is overwritten.
* `putBack`: puts the copy in place of whatever file is there, and tells whether there was a copy.
-/

namespace DumpConversion

set_option autoImplicit false

open Procedure (disk check change fail)

/-- Where a previous file went. -/
structure KeptCopy where
  path : Path
  size : Nat
  sha256 : Text
  deriving DecidableEq, Repr

/-- The size of a file and the digest of its bytes. -/
def fingerprint (d : Disk) (p : Path) : Except IoError (Nat × Text) :=
  (d.read p).map fun c => (c.image.length, Sha256.hexDigest c.image)

/-- Sets a file aside; without one there is nothing to do. -/
def setAside (target : Path) : Procedure (Option KeptCopy) := do
  let d ← disk
  if !d.isPresent target then return none
  else if !d.isFile target then fail (.aside target .notFile)
  else
    let copy := target.aside
    change (fun d => d.copy target copy) fun e => .aside target (.copyFailed copy e)
    let d ← disk
    let present ← check ((fingerprint d target).mapError fun e => .aside target (.unreadable e))
    let copied ← check ((fingerprint d copy).mapError fun e => .aside copy (.unreadable e))
    if present ≠ copied then fail (.aside target (.copyDiffers copy))
    else
      change (fun d => d.remove target) fun e => .aside target (.removeFailed e)
      return some ⟨copy, present.1, present.2⟩

/-- Puts the copy of a file back in its place. -/
def putBack (target : Path) : Procedure Bool := do
  let d ← disk
  let copy := target.aside
  if !d.isFile copy then return false
  else
    if d.isPresent target then
      change (fun d => d.remove target) fun e => .aside target (.removePartialFailed e)
    change (fun d => d.rename copy target) fun e => .aside copy (.putBackFailed target e)
    return true

/-! ## Small lemmas -/

theorem setAside_of_absent {target : Path} {m : Machine}
    (h : m.disk.isPresent target = false) : setAside target m = (.ok none, m) := by
  rw [setAside, Procedure.bind_of_ok (Procedure.disk_apply m), h]
  rfl

theorem putBack_of_absent {target : Path} {m : Machine}
    (h : m.disk.isFile target.aside = false) : putBack target m = (.ok false, m) := by
  rw [putBack, Procedure.bind_of_ok (Procedure.disk_apply m)]
  simp only [h]
  rfl

end DumpConversion
