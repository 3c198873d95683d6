import DumpConversion.Settings.Layers

/-! # The machine

What a conversion acts on: the disk, the environment, and the programs started so far.

* `Machine`: the state of the world.
* `Procedure`: a step that changes the machine and ends in a value or a failure. What was done
  before a failure stays done.
-/

namespace DumpConversion

set_option autoImplicit false

/-- The state of the world; the first of the calls of started programs is the oldest. -/
structure Machine where
  disk : Disk
  environment : Environment
  calls : List Call
  deriving DecidableEq, Repr

/-- A step that changes the machine and may fail. -/
def Procedure (α : Type) : Type := Machine → Except Failure α × Machine

namespace Procedure

variable {α β : Type}

/-! ## Building blocks -/

/-- Ends in a value and changes nothing. -/
def succeed (a : α) : Procedure α := fun m => (.ok a, m)

/-- Ends in a failure and changes nothing. -/
def fail (e : Failure) : Procedure α := fun m => (.error e, m)

/-- Goes on with the value of a step, unless it fails. -/
def andThen (a : Procedure α) (f : α → Procedure β) : Procedure β := fun m =>
  match a m with
  | (.ok v, m) => f v m
  | (.error e, m) => (.error e, m)

instance : Monad Procedure where
  pure := succeed
  bind := andThen

/-- The disk. -/
def disk : Procedure Disk := fun m => (.ok m.disk, m)

/-- Ends as a check does. -/
def check (r : Except Failure α) : Procedure α := fun m => (r, m)

/-- Replaces the disk by the result of an operation on it. -/
def change (operation : Disk → Except IoError Disk) (fault : IoError → Failure) : Procedure Unit :=
  fun m =>
    match operation m.disk with
    | .ok disk => (.ok (), { m with disk })
    | .error e => (.error (fault e), m)

/-- Works on the disk, which may change even if that fails. -/
def onDisk (work : Disk → Except Failure α × Disk) : Procedure α := fun m =>
  let (r, disk) := work m.disk
  (r, { m with disk })

/-- Tries a step and goes on after a failure. -/
def attempt (a : Procedure Unit) : Procedure Unit := fun m => (.ok (), (a m).2)

/-- Undoes a failed step by another one; the failure stays. -/
def orUndo (a : Procedure α) (undo : Procedure Unit) : Procedure α := fun m =>
  match a m with
  | (.ok v, m) => (.ok v, m)
  | (.error e, m) => (.error e, (undo m).2)

/-! ## What a step does -/

theorem pure_apply (a : α) (m : Machine) : (pure a : Procedure α) m = (.ok a, m) := rfl

theorem bind_of_ok {a : Procedure α} {f : α → Procedure β} {m n : Machine} {v : α}
    (h : a m = (.ok v, n)) : (a >>= f) m = f v n := by
  simp [bind, andThen, h]

theorem bind_of_error {a : Procedure α} {f : α → Procedure β} {m n : Machine} {e : Failure}
    (h : a m = (.error e, n)) : (a >>= f) m = (.error e, n) := by
  simp [bind, andThen, h]

theorem disk_apply (m : Machine) : disk m = (.ok m.disk, m) := rfl

theorem check_of_ok {r : Except Failure α} {a : α} (h : r = .ok a) (m : Machine) :
    check r m = (.ok a, m) := by
  rw [h]
  rfl

theorem check_of_error {r : Except Failure α} {e : Failure} (h : r = .error e) (m : Machine) :
    check r m = (.error e, m) := by
  rw [h]
  rfl

theorem change_of_ok {operation : Disk → Except IoError Disk} {fault : IoError → Failure}
    {m : Machine} {d : Disk} (h : operation m.disk = .ok d) :
    change operation fault m = (.ok (), { m with disk := d }) := by
  simp [change, h]

theorem change_of_error {operation : Disk → Except IoError Disk} {fault : IoError → Failure}
    {m : Machine} {e : IoError} (h : operation m.disk = .error e) :
    change operation fault m = (.error (fault e), m) := by
  simp [change, h]

theorem orUndo_of_ok {a : Procedure α} {undo : Procedure Unit} {m n : Machine} {v : α}
    (h : a m = (.ok v, n)) : a.orUndo undo m = (.ok v, n) := by
  simp [orUndo, h]

theorem orUndo_of_error {a : Procedure α} {undo : Procedure Unit} {m n : Machine} {e : Failure}
    (h : a m = (.error e, n)) : a.orUndo undo m = (.error e, (undo n).2) := by
  simp [orUndo, h]

end Procedure

end DumpConversion
