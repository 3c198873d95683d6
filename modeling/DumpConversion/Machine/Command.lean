import DumpConversion.Machine.Platform

/-! # Running programs

* `Command`: a program with its arguments and what it is connected to.
* `Command.start`: what a command calls and what that does.
* `Command.run`: starts the program, waits for it at most as long as allowed, and fails unless it
  ends with success. What the program has done until then stays done.
-/

namespace DumpConversion

set_option autoImplicit false

/-- A program with its arguments and what it is connected to. -/
structure Command where
  program : Text
  arguments : List Text
  /-- The password handed to the program through its environment. -/
  password : Option Text
  stdin : Bytes
  /-- The file that takes the output; without one the output is thrown away. -/
  stdout : Option Path
  deriving DecidableEq, Repr

/-- The limit for external programs in milliseconds. -/
def Settings.limit (s : Settings) : Option Nat := s.timeoutSeconds.map fun n => n.toNat * 1000

/-- Writes a file if that is possible. -/
def Disk.tryCreate (d : Disk) (p : Path) (c : Content) : Disk := (d.create p c).toOption.getD d

namespace Activity

/-- The program takes longer than the limit in milliseconds. -/
def outlasts (a : Activity) (limit : Option Nat) : Bool :=
  limit.any fun n => decide (n < a.milliseconds)

/-- What the program has done when it ends, or when it is stopped at the limit. -/
def done (a : Activity) (limit : Option Nat) : Deeds :=
  a.deeds (if a.outlasts limit then limit.getD 0 else a.milliseconds)

end Activity

namespace Command

/-- The variable in which a program finds the password. -/
def passwordVariable : Text := "MYSQL_PWD".toList

/-- The password that the program finds in its environment, which is handed on to it. -/
def visiblePassword (c : Command) (env : Environment) : Option Text :=
  c.password.or (env.value? passwordVariable)

/-- The call of an executable by the command. -/
def call (c : Command) (tool : Text) (env : Environment) : Call :=
  ⟨tool, c.arguments, c.visiblePassword env, c.stdin⟩

/-- The call that the command makes, and what the called program does. -/
def start [Platform] (c : Command) (m : Machine) : Except IoError (Call × Activity) :=
  (m.program c.program).map fun found =>
    let call := c.call found.1 m.environment
    (call, Platform.behaviour found.2 call m.disk)

/-- The files after the program has printed its output and written its files. -/
def output (c : Command) (done : Deeds) (d : Disk) : Disk :=
  let d := match c.stdout with
    | some out => d.tryCreate out (.bytes done.stdout)
    | none => d
  done.writes.foldl (fun d w => d.tryCreate w.1 w.2) d

/-- The machine after the call. -/
def finish (c : Command) (call : Call) (done : Deeds) (m : Machine) : Machine :=
  { m with disk := c.output done m.disk, calls := m.calls ++ [call] }

/-- Runs the program. One that outlasts the limit is stopped there. -/
def run [Platform] (c : Command) (limit : Option Nat) : Procedure Unit := fun m =>
  match c.start m with
  | .error cause => (.error (.notStarted c.program cause), m)
  | .ok (call, a) =>
    let after := c.finish call (a.done limit) m
    if a.outlasts limit then (.error (.tooSlow c.program (limit.getD 0 / 1000)), after)
    else if a.ending.isSuccess then (.ok (), after)
    else (.error (.program c.program a.ending.code? (excerpt a.stderr)), after)

/-! ## Small lemmas -/

section

variable [Platform] {c : Command} {limit : Option Nat} {m : Machine}

theorem run_of_missing {cause : IoError} (h : c.start m = .error cause) :
    c.run limit m = (.error (.notStarted c.program cause), m) := by
  simp [run, h]

theorem run_of_success {call : Call} {a : Activity} (h : c.start m = .ok (call, a))
    (hlimit : a.outlasts limit = false) (hsuccess : a.ending.isSuccess = true) :
    c.run limit m = (.ok (), c.finish call (a.done limit) m) := by
  simp [run, h, hlimit, hsuccess]

/-- Whatever the outcome, the program has been called and has done what it had the time for. -/
theorem run_of_start {call : Call} {a : Activity} (h : c.start m = .ok (call, a)) :
    (c.run limit m).2 = c.finish call (a.done limit) m := by
  simp only [run, h]
  split
  · rfl
  · split <;> rfl

end

end Command

end DumpConversion
