import Mathlib.Data.List.Forall2
import DumpConversion.Conversion.Dumping
import DumpConversion.Conversion.Loading
import DumpConversion.Proofs.Settings.Password

/-! # Two runs with different passwords

Two machines are compared that differ at most in the password for the source database and in what
the dump program was told of it.

* `Call.UpToPassword`, `Machine.UpToPassword`: the relation on calls and on machines.
* `Procedure.Alike`: two steps that keep the relation and end alike. Each way to build a step keeps
  this, so a stage is compared by going through its text once.
* `Platform.IgnoresPassword`: programs that do the same whatever password they are given.
* `Command.run_alike`, `Command.run_alike_of_dump`: running such programs.
-/

namespace DumpConversion

set_option autoImplicit false

/-! ## Calls and machines -/

/-- A call with the arguments of a dump. -/
def Call.IsDump (c : Call) : Prop := ∃ connection : Connection, c.arguments = connection.dumpArguments

/-- A call with the arguments of the shell of the database. -/
def Call.IsShell (c : Call) : Prop := ∃ target : Path, c.arguments = ["-bail".toList, target.text]

/-- Two calls that agree, except perhaps in the password of a dump. -/
structure Call.UpToPassword (c d : Call) : Prop where
  tool : c.tool = d.tool
  arguments : c.arguments = d.arguments
  stdin : c.stdin = d.stdin
  password : c.password = d.password ∨ c.IsDump ∧ ¬c.IsShell

theorem Call.not_isShell_of_isDump {c : Call} (h : c.IsDump) : ¬c.IsShell := by
  rintro ⟨target, hshell⟩
  obtain ⟨connection, hdump⟩ := h
  have hlength := congrArg List.length (hdump.symm.trans hshell)
  simp [Connection.dumpArguments, dumpFlags] at hlength

/-- Two machines that agree, except perhaps in the password and in what dumps were told of it. -/
structure Machine.UpToPassword (m n : Machine) : Prop where
  disk : m.disk = n.disk
  environment : m.environment.UpToPassword n.environment
  calls : List.Forall₂ Call.UpToPassword m.calls n.calls

theorem Machine.UpToPassword.withDisk {m n : Machine} (h : m.UpToPassword n) (d : Disk) :
    Machine.UpToPassword { m with disk := d } { n with disk := d } :=
  ⟨rfl, h.environment, h.calls⟩

/-! ## Steps -/

namespace Procedure

/-- From related machines the two steps end in related machines, and in related values or in the
same failure. -/
def Alike {α β : Type} (values : α → β → Prop) (a : Procedure α) (b : Procedure β) : Prop :=
  ∀ m n : Machine, m.UpToPassword n →
    Agree Eq values (a m).1 (b n).1 ∧ (a m).2.UpToPassword (b n).2

namespace Alike

variable {α β γ δ : Type} {values : α → β → Prop} {results : γ → δ → Prop}

theorem pure {v : α} {w : β} (h : values v w) :
    Alike values (Pure.pure v : Procedure α) (Pure.pure w) :=
  fun _ _ hm => ⟨.ok h, hm⟩

theorem fail (e : Failure) : Alike values (Procedure.fail e) (Procedure.fail e) :=
  fun _ _ hm => ⟨.error rfl, hm⟩

theorem check {r : Except Failure α} {r' : Except Failure β} (h : Agree Eq values r r') :
    Alike values (Procedure.check r) (Procedure.check r') :=
  fun _ _ hm => ⟨h, hm⟩

/-- A check of the same thing. -/
theorem check_self (r : Except Failure α) :
    Alike Eq (Procedure.check r) (Procedure.check r) :=
  .check (.refl (fun _ => rfl) (fun _ => rfl) r)

theorem disk : Alike Eq Procedure.disk Procedure.disk :=
  fun _ _ hm => ⟨.ok hm.disk, hm⟩

theorem change (operation : Disk → Except IoError Disk) (fault : IoError → Failure) :
    Alike Eq (Procedure.change operation fault) (Procedure.change operation fault) := by
  intro m n hm
  unfold Procedure.change
  rw [← hm.disk]
  cases operation m.disk with
  | ok d => exact ⟨.ok rfl, hm.withDisk d⟩
  | error e => exact ⟨.error rfl, hm⟩

theorem onDisk (work : Disk → Except Failure α × Disk) :
    Alike Eq (Procedure.onDisk work) (Procedure.onDisk work) := by
  intro m n hm
  unfold Procedure.onDisk
  rw [← hm.disk]
  exact ⟨.refl (fun _ => rfl) (fun _ => rfl) _, hm.withDisk (work m.disk).2⟩

theorem bind {a : Procedure α} {b : Procedure β} {f : α → Procedure γ} {g : β → Procedure δ}
    (h : Alike values a b) (hf : ∀ v w, values v w → Alike results (f v) (g w)) :
    Alike results (a >>= f) (b >>= g) := by
  intro m n hm
  obtain ⟨hvalue, hmachine⟩ := h m n hm
  cases ha : a m with
  | mk r m' =>
    cases hb : b n with
    | mk r' n' =>
      rw [ha, hb] at hvalue hmachine
      cases hvalue with
      | ok hvw =>
        rw [bind_of_ok ha, bind_of_ok hb]
        exact hf _ _ hvw m' n' hmachine
      | error he =>
        rw [bind_of_error ha, bind_of_error hb]
        exact ⟨.error he, hmachine⟩

/-- Goes on alike after a step that ends in the same value. -/
theorem bind_self {a b : Procedure α} {f : α → Procedure γ} {g : α → Procedure δ}
    (h : Alike Eq a b) (hf : ∀ v, Alike results (f v) (g v)) :
    Alike results (a >>= f) (b >>= g) :=
  h.bind fun v _ hvw => hvw ▸ hf v

theorem ite (c : Prop) [Decidable c] {a a' : Procedure α} {b b' : Procedure β}
    (h : Alike values a b) (h' : Alike values a' b') :
    Alike values (if c then a else a') (if c then b else b') := by
  split
  · exact h
  · exact h'

theorem attempt {a b : Procedure Unit} (h : Alike Eq a b) :
    Alike Eq (Procedure.attempt a) (Procedure.attempt b) :=
  fun m n hm => ⟨.ok rfl, (h m n hm).2⟩

theorem orUndo {a : Procedure α} {b : Procedure β} {undo undo' : Procedure Unit}
    (h : Alike values a b) (hundo : Alike Eq undo undo') :
    Alike values (a.orUndo undo) (b.orUndo undo') := by
  intro m n hm
  obtain ⟨hvalue, hmachine⟩ := h m n hm
  cases ha : a m with
  | mk r m' =>
    cases hb : b n with
    | mk r' n' =>
      rw [ha, hb] at hvalue hmachine
      cases hvalue with
      | ok hvw =>
        rw [orUndo_of_ok ha, orUndo_of_ok hb]
        exact ⟨.ok hvw, hmachine⟩
      | error he =>
        rw [orUndo_of_error ha, orUndo_of_error hb]
        exact ⟨.error he, (hundo m' n' hmachine).2⟩

end Alike

end Procedure

/-! ## Programs -/

/-- What programs do does not depend on the password in their environment. -/
def Platform.IgnoresPassword [Platform] : Prop :=
  ∀ (p : Program) (call : Call) (password : Option Text) (d : Disk),
    Platform.behaviour p { call with password } d = Platform.behaviour p call d

theorem Machine.UpToPassword.program_eq {m n : Machine} (h : m.UpToPassword n) (name : Text) :
    m.program name = n.program name := by
  have hpath : m.environment.searchPath = n.environment.searchPath := by
    rw [Environment.searchPath, Environment.searchPath, h.environment.others _ (by decide)]
  rw [Machine.program, Machine.program, h.disk, hpath]

namespace Command

open Procedure (Alike)

/-- No variable but one holds the password. -/
theorem visiblePassword_upToPassword (c : Command) {e f : Environment} (h : e.UpToPassword f) :
    c.visiblePassword e = c.visiblePassword f := by
  rw [visiblePassword, visiblePassword, h.others passwordVariable (by decide)]

variable [Platform]

/-- Two commands that differ at most in the password start the same program, which does the same. -/
theorem start_upToPassword (hignores : Platform.IgnoresPassword) {c : Command}
    {password : Option Text} {m n : Machine} (hm : m.UpToPassword n)
    (hcall : ∀ tool, (c.call tool m.environment).UpToPassword
      ({ c with password }.call tool n.environment)) :
    Agree Eq (fun started started' => started.1.UpToPassword started'.1 ∧ started.2 = started'.2)
      (c.start m) ({ c with password }.start n) := by
  unfold start
  rw [← hm.program_eq c.program]
  cases m.program c.program with
  | error cause => exact .error rfl
  | ok found =>
    refine .ok ⟨hcall found.1, ?_⟩
    rw [← hm.disk]
    exact (hignores found.2 (c.call found.1 m.environment) _ m.disk).symm

/-- Two commands that differ at most in the password end alike, if their calls are related. -/
theorem run_alike_of_calls (hignores : Platform.IgnoresPassword) {c : Command}
    {password : Option Text} {limit : Option Nat}
    (hcall : ∀ tool (e f : Environment), e.UpToPassword f →
      (c.call tool e).UpToPassword ({ c with password }.call tool f)) :
    Alike Eq (c.run limit) ({ c with password }.run limit) := by
  intro m n hm
  have hstart := start_upToPassword hignores hm fun tool => hcall tool _ _ hm.environment
  unfold run
  generalize c.start m = x, { c with password }.start n = y at hstart
  cases hstart with
  | error hcause => exact ⟨.error (hcause ▸ rfl), hm⟩
  | @ok started started' hsame =>
    obtain ⟨call, a⟩ := started
    obtain ⟨call', a'⟩ := started'
    obtain ⟨hcalls, rfl⟩ : call.UpToPassword call' ∧ a = a' := hsame
    have hafter : (c.finish call (a.done limit) m).UpToPassword
        ({ c with password }.finish call' (a.done limit) n) :=
      ⟨congrArg (c.output (a.done limit)) hm.disk, hm.environment,
        List.rel_append hm.calls (.cons hcalls .nil)⟩
    by_cases hslow : a.outlasts limit
    · simp only [hslow, if_true]
      exact ⟨.error rfl, hafter⟩
    · by_cases hsuccess : a.ending.isSuccess
      · simp only [hslow, hsuccess, if_true]
        exact ⟨.ok rfl, hafter⟩
      · simp only [hslow, hsuccess]
        exact ⟨.error rfl, hafter⟩

theorem run_alike (hignores : Platform.IgnoresPassword) (c : Command) (limit : Option Nat) :
    Alike Eq (c.run limit) (c.run limit) := by
  have hcall (tool : Text) (e f : Environment) (h : e.UpToPassword f) :
      (c.call tool e).UpToPassword ({ c with password := c.password }.call tool f) :=
    ⟨rfl, rfl, rfl, .inl (c.visiblePassword_upToPassword h)⟩
  exact run_alike_of_calls hignores hcall

theorem run_alike_of_dump (hignores : Platform.IgnoresPassword) {c : Command}
    {connection : Connection} (password : Option Text) (h : c.arguments = connection.dumpArguments)
    (limit : Option Nat) : Alike Eq (c.run limit) ({ c with password }.run limit) := by
  refine run_alike_of_calls hignores fun tool e f _ => ⟨rfl, rfl, rfl, .inr ?_⟩
  have hdump : (c.call tool e).IsDump := ⟨connection, h⟩
  exact ⟨hdump, Call.not_isShell_of_isDump hdump⟩

end Command

end DumpConversion
