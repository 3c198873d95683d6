import DumpConversion.Conversion.Stages
import DumpConversion.Proofs.Machine.Starts

/-! # The programs of a conversion

A conversion starts the dump program and, if the dump is to be loaded by the shell of the database,
then the shell; but never the shell before the dump has been made and sanitized and what stood at
the target has been set aside.

* `dumpBy_starts`, `loadByShell_starts`: the stages that start a program.
* `sanitizeInto_quiet`, `setAside_quiet`, `loadInProcess_quiet`, `inspect_quiet`, `undoBuild_quiet`: the
  others.
* `convert_starts`: the whole conversion.
-/

namespace DumpConversion

set_option autoImplicit false

open Procedure (Quiet Starts)

/-! ## Stages on files -/

theorem sanitizeInto_quiet (input output : Path) (encoding : Charset) :
    (sanitizeInto input output encoding).Quiet := by
  unfold sanitizeInto
  refine .bind .disk fun d => .bind (.check _) fun result => ?_
  exact .bind (.change _ _) fun _ => .pure _

theorem setAside_quiet (target : Path) : (setAside target).Quiet := by
  unfold setAside
  refine .bind .disk fun d => .ite _ (.pure _) (.ite _ (.fail _) ?_)
  refine .bind (.change _ _) fun _ => .bind .disk fun d => ?_
  refine .bind (.check _) fun present => .bind (.check _) fun copied => .ite _ (.fail _) ?_
  exact .bind (.change _ _) fun _ => .pure _

theorem putBack_quiet (target : Path) : (putBack target).Quiet := by
  have hrename : Quiet (do
      Procedure.change (fun d => d.rename target.aside target)
        fun e => .aside target.aside (.putBackFailed target e)
      return true) :=
    .bind (.change _ _) fun _ => .pure _
  unfold putBack
  refine .bind .disk fun d => .ite _ (.pure _) (.ite _ ?_ hrename)
  exact .bind (.change _ _) fun _ => hrename

theorem undoBuild_quiet (s : Settings) (target : Path) (wasSetAside : Bool) :
    (undoBuild s target wasSetAside).Quiet := by
  unfold undoBuild
  refine .ite _ (.attempt (.bind (putBack_quiet target) fun _ => .pure _)) ?_
  exact .bind .disk fun d => .ite _ (.attempt (.change _ _)) (.pure _)

section

variable [Platform]

theorem inspect_quiet (p : Path) : (inspect p).Quiet := .onDisk _

theorem loadInProcess_quiet (target dump : Path) : (loadInProcess target dump).Quiet := by
  unfold loadInProcess
  exact .bind .disk fun d => .bind (.check _) fun script => .onDisk _

/-! ## Stages that start a program -/

theorem dumpBy_launches (program : Path) (c : Connection) (limit : Option Nat) (dump : Path) :
    (dumpBy program c limit dump).Launches (dumpCommand program c dump.unfinished) := by
  unfold dumpBy
  refine Quiet.bind_launches (.change _ _) fun _ => ?_
  have hundo : (Procedure.change (fun d => d.remove dump.unfinished) .io).attempt.Quiet :=
    .attempt (.change _ _)
  have hrun := Command.run_launches (dumpCommand program c dump.unfinished) limit
  exact (hrun.orUndo hundo).bind_quiet fun _ => .change _ _

/-- The shell is given what it can read of the dump. -/
theorem loadByShell_starts (program : Path) (limit : Option Nat) (target dump : Path)
    (m : Machine) :
    (loadByShell program limit target dump).Starts m [] ∨
      ∃ input, m.disk.input dump = .ok input ∧
        (loadByShell program limit target dump).Starts m [shellCommand program target input] := by
  have hread (input : Bytes) (hinput : m.disk.input dump = .ok input) :
      loadByShell program limit target dump m =
        (shellCommand program target input).run limit m := by
    have hcheck : (m.disk.input dump).mapError Failure.io = .ok input := by
      rw [hinput]
      rfl
    rw [loadByShell, Procedure.bind_of_ok (Procedure.disk_apply m),
      Procedure.bind_of_ok (Procedure.check_of_ok hcheck m)]
  unfold Starts
  cases hinput : m.disk.input dump with
  | ok input =>
    rw [hread input hinput]
    rcases Command.run_launches (shellCommand program target input) limit m with hrun | ⟨hnone, -⟩
    · exact .inr ⟨input, rfl, hrun⟩
    · exact .inl hnone
  | error cause =>
    have hcheck : (m.disk.input dump).mapError Failure.io = .error (.io cause) := by
      rw [hinput]
      rfl
    rw [loadByShell, Procedure.bind_of_ok (Procedure.disk_apply m),
      Procedure.bind_of_error (Procedure.check_of_error hcheck m)]
    exact .inl (started_nil_iff.mpr ⟨rfl, rfl⟩)

theorem build_starts (s : Settings) (target : Path) (m : Machine) :
    (build s s.loader target).Starts m [] ∨
      s.importer = .shell ∧ ∃ input, m.disk.input s.dumpFile = .ok input ∧
        (build s s.loader target).Starts m [shellCommand s.tools.sqlite3 target input] := by
  have hinspect (u : Unit) :
      Quiet (if s.verify then do return some (← inspect target) else return none) :=
    .ite _ (.bind (inspect_quiet target) fun _ => .pure _) (.pure _)
  have hload {commands : List Command} (h : (s.loader target s.dumpFile).Starts m commands) :
      (build s s.loader target).Starts m commands := h.bind_quiet hinspect
  cases hmethod : s.importer with
  | embedded =>
    left
    apply hload
    rw [Settings.loader, hmethod]
    exact loadInProcess_quiet target s.dumpFile m
  | shell =>
    have hshell : s.loader = loadByShell s.tools.sqlite3 s.limit := by
      rw [Settings.loader, hmethod]
    rw [hshell] at hload
    rw [hshell]
    rcases loadByShell_starts s.tools.sqlite3 s.limit target s.dumpFile m with
      hnone | ⟨input, hinput, hrun⟩
    · exact .inl (hload hnone)
    · exact .inr ⟨rfl, input, hinput, hload hrun⟩

/-! ## The conversion -/

/-- The stages before the load have succeeded, one after the other. -/
def Prepared (s : Settings) (target : Path) (m n : Machine) : Prop :=
  ∃ m1 m2 statistics kept, s.dumper s.dumpFile m = (.ok (), m1) ∧
    sanitizeInto s.dumpFile s.dumpFile s.encoding m1 = (.ok statistics, m2) ∧
    setAside target m2 = (.ok kept, n)

/-- The command of the dump program. -/
def Settings.dumpCommand (s : Settings) : Command :=
  DumpConversion.dumpCommand s.tools.mysqldump s.connection s.dumpFile.unfinished

/-- What a conversion may start: an initial part of the dump program and the shell, and the shell only
as the loader that the settings ask for and after everything before the load has succeeded. -/
def InOrder (s : Settings) (target : Path) (m : Machine) (commands : List Command) : Prop :=
  ∃ input, commands <+: [s.dumpCommand, shellCommand s.tools.sqlite3 target input] ∧
    (2 ≤ commands.length → s.importer = .shell ∧
      ∃ n, Prepared s target m n ∧ n.disk.input s.dumpFile = .ok input)

theorem inOrder_of_prefix {s : Settings} {target : Path} {m : Machine} {commands : List Command}
    (h : commands <+: [s.dumpCommand]) : InOrder s target m commands := by
  have hlength : commands.length ≤ 1 := h.length_le
  exact ⟨[], h.trans ⟨[_], rfl⟩, fun htwo => by omega⟩

section Stages

variable {s : Settings} {target : Path} {m m1 m2 n : Machine} {statistics : Statistics}
variable {kept : Option KeptCopy} {commands : List Command} {e : Failure}

theorem dumper_starts (hm : s.dumper s.dumpFile m = (.ok (), m1)) :
    (s.dumper s.dumpFile).Starts m [s.dumpCommand] := by
  rcases dumpBy_launches s.tools.mysqldump s.connection s.limit s.dumpFile m with
    hdump | ⟨-, e, k, he⟩
  · exact hdump
  · cases hm.symm.trans he

theorem convert_starts_of_sanitize_error (hm : s.dumper s.dumpFile m = (.ok (), m1))
    (hm1 : sanitizeInto s.dumpFile s.dumpFile s.encoding m1 = (.error e, m2)) :
    (convert s s.dumper s.loader target).Starts m [s.dumpCommand] := by
  unfold convert
  exact (dumper_starts hm).bind_of_ok hm ((sanitizeInto_quiet _ _ _ m1).bind_of_error hm1)

theorem convert_starts_of_aside_error (hm : s.dumper s.dumpFile m = (.ok (), m1))
    (hm1 : sanitizeInto s.dumpFile s.dumpFile s.encoding m1 = (.ok statistics, m2))
    (hm2 : setAside target m2 = (.error e, n)) :
    (convert s s.dumper s.loader target).Starts m [s.dumpCommand] := by
  unfold convert
  exact (dumper_starts hm).bind_of_ok hm ((sanitizeInto_quiet _ _ _ m1).bind_of_ok hm1
    ((setAside_quiet target m2).bind_of_error hm2))

theorem convert_starts_of_build (hm : s.dumper s.dumpFile m = (.ok (), m1))
    (hm1 : sanitizeInto s.dumpFile s.dumpFile s.encoding m1 = (.ok statistics, m2))
    (hm2 : setAside target m2 = (.ok kept, n))
    (hbuild : (build s s.loader target).Starts n commands) :
    (convert s s.dumper s.loader target).Starts m (s.dumpCommand :: commands) := by
  have hlast (inventory : Option Inventory) : Quiet (do
      let d ← Procedure.disk
      return (⟨d.canonical target, d.canonical s.dumpFile, statistics, kept, inventory⟩ :
        Account)) :=
    .bind .disk fun d => .pure _
  unfold convert
  exact (dumper_starts hm).bind_of_ok hm ((sanitizeInto_quiet _ _ _ m1).bind_of_ok hm1
    ((setAside_quiet target m2).bind_of_ok hm2
      ((hbuild.orUndo (undoBuild_quiet s target kept.isSome)).bind_quiet hlast)))

end Stages

theorem convert_starts (s : Settings) (target : Path) (m : Machine) :
    ∃ commands, (convert s s.dumper s.loader target).Starts m commands ∧
      InOrder s target m commands := by
  have honly : InOrder s target m [s.dumpCommand] := inOrder_of_prefix (List.prefix_refl _)
  obtain ⟨r, m1, hm⟩ : ∃ r m1, s.dumper s.dumpFile m = (r, m1) := ⟨_, _, rfl⟩
  cases r with
  | error e =>
    rcases dumpBy_launches s.tools.mysqldump s.connection s.limit s.dumpFile m with
      hdump | ⟨hnone, -⟩
    · exact ⟨_, hdump.bind_of_error hm, honly⟩
    · exact ⟨_, hnone.bind_of_error hm, inOrder_of_prefix List.nil_prefix⟩
  | ok u =>
    obtain ⟨r, m2, hm1⟩ :
      ∃ r m2, sanitizeInto s.dumpFile s.dumpFile s.encoding m1 = (r, m2) := ⟨_, _, rfl⟩
    cases r with
    | error e => exact ⟨_, convert_starts_of_sanitize_error hm hm1, honly⟩
    | ok statistics =>
      obtain ⟨r, n, hm2⟩ : ∃ r n, setAside target m2 = (r, n) := ⟨_, _, rfl⟩
      cases r with
      | error e => exact ⟨_, convert_starts_of_aside_error hm hm1 hm2, honly⟩
      | ok kept =>
        rcases build_starts s target n with hbuild | ⟨hmethod, input, hinput, hbuild⟩
        · exact ⟨_, convert_starts_of_build hm hm1 hm2 hbuild, honly⟩
        · refine ⟨_, convert_starts_of_build hm hm1 hm2 hbuild, input, List.prefix_refl _, ?_⟩
          exact fun _ => ⟨hmethod, n, ⟨m1, m2, statistics, kept, hm, hm1, hm2⟩, hinput⟩

end

end DumpConversion
