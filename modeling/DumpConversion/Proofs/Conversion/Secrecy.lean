import DumpConversion.Conversion.Stages
import DumpConversion.Proofs.Machine.TwoRuns

/-! # No stage of a conversion depends on the password

The two runs go through the same stages, one after the other. Only the command of a dump differs,
and only in the password.

* `dumper_alike`, `loader_alike`: the stages that run programs, if these ignore the password.
* `setAside_alike`, `undoBuild_alike`, `sanitizeInto_alike`: the stages that work on files.
* `convert_alike`: the whole conversion.
-/

namespace DumpConversion

set_option autoImplicit false

open Procedure (Alike)

/-! ## Stages on files -/

theorem sanitizeInto_alike (input output : Path) (encoding : Charset) :
    Alike Eq (sanitizeInto input output encoding) (sanitizeInto input output encoding) := by
  unfold sanitizeInto
  refine .bind_self .disk fun d => ?_
  refine .bind_self (.check_self _) fun result => ?_
  exact .bind_self (.change _ _) fun _ => .pure rfl

theorem setAside_alike (target : Path) : Alike Eq (setAside target) (setAside target) := by
  unfold setAside
  refine .bind_self .disk fun d => ?_
  refine .ite _ (.pure rfl) (.ite _ (.fail _) ?_)
  refine .bind_self (.change _ _) fun _ => .bind_self .disk fun d => ?_
  refine .bind_self (.check_self _) fun present => .bind_self (.check_self _) fun copied => ?_
  refine .ite _ (.fail _) ?_
  exact .bind_self (.change _ _) fun _ => .pure rfl

theorem putBack_alike (target : Path) : Alike Eq (putBack target) (putBack target) := by
  unfold putBack
  refine .bind_self .disk fun d => ?_
  refine .ite _ (.pure rfl) ?_
  have hrename := Alike.change (fun d => d.rename target.aside target)
    fun e => .aside target.aside (.putBackFailed target e)
  refine .ite _ (.bind_self (.change _ _) fun _ => ?_) ?_
  · exact .bind_self hrename fun _ => .pure rfl
  · exact .bind_self hrename fun _ => .pure rfl

variable {s s' : Settings}

theorem undoBuild_alike (h : s.UpToPassword s') (target : Path) (wasSetAside : Bool) :
    Alike Eq (undoBuild s target wasSetAside) (undoBuild s' target wasSetAside) := by
  obtain ⟨p, -, rfl⟩ := h
  unfold undoBuild
  refine .ite _ (.attempt ?_) ?_
  · exact .bind_self (putBack_alike target) fun _ => .pure rfl
  · exact .bind_self .disk fun d => .ite _ (.attempt (.change _ _)) (.pure rfl)

/-! ## Stages that run programs -/

section

variable [Platform]

/-- Only the command of the dump program differs. -/
theorem dumpBy_alike (hignores : Platform.IgnoresPassword) (program : Path) {c d : Connection}
    (password : Text) (hd : d = { c with password }) (limit : Option Nat) (dump : Path) :
    Alike Eq (dumpBy program c limit dump) (dumpBy program d limit dump) := by
  subst hd
  unfold dumpBy
  refine .bind_self (.change _ _) fun _ => ?_
  refine .bind_self (.orUndo ?_ (.attempt (.change _ _))) fun _ => .change _ _
  have harguments : (dumpCommand program c dump.unfinished).arguments = c.dumpArguments := rfl
  exact Command.run_alike_of_dump hignores _ harguments limit

theorem loadByShell_alike (hignores : Platform.IgnoresPassword) (program : Path)
    (limit : Option Nat) (target dump : Path) :
    Alike Eq (loadByShell program limit target dump) (loadByShell program limit target dump) := by
  unfold loadByShell
  refine .bind_self .disk fun d => .bind_self (.check_self _) fun input => ?_
  exact Command.run_alike hignores _ limit

theorem loadInProcess_alike (target dump : Path) :
    Alike Eq (loadInProcess target dump) (loadInProcess target dump) := by
  unfold loadInProcess
  refine .bind_self .disk fun d => .bind_self (.check_self _) fun script => ?_
  exact .onDisk _

theorem inspect_alike (p : Path) : Alike Eq (inspect p) (inspect p) := .onDisk _

theorem dumper_alike (hignores : Platform.IgnoresPassword) (h : s.UpToPassword s')
    (dump : Path) : Alike Eq (s.dumper dump) (s'.dumper dump) := by
  obtain ⟨p, -, rfl⟩ := h
  exact dumpBy_alike hignores s.tools.mysqldump p rfl s.limit dump

theorem loader_alike (hignores : Platform.IgnoresPassword) (h : s.UpToPassword s')
    (target dump : Path) : Alike Eq (s.loader target dump) (s'.loader target dump) := by
  obtain ⟨p, -, rfl⟩ := h
  unfold Settings.loader
  cases hmethod : s.importer with
  | shell =>
    simp only [Settings.withPassword, hmethod]
    exact loadByShell_alike hignores s.tools.sqlite3 s.limit target dump
  | embedded =>
    simp only [Settings.withPassword, hmethod]
    exact loadInProcess_alike target dump

/-! ## The conversion -/

theorem build_alike (hignores : Platform.IgnoresPassword) (h : s.UpToPassword s')
    (target : Path) : Alike Eq (build s s.loader target) (build s' s'.loader target) := by
  have hload := loader_alike hignores h target s.dumpFile
  obtain ⟨p, -, rfl⟩ := h
  unfold build
  refine .bind_self hload fun _ => .ite _ ?_ (.pure rfl)
  exact .bind_self (inspect_alike target) fun inventory => .pure rfl

/-- Conversions that differ at most in the password end alike. -/
theorem convert_alike (hignores : Platform.IgnoresPassword) (h : s.UpToPassword s')
    (target : Path) :
    Alike Eq (convert s s.dumper s.loader target) (convert s' s'.dumper s'.loader target) := by
  have hdump := dumper_alike hignores h s.dumpFile
  have hbuild := build_alike hignores h target
  have hundo := undoBuild_alike h target
  obtain ⟨p, -, rfl⟩ := h
  unfold convert
  refine .bind_self hdump fun _ => .bind_self (sanitizeInto_alike _ _ _) fun statistics => ?_
  refine .bind_self (setAside_alike target) fun kept => ?_
  refine .bind_self (.orUndo hbuild (hundo kept.isSome)) fun inventory => ?_
  exact .bind_self .disk fun d => .pure rfl

end

end DumpConversion
