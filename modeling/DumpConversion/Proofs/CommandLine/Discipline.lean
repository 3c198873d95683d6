import DumpConversion.CommandLine.Run
import DumpConversion.Database.PlainEngine
import DumpConversion.Proofs.Conversion.Programs
import DumpConversion.Proofs.Disk.Places

/-! # How a run may end

An accepted command line ends with exit code 0, or with exit code 1 and nothing printed. What fails
without having been meant to change anything has started no program and changed no file, except that
the log file was opened.

* `Procedure.Atomic`: a step that changes nothing when it fails.
* `Task.Harmless`: a task that has nothing to change, unless it succeeds.
* `run_disciplined`: the exit code, the files and the programs of a run.
-/

namespace DumpConversion

set_option autoImplicit false

open Procedure (Quiet Starts)

/-! ## Steps that change nothing when they fail -/

namespace Procedure

variable {α β : Type}

/-- The step changes nothing when it fails. -/
def Atomic (a : Procedure α) : Prop := ∀ m n e, a m = (.error e, n) → n = m

variable {a : Procedure α}

theorem Atomic.change (operation : Disk → Except IoError Disk) (fault : IoError → Failure) :
    (Procedure.change operation fault).Atomic := by
  intro m n e h
  cases ho : operation m.disk with
  | ok d =>
    rw [change_of_ok ho] at h
    cases h
  | error cause =>
    rw [change_of_error ho] at h
    cases h
    rfl

theorem Atomic.map (h : a.Atomic) (f : α → β) : (do return f (← a)).Atomic := by
  intro m n e hm
  obtain ⟨r, k, ha⟩ : ∃ r k, a m = (r, k) := ⟨_, _, rfl⟩
  cases r with
  | ok v =>
    rw [bind_of_ok ha] at hm
    cases hm
  | error e' =>
    rw [bind_of_error ha] at hm
    cases hm
    exact h m n e ha

/-- What is only looked at before an atomic step changes nothing. -/
theorem Atomic.bind_of_look {f : α → Procedure β} (ha : ∀ m, (a m).2 = m)
    (hf : ∀ v, (f v).Atomic) : (a >>= f).Atomic := by
  intro m n e hm
  obtain ⟨r, k, hr⟩ : ∃ r k, a m = (r, k) := ⟨_, _, rfl⟩
  obtain rfl : k = m := (congrArg Prod.snd hr).symm.trans (ha m)
  cases r with
  | ok v =>
    rw [bind_of_ok hr] at hm
    exact hf v k n e hm
  | error e' =>
    rw [bind_of_error hr] at hm
    cases hm
    rfl

end Procedure

theorem sanitizeInto_atomic (input output : Path) (encoding : Charset) :
    (sanitizeInto input output encoding).Atomic := by
  unfold sanitizeInto
  refine .bind_of_look (fun _ => rfl) fun d => .bind_of_look (fun _ => rfl) fun result => ?_
  exact (Procedure.Atomic.change _ _).map fun _ => result.statistics

namespace CommandLine

variable {g : General} {m n : Machine} {target : Path} {given : Overrides}

/-! ## Log files -/

theorem openLog_changesOnly {d e : Disk} (h : openLog g d = .ok e) :
    d.ChangesOnly g.logFile.toList e := by
  unfold openLog at h
  cases hlog : g.logFile with
  | none =>
    rw [hlog] at h
    cases h
    exact Disk.changesOnly_refl _ d
  | some p =>
    rw [hlog] at h
    simp only [Disk.touch] at h
    cases hl : d.writable p with
    | error f =>
      rw [hl] at h
      cases h
    | ok l =>
      rw [hl] at h
      cases h
      dsimp only
      split
      · exact Disk.changesOnly_refl _ d
      · exact Disk.changesOnly_of_create (p := p) (c := .empty) (by simp) (by rw [Disk.create, hl]; rfl)

section

variable [Platform]

/-! ## Tasks -/

theorem loadSettings_apply (config : Option Path) (given : Overrides) (m : Machine) :
    loadSettings config given m =
      (Settings.load Platform.readLayer m.disk config m.environment given, m) := rfl

theorem loadSettings_quiet (config : Option Path) (given : Overrides) :
    (loadSettings config given).Quiet :=
  .of_kept (fun _ => rfl) fun _ => rfl

theorem Task.perform_convert (g : General) (target : Path) (given : Overrides) :
    (Task.convert target given).perform g = do
      let s ← loadSettings g.config given
      return convertReport g.json (← performConvert s target) := rfl

theorem performConvert_of_unusable {s : Settings} {fault : SettingsFault}
    (h : s.checkUsable = .error fault) (target : Path) (m : Machine) :
    performConvert s target m = (.error (.settings fault), m) := by
  have hcheck : s.checkUsable.mapError Failure.settings = .error (.settings fault) := by
    rw [h]
    rfl
  rw [performConvert, Procedure.bind_of_error (Procedure.check_of_error hcheck m)]

/-- A conversion must have settings that allow it before it changes anything; no other task changes
anything unless it succeeds. -/
def Task.Harmless (g : General) (m : Machine) : Task → Prop
  | .convert _ given =>
    ∀ s, Settings.load Platform.readLayer m.disk g.config m.environment given = .ok s →
      ∃ fault, s.checkUsable = .error fault
  | _ => True

theorem convert_of_harmless (h : (Task.convert target given).Harmless g m) :
    ∃ e, (Task.convert target given).perform g m = (.error e, m) := by
  rw [Task.perform_convert]
  have hload := loadSettings_apply g.config given m
  cases hsettings : Settings.load Platform.readLayer m.disk g.config m.environment given with
  | error e =>
    rw [hsettings] at hload
    exact ⟨e, Procedure.bind_of_error hload⟩
  | ok s =>
    rw [hsettings] at hload
    obtain ⟨fault, hfault⟩ := h s hsettings
    rw [Procedure.bind_of_ok hload]
    exact ⟨_, Procedure.bind_of_error (performConvert_of_unusable hfault target m)⟩

/-- A task that had nothing to change has changed nothing when it fails. -/
theorem Task.Harmless.perform {t : Task} {e : Failure} (h : t.Harmless g m)
    (hm : t.perform g m = (.error e, n)) : n = m := by
  cases t with
  | convert target given =>
    obtain ⟨e', hperform⟩ := convert_of_harmless h
    cases hm.symm.trans hperform
    rfl
  | sanitize input output encoding =>
    have hatomic : ((Task.sanitize input output encoding).perform g).Atomic :=
      .bind_of_look (fun _ => rfl) fun s => (sanitizeInto_atomic _ _ _).map _
    exact hatomic m n e hm
  | showSettings given =>
    have hatomic : ((Task.showSettings given).perform g).Atomic := by
      refine .bind_of_look (fun _ => rfl) fun s k k' e' hk => ?_
      cases hk
    exact hatomic m n e hm
  | showVersion => cases hm

/-- With settings that allow it, a conversion starts what its stages start. -/
theorem convert_task_starts {s : Settings} (m : Machine) (target : Path)
    (h : Settings.load Platform.readLayer m.disk g.config m.environment given = .ok s)
    (husable : s.checkUsable = .ok ()) :
    ∃ commands, ((Task.convert target given).perform g).Starts m commands ∧
      InOrder s target m commands := by
  have hload : loadSettings g.config given m = (.ok s, m) := by rw [loadSettings_apply, h]
  have hcheck : s.checkUsable.mapError Failure.settings = .ok () := by
    rw [husable]
    rfl
  obtain ⟨commands, hstarts, horder⟩ := convert_starts s target m
  refine ⟨commands, ?_, horder⟩
  have hperform : (performConvert s target).Starts m commands :=
    (Quiet.check _ m).bind_of_ok (Procedure.check_of_ok hcheck m) hstarts
  rw [Task.perform_convert]
  exact (loadSettings_quiet g.config given m).bind_of_ok hload
    (hperform.bind_quiet fun account => .pure _)

/-! ## Runs -/

/-- What can be said of every run of a request, by the machine before it. -/
structure Disciplined (request : Request) (m : Machine) (r : Run) : Prop where
  exit : r.outcome.code = 0 ∨ r.outcome.code = 1 ∧ r.outcome.stdout = []
  /-- The task is taken with the log file open, which may be the file that holds the settings. -/
  harmless : ∀ g t, request = .task g t → r.outcome.code = 1 →
    (∀ d, openLog g m.disk = .ok d → t.Harmless g { m with disk := d }) →
    Started [] m r.machine ∧ m.disk.ChangesOnly g.logFile.toList r.machine.disk
  programs : ∀ g target given, request = .task g (.convert target given) →
    Started [] m r.machine ∨
      ∃ d s commands, openLog g m.disk = .ok d ∧
        Settings.load Platform.readLayer d g.config m.environment given = .ok s ∧
        s.checkUsable = .ok () ∧ Started commands m r.machine ∧
        InOrder s target { m with disk := d } commands

theorem runTask_of_log_error {cause : IoError} {t : Task} (h : openLog g m.disk = .error cause) :
    runTask g t m = ⟨.failed (.noLog cause), m, none⟩ := by
  rw [runTask, h]

theorem runTask_of_ok {d : Disk} {t : Task} {text : Text} (h : openLog g m.disk = .ok d)
    (hperform : t.perform g { m with disk := d } = (.ok text, n)) :
    runTask g t m = ⟨.printed text, n, g.diagnostics m.environment⟩ := by
  rw [runTask, h]
  simp only [hperform]

theorem runTask_of_error {d : Disk} {t : Task} {e : Failure} (h : openLog g m.disk = .ok d)
    (hperform : t.perform g { m with disk := d } = (.error e, n)) :
    runTask g t m = ⟨.failed (.failure e), n, g.diagnostics m.environment⟩ := by
  rw [runTask, h]
  simp only [hperform]

theorem runTask_starts {d : Disk} {t : Task} {commands : List Command}
    (h : openLog g m.disk = .ok d) (hstarts : (t.perform g).Starts { m with disk := d } commands) :
    Started commands m (runTask g t m).machine := by
  obtain ⟨r, n, hperform⟩ : ∃ r n, t.perform g { m with disk := d } = (r, n) := ⟨_, _, rfl⟩
  unfold Starts at hstarts
  rw [hperform] at hstarts
  have hfrom : Started commands m n := ⟨hstarts.environment, hstarts.calls⟩
  cases r with
  | ok text =>
    rw [runTask_of_ok h hperform]
    exact hfrom
  | error e =>
    rw [runTask_of_error h hperform]
    exact hfrom

theorem runTask_disciplined (g : General) (t : Task) (m : Machine) :
    Disciplined (.task g t) m (runTask g t m) := by
  cases hlog : openLog g m.disk with
  | error cause =>
    rw [runTask_of_log_error hlog]
    have hnone : Started [] m m := started_nil_iff.mpr ⟨rfl, rfl⟩
    exact ⟨.inr ⟨rfl, rfl⟩, fun _ _ _ _ _ => ⟨hnone, Disk.changesOnly_refl _ _⟩,
      fun _ _ _ _ => .inl hnone⟩
  | ok d =>
    obtain ⟨r, n, hperform⟩ : ∃ r n, t.perform g { m with disk := d } = (r, n) := ⟨_, _, rfl⟩
    refine ⟨?_, fun g' t' heq hcode hharmless => ?_, fun g' target given heq => ?_⟩
    · cases r with
      | ok text =>
        rw [runTask_of_ok hlog hperform]
        exact .inl rfl
      | error e =>
        rw [runTask_of_error hlog hperform]
        exact .inr ⟨rfl, rfl⟩
    · cases heq
      cases r with
      | ok text =>
        rw [runTask_of_ok hlog hperform] at hcode
        cases hcode
      | error e =>
        obtain rfl := (hharmless d hlog).perform hperform
        rw [runTask_of_error hlog hperform]
        exact ⟨started_nil_iff.mpr ⟨rfl, rfl⟩, openLog_changesOnly hlog⟩
    · cases heq
      by_cases husable : ∃ s,
          Settings.load Platform.readLayer d g.config m.environment given = .ok s ∧
            s.checkUsable = .ok ()
      · obtain ⟨s, hload, husable⟩ := husable
        obtain ⟨commands, hstarts, horder⟩ :=
          convert_task_starts { m with disk := d } target hload husable
        exact .inr ⟨d, s, commands, hlog, hload, husable, runTask_starts hlog hstarts, horder⟩
      · have hharmless : (Task.convert target given).Harmless g { m with disk := d } := by
          intro s hload
          cases hcheck : s.checkUsable with
          | ok u => exact absurd ⟨s, hload, hcheck⟩ husable
          | error fault => exact ⟨fault, rfl⟩
        obtain ⟨e, hfailed⟩ := convert_of_harmless hharmless
        rw [runTask_of_error hlog hfailed]
        exact .inl (started_nil_iff.mpr ⟨rfl, rfl⟩)

end

/-- Every run of an accepted command line is disciplined. -/
theorem run_disciplined [Platform] {words : List Text} {request : Request}
    (h : Request.read words = .ok request) (m : Machine) :
    Disciplined request m (run words m) := by
  have hanswered {r : Request} (text : Text) (hr : ∀ g t, r ≠ .task g t) :
      Disciplined r m ⟨.printed text, m, none⟩ :=
    ⟨.inl rfl, fun g t heq => absurd heq (hr g t), fun g target given heq => absurd heq (hr g _)⟩
  unfold run
  rw [h]
  cases request with
  | task g t => exact runTask_disciplined g t m
  | programVersion => exact hanswered _ fun _ _ heq => by cases heq
  | help about => exact hanswered _ fun _ _ heq => by cases heq

/-- Without the name of a source database nothing is started, and the log file is all that is made. -/
theorem run_disciplined_of_no_database :
    let _ : Platform := .plain fun _ _ _ => .idle
    let words := ["convert".toList, "shop.db".toList, "--log-file=run.log".toList]
    let request := Request.task ⟨false, 0, false, none, some ⟨"run.log".toList⟩⟩
      (.convert ⟨"shop.db".toList⟩ Overrides.none)
    let old : Location × Entry := (["shop.db".toList], .file .empty)
    let m : Machine := ⟨⟨[old], []⟩, [], []⟩
    Request.read words = .ok request ∧ (run words m).outcome.code = 1 ∧
      (run words m).machine.disk.entries = [(["run.log".toList], .file .empty), old] ∧
      Disciplined request m (run words m) := by
  intro _ words request old m
  have hread : Request.read words = .ok request := by decide +kernel
  exact ⟨hread, by decide +kernel, by decide +kernel, run_disciplined hread m⟩

end CommandLine
end DumpConversion
