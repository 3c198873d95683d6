import Mathlib.Data.List.Forall2
import DumpConversion.Machine.Command

/-! # Programs that a step starts

Every program that is started leaves a call, however it ends.

* `Started`: between two machines the programs of some commands were started, one after the other.
* `Procedure.Quiet`: a step that starts no program. Each way to build a step from quiet ones gives a
  quiet one, so a stage is seen to be quiet by going through its text once.
* `Procedure.Launches`: a step that starts one program, or fails before that; so does the run of a
  command (`Command.run_launches`).
-/

namespace DumpConversion

set_option autoImplicit false

/-! ## Traces of a program -/

/-- The call is what the command leaves when its program is started. -/
structure Command.Leaves (environment : Environment) (c : Command) (call : Call) : Prop where
  tool : ∃ (m : Machine) (p : Program), m.environment = environment ∧
    m.program c.program = .ok (call.tool, p)
  arguments : call.arguments = c.arguments
  password : call.password = c.visiblePassword environment
  stdin : call.stdin = c.stdin

/-- From one machine to the other the programs of the commands were started, and no others. -/
structure Started (commands : List Command) (m n : Machine) : Prop where
  environment : n.environment = m.environment
  calls : ∃ calls, n.calls = m.calls ++ calls ∧
    List.Forall₂ (Command.Leaves m.environment) commands calls

variable {m n k : Machine} {commands : List Command}

theorem started_nil_iff :
    Started [] m n ↔ n.environment = m.environment ∧ n.calls = m.calls := by
  constructor
  · rintro ⟨henvironment, calls, hcalls, hleaves⟩
    cases hleaves
    exact ⟨henvironment, by simpa using hcalls⟩
  · rintro ⟨henvironment, hcalls⟩
    exact ⟨henvironment, [], by simp [hcalls], .nil⟩

theorem Started.append {more : List Command} (h : Started commands m k) (h' : Started more k n) :
    Started (commands ++ more) m n := by
  obtain ⟨henvironment, calls, hcalls, hleaves⟩ := h
  obtain ⟨henvironment', calls', hcalls', hleaves'⟩ := h'
  rw [henvironment] at hleaves'
  refine ⟨henvironment'.trans henvironment, calls ++ calls', ?_, List.rel_append hleaves hleaves'⟩
  rw [hcalls', hcalls, List.append_assoc]

/-! ## Steps -/

namespace Procedure

variable {α β : Type}

/-- The commands whose programs a step starts, from a machine. -/
def Starts (a : Procedure α) (m : Machine) (commands : List Command) : Prop :=
  Started commands m (a m).2

variable {a : Procedure α} {f : α → Procedure β} {v : α} {e : Failure}

theorem Starts.bind_of_ok {more : List Command} (h : a.Starts m commands) (hm : a m = (.ok v, n))
    (hf : (f v).Starts n more) : (a >>= f).Starts m (commands ++ more) := by
  unfold Starts at h hf ⊢
  rw [hm] at h
  rw [Procedure.bind_of_ok hm]
  exact h.append hf

theorem Starts.bind_of_error (h : a.Starts m commands) (hm : a m = (.error e, n)) :
    (a >>= f).Starts m commands := by
  unfold Starts at h ⊢
  rw [hm] at h
  rw [Procedure.bind_of_error hm]
  exact h

/-- The step starts no program, from whatever machine. -/
def Quiet (a : Procedure α) : Prop := ∀ m, a.Starts m []

namespace Quiet

theorem of_kept (henvironment : ∀ m, (a m).2.environment = m.environment)
    (hcalls : ∀ m, (a m).2.calls = m.calls) : a.Quiet :=
  fun m => started_nil_iff.mpr ⟨henvironment m, hcalls m⟩

theorem pure (v : α) : (Pure.pure v : Procedure α).Quiet := .of_kept (fun _ => rfl) fun _ => rfl

theorem disk : Procedure.disk.Quiet := .of_kept (fun _ => rfl) fun _ => rfl

theorem fail (e : Failure) : (Procedure.fail e : Procedure α).Quiet :=
  .of_kept (fun _ => rfl) fun _ => rfl

theorem check (r : Except Failure α) : (Procedure.check r).Quiet :=
  .of_kept (fun _ => rfl) fun _ => rfl

theorem onDisk (work : Disk → Except Failure α × Disk) : (Procedure.onDisk work).Quiet :=
  .of_kept (fun _ => rfl) fun _ => rfl

theorem change (operation : Disk → Except IoError Disk) (fault : IoError → Failure) :
    (Procedure.change operation fault).Quiet := by
  intro m
  unfold Starts
  cases ho : operation m.disk with
  | ok d =>
    rw [change_of_ok ho]
    exact started_nil_iff.mpr ⟨rfl, rfl⟩
  | error e =>
    rw [change_of_error ho]
    exact started_nil_iff.mpr ⟨rfl, rfl⟩

theorem ite (c : Prop) [Decidable c] {b : Procedure α} (ha : a.Quiet) (hb : b.Quiet) :
    (if c then a else b).Quiet := by
  split
  · exact ha
  · exact hb

theorem bind (ha : a.Quiet) (hf : ∀ v, (f v).Quiet) :
    (a >>= f).Quiet := by
  intro m
  obtain ⟨r, n, hm⟩ : ∃ r n, a m = (r, n) := ⟨_, _, rfl⟩
  cases r with
  | ok v => exact (ha m).bind_of_ok hm (hf v n)
  | error e => exact (ha m).bind_of_error hm

theorem attempt {a : Procedure Unit} (ha : a.Quiet) : a.attempt.Quiet := fun m => ha m

end Quiet

/-- Nothing quiet behind a step starts another program. -/
theorem Starts.bind_quiet (h : a.Starts m commands) (hf : ∀ v, (f v).Quiet) :
    (a >>= f).Starts m commands := by
  obtain ⟨r, n, hm⟩ : ∃ r n, a m = (r, n) := ⟨_, _, rfl⟩
  cases r with
  | ok v => simpa using h.bind_of_ok hm (hf v n)
  | error e => exact h.bind_of_error hm

theorem Starts.orUndo {undo : Procedure Unit} (h : a.Starts m commands) (hundo : undo.Quiet) :
    (a.orUndo undo).Starts m commands := by
  obtain ⟨r, n, hm⟩ : ∃ r n, a m = (r, n) := ⟨_, _, rfl⟩
  unfold Starts at h ⊢
  rw [hm] at h
  cases r with
  | ok v =>
    rw [orUndo_of_ok hm]
    exact h
  | error e =>
    rw [orUndo_of_error hm]
    simpa using h.append (hundo n)

/-- The step starts the program of the command and no other, unless it fails before that. -/
def Launches (a : Procedure α) (c : Command) : Prop :=
  ∀ m, a.Starts m [c] ∨ a.Starts m [] ∧ ∃ e n, a m = (.error e, n)

variable {c : Command}

theorem Launches.bind_quiet (h : a.Launches c) (hf : ∀ v, (f v).Quiet) :
    (a >>= f).Launches c := by
  intro m
  rcases h m with hc | ⟨hnone, e, n, hm⟩
  · exact .inl (hc.bind_quiet hf)
  · exact .inr ⟨hnone.bind_of_error hm, e, n, Procedure.bind_of_error hm⟩

theorem Launches.orUndo {undo : Procedure Unit} (h : a.Launches c) (hundo : undo.Quiet) :
    (a.orUndo undo).Launches c := by
  intro m
  rcases h m with hc | ⟨hnone, e, n, hm⟩
  · exact .inl (hc.orUndo hundo)
  · exact .inr ⟨hnone.orUndo hundo, e, _, orUndo_of_error hm⟩

theorem Quiet.bind_launches (h : a.Quiet) (hf : ∀ v, (f v).Launches c) :
    (a >>= f).Launches c := by
  intro m
  obtain ⟨r, n, hm⟩ : ∃ r n, a m = (r, n) := ⟨_, _, rfl⟩
  cases r with
  | error e => exact .inr ⟨(h m).bind_of_error hm, e, n, Procedure.bind_of_error hm⟩
  | ok v =>
    rcases hf v n with hc | ⟨hnone, e, k, hn⟩
    · exact .inl ((h m).bind_of_ok hm hc)
    · exact .inr ⟨(h m).bind_of_ok hm hnone, e, k, (Procedure.bind_of_ok hm).trans hn⟩

end Procedure

/-! ## One command -/

namespace Command

variable [Platform]

theorem start_eq_ok {c : Command} {call : Call} {a : Activity} (h : c.start m = .ok (call, a)) :
    ∃ tool p, m.program c.program = .ok (tool, p) ∧ call = c.call tool m.environment ∧
      a = Platform.behaviour p call m.disk := by
  unfold start at h
  cases hp : m.program c.program with
  | error cause =>
    rw [hp] at h
    cases h
  | ok found =>
    rw [hp] at h
    cases h
    exact ⟨found.1, found.2, rfl, rfl, rfl⟩

theorem finish_started {c : Command} {call : Call} {a : Activity} (h : c.start m = .ok (call, a))
    (done : Deeds) : Started [c] m (c.finish call done m) := by
  obtain ⟨tool, p, hp, rfl, -⟩ := start_eq_ok h
  have hleaves : c.Leaves m.environment (c.call tool m.environment) :=
    ⟨⟨m, p, rfl, hp⟩, rfl, rfl, rfl⟩
  exact ⟨rfl, _, rfl, .cons hleaves .nil⟩

theorem run_launches (c : Command) (limit : Option Nat) : (c.run limit).Launches c := by
  intro m
  unfold Procedure.Starts
  cases hstart : c.start m with
  | error cause =>
    rw [run_of_missing hstart]
    exact .inr ⟨started_nil_iff.mpr ⟨rfl, rfl⟩, _, _, rfl⟩
  | ok started =>
    rw [run_of_start hstart]
    exact .inl (finish_started hstart _)

end Command

end DumpConversion
