import DumpConversion.CommandLine.Run
import DumpConversion.Database.PlainEngine
import DumpConversion.Proofs.CommandLine.Password
import DumpConversion.Proofs.Conversion.Secrecy

/-! # Nothing shown or written depends on the password

Two runs on the same disk whose command lines and environments differ at most in the password for
the source database end with the same exit code, output, message and disk, and start the same
programs with the same arguments and inputs, if these ignore the password. Only what a dump is told of
the password may differ.

* `Task.perform_alike`: what a task does and shows.
* `run_upToPassword`: the whole run.
-/

namespace DumpConversion.CommandLine

set_option autoImplicit false

open Procedure (Alike)

/-! ## Outcomes -/

/-- Two outcomes that cannot be told apart. -/
structure Outcome.LookAlike (o o' : Outcome) : Prop where
  code : o.code = o'.code
  stdout : o.stdout = o'.stdout
  message : o.message? = o'.message?

theorem Outcome.LookAlike.refl (o : Outcome) : o.LookAlike o := ⟨rfl, rfl, rfl⟩

/-! ## Tasks -/

theorem settingsReport_eq (json : Bool) {s s' : Settings} (h : s.UpToPassword s') :
    settingsReport json s = settingsReport json s' := by
  rw [settingsReport, settingsReport, h.masked]

section

variable [Platform]

theorem loadSettings_alike (config : Option Path) {o o' : Overrides} (h : o.UpToPassword o') :
    Alike Settings.UpToPassword (loadSettings config o) (loadSettings config o') := by
  intro m n hm
  refine ⟨?_, hm⟩
  simp only [loadSettings, ← hm.disk]
  exact Settings.load_upToPassword _ m.disk config hm.environment h

theorem performConvert_alike (hignores : Platform.IgnoresPassword) {s s' : Settings}
    (h : s.UpToPassword s') (target : Path) :
    Alike Eq (performConvert s target) (performConvert s' target) := by
  unfold performConvert
  rw [h.checkUsable]
  exact .bind_self (.check_self _) fun _ => convert_alike hignores h target

/-- Tasks that differ at most in the password show the same. -/
theorem Task.perform_alike (hignores : Platform.IgnoresPassword) (g : General) {t t' : Task}
    (h : t.UpToPassword t') : Alike Eq (t.perform g) (t'.perform g) := by
  have hconvert (target : Path) {o o' : Overrides} (ho : o.UpToPassword o') :
      Alike Eq (Task.perform g (.convert target o)) (Task.perform g (.convert target o')) := by
    refine .bind (loadSettings_alike g.config ho) fun s s' hs => ?_
    exact .bind_self (performConvert_alike hignores hs target) fun account => .pure rfl
  have hshow {o o' : Overrides} (ho : o.UpToPassword o') :
      Alike Eq (Task.perform g (.showSettings o)) (Task.perform g (.showSettings o')) := by
    refine .bind (loadSettings_alike g.config ho) fun s s' hs => ?_
    exact .pure (settingsReport_eq g.json hs)
  cases h with
  | convert target ho => exact hconvert target ho
  | showSettings ho => exact hshow ho
  | same =>
    cases t with
    | convert target o => exact hconvert target (.refl o)
    | showSettings o => exact hshow (.refl o)
    | showVersion => exact .pure rfl
    | sanitize input output encoding =>
      refine .bind (loadSettings_alike g.config (.refl _)) fun s s' hs => ?_
      obtain ⟨p, -, rfl⟩ := hs
      exact .bind_self (sanitizeInto_alike _ _ _) fun statistics => .pure rfl

/-! ## Runs -/

/-- What cannot be told apart from outside, on machines that differ at most in the password. -/
structure Run.UpToPassword (r r' : Run) : Prop where
  outcome : r.outcome.LookAlike r'.outcome
  machine : r.machine.UpToPassword r'.machine
  diagnostics : r.diagnostics = r'.diagnostics

theorem General.diagnostics_eq (g : General) {e f : Environment} (h : e.UpToPassword f) :
    g.diagnostics e = g.diagnostics f := by
  rw [General.diagnostics, General.diagnostics, streamFilter, streamFilter,
    h.others filterVariable (by decide)]

theorem runTask_upToPassword (hignores : Platform.IgnoresPassword) (g : General) {t t' : Task}
    (ht : t.UpToPassword t') {m n : Machine} (hm : m.UpToPassword n) :
    (runTask g t m).UpToPassword (runTask g t' n) := by
  unfold runTask
  rw [← hm.disk]
  cases openLog g m.disk with
  | error cause => exact ⟨.refl _, hm, rfl⟩
  | ok d =>
    obtain ⟨hvalue, hmachine⟩ := Task.perform_alike hignores g ht _ _ (hm.withDisk d)
    dsimp only
    rw [g.diagnostics_eq hm.environment]
    generalize t.perform g { m with disk := d } = x, t'.perform g { n with disk := d } = y
      at hvalue hmachine
    obtain ⟨r, m'⟩ := x
    obtain ⟨r', n'⟩ := y
    cases hvalue with
    | ok heq => exact ⟨heq ▸ .refl _, hmachine, rfl⟩
    | error heq => exact ⟨heq ▸ .refl _, hmachine, rfl⟩

end

/-- Runs that differ at most in the password cannot be told apart by their exit code, output,
message and disk, nor by the programs they start, except by the password that a dump is given. -/
theorem run_upToPassword [Platform] (hignores : Platform.IgnoresPassword) {words words' : List Text}
    (hwords : UpToPassword words words') {m n : Machine} (hm : m.UpToPassword n) :
    (run words m).UpToPassword (run words' n) := by
  have hread := Request.read_upToPassword hwords
  unfold run
  generalize Request.read words = r, Request.read words' = r' at hread
  cases hread with
  | error hfault => exact ⟨⟨rfl, rfl, congrArg (fun s => some s!"error: {s}") hfault⟩, hm, rfl⟩
  | ok hrequest =>
    cases hrequest with
    | task g ht => exact runTask_upToPassword hignores g ht hm
    | same =>
      rename_i request
      cases request with
      | programVersion => exact ⟨.refl _, hm, rfl⟩
      | help about => exact ⟨.refl _, hm, rfl⟩
      | task g t => exact runTask_upToPassword hignores g (.same t) hm

/-- A dump program that fails is told two different passwords; nothing else differs. -/
theorem run_upToPassword_of_failing_dump :
    let fails : Activity :=
      ⟨0, .exited 2, "denied".toList.map fun c => c.toNat.toUInt8, fun _ => ⟨[], []⟩⟩
    let _ : Platform := .plain fun _ _ _ => fails
    let words (p : String) : List Text := ["convert".toList, "shop.db".toList,
      "--database=shop".toList, "--mysqldump=/dump".toList, passwordWord p.toList]
    let m : Machine := ⟨⟨[(["dump".toList], .program ⟨[]⟩)], []⟩, [], []⟩
    Platform.IgnoresPassword ∧ UpToPassword (words "one") (words "two") ∧ m.UpToPassword m ∧
      (run (words "one") m).outcome.message? =
        some "Error: /dump failed (exit code 2): denied" ∧
      (run (words "one") m).machine.calls.map (·.password) = [some "one".toList] ∧
      (run (words "two") m).machine.calls.map (·.password) = [some "two".toList] ∧
      (run (words "one") m).UpToPassword (run (words "two") m) := by
  intro fails _ words m
  have hignores : Platform.IgnoresPassword := fun _ _ _ _ => rfl
  have hwords : UpToPassword (words "one") (words "two") := by
    refine ⟨?_, ?_⟩
    · refine .word (by decide) (.word (by decide) (.word (by decide) (.word (by decide) ?_)))
      exact .password (by decide) (.same [])
    · rintro ⟨part, rest, hread, hverb⟩
      have hconvert : readPart .front (words "one") =
          .ok ⟨[], some (.convert, (words "one").drop 1)⟩ := by decide +kernel
      cases hconvert.symm.trans hread
      cases hverb
  have hm : m.UpToPassword m := ⟨rfl, ⟨fun _ _ => rfl, .none⟩, .nil⟩
  refine ⟨hignores, hwords, hm, ?_, ?_, ?_, run_upToPassword hignores hwords hm⟩
  · decide +kernel
  · decide +kernel
  · decide +kernel

end DumpConversion.CommandLine
