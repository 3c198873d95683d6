import DumpConversion.CommandLine.Run
import DumpConversion.Database.PlainEngine
import Mathlib.Data.List.Count

/-! # Output flags

Three flags say how much a run shows and in which form. They have no part in the work: a run with
them in front does the same to the machine, fails with the same message, and prints the same unless
it is asked for JSON.

* `OutputWords`: words that give output flags, each flag by its name or by its letter.
* `WithoutOutputFlags`: a command line that gives none, neither before nor behind the command.
* `General.withFlags`, `Request.withFlags`: what flags in front change about a request.
* `Request.read_outputWords`: reading goes on behind the flags as without them.
* `Report`, `Task.work`: the work of a task, and what there is to show afterwards. How it is shown is
  settled when the work is done (`Task.perform_eq_work`).
* `run_outputWords`: the whole run.
-/

namespace DumpConversion

set_option autoImplicit false

/-! ## Steps in a row -/

namespace Procedure

variable {α β γ : Type}

theorem pure_bind (a : α) (f : α → Procedure β) : (pure a >>= f) = f a := rfl

theorem bind_assoc (a : Procedure α) (f : α → Procedure β) (g : β → Procedure γ) :
    (a >>= f) >>= g = a >>= fun v => f v >>= g := by
  funext m
  obtain ⟨r, n, ha⟩ : ∃ r n, a m = (r, n) := ⟨_, _, rfl⟩
  cases r with
  | ok v =>
    rw [bind_of_ok ha]
    obtain ⟨r, k, hf⟩ : ∃ r k, f v n = (r, k) := ⟨_, _, rfl⟩
    have hboth : (a >>= f) m = (r, k) := by rw [bind_of_ok ha, hf]
    cases r with
    | ok w => rw [bind_of_ok hboth, bind_of_ok hf]
    | error e => rw [bind_of_error hboth, bind_of_error hf]
  | error e => rw [bind_of_error (bind_of_error ha), bind_of_error ha]

end Procedure

namespace CommandLine

/-! ## Flags on a command line -/

/-- The flag says how much is shown, or in which form. -/
def Flag.isOutput : Flag → Bool
  | json | verbose | quiet => true
  | _ => false

/-- No output flag is mentioned. -/
def Silent (ms : List Mention) : Prop := ∀ f : Flag, f.isOutput = true → .flag f ∉ ms

/-- No output flag is mentioned in either part of the command line. -/
structure WithoutOutputFlags (words : List Text) : Prop where
  front : ∀ first, readPart .front words = .ok first → Silent first.mentions
  behind : ∀ first v rest second, readPart .front words = .ok first →
    first.verb = some (v, rest) → readPart (.after v) rest = .ok second → Silent second.mentions

/-- One word that gives output flags: the name of one, or the letters of several. -/
inductive OutputWord : Text → List Flag → Prop where
  | name {f : Flag} (h : f.isOutput = true) : OutputWord ('-' :: '-' :: f.long.toList) [f]
  | letters {f : Flag} {fs : List Flag} (h : ∀ g ∈ f :: fs, g = .verbose ∨ g = .quiet) :
    OutputWord ('-' :: (f :: fs).filterMap Flag.letter?) (f :: fs)

/-- Words that give output flags. -/
inductive OutputWords : List Text → List Flag → Prop where
  | nil : OutputWords [] []
  | cons {w : Text} {ws : List Text} {fs gs : List Flag} (h : OutputWord w fs)
    (hrest : OutputWords ws gs) : OutputWords (w :: ws) (fs ++ gs)

theorem OutputWord.isOutput {w : Text} {fs : List Flag} (h : OutputWord w fs) :
    ∀ f ∈ fs, f.isOutput = true := by
  cases h with
  | name h => simpa using h
  | letters h =>
    intro g hg
    rcases h g hg with rfl | rfl
    · rfl
    · rfl

theorem OutputWords.isOutput {ws : List Text} {fs : List Flag} (h : OutputWords ws fs) :
    ∀ f ∈ fs, f.isOutput = true := by
  induction h with
  | nil => exact fun _ hf => absurd hf List.not_mem_nil
  | cons hw _ ih =>
    intro f hf
    rcases List.mem_append.mp hf with hf | hf
    · exact hw.isOutput f hf
    · exact ih f hf

/-! ## Reading the flags -/

theorem verb?_of_dash (s : Text) : Vocabulary.front.verb? ('-' :: s) = none := by
  refine List.find?_eq_none.mpr fun w _ hw => ?_
  have hdash : w.name.toList.head? = some '-' := by rw [of_decide_eq_true hw]; rfl
  revert hdash
  cases w <;> decide

theorem readLetters_of_letters {fs : List Flag} (h : ∀ g ∈ fs, g = .verbose ∨ g = .quiet) :
    readLetters .front (fs.filterMap Flag.letter?) = .ok (fs.map .flag, none) := by
  induction fs with
  | nil => rfl
  | cons f fs ih =>
    obtain ⟨hf, hfs⟩ := List.forall_mem_cons.mp h
    rcases hf with rfl | rfl
    · change (readLetters .front (fs.filterMap Flag.letter?)).map
        (fun r => (.flag .verbose :: r.1, r.2)) = _
      rw [ih hfs]
      rfl
    · change (readLetters .front (fs.filterMap Flag.letter?)).map
        (fun r => (.flag .quiet :: r.1, r.2)) = _
      rw [ih hfs]
      rfl

/-- What a word that gives output flags is read as, and what it is not. -/
theorem OutputWord.readWord {w : Text} {fs : List Flag} (h : OutputWord w fs) :
    Vocabulary.front.verb? w = none ∧ w ≠ endOfOptions ∧
      readWord .front w = .ok (fs.map .flag, none) := by
  cases h with
  | @name f h =>
    refine ⟨verb?_of_dash _, ?_⟩
    revert h
    cases f <;> decide
  | @letters f fs h =>
    refine ⟨verb?_of_dash _, ?_⟩
    have hread := readLetters_of_letters h
    have hend {c : Char} {s : Text} (hc : c ≠ '-') : '-' :: c :: s ≠ endOfOptions := by
      intro heq
      exact hc (List.cons.inj (List.cons.inj heq).2).1
    rcases h f List.mem_cons_self with rfl | rfl
    · exact ⟨hend (c := 'v') (by decide), hread⟩
    · exact ⟨hend (c := 'q') (by decide), hread⟩

/-- Reading goes on behind output flags. -/
theorem any_endsReading_flags {fs : List Flag} (h : ∀ f ∈ fs, f.isOutput = true) :
    (fs.map Mention.flag).any Mention.endsReading = false := by
  rw [List.any_map, List.any_eq_false]
  intro f hf
  have hout := h f hf
  revert hout
  cases f <;> decide

/-- The flags are mentioned before what the other words mention. -/
theorem OutputWords.readWords {ws : List Text} {fs : List Flag} (h : OutputWords ws fs)
    {words : List Text} {part : Part} (hread : readWords .front words = .ok part) :
    readWords .front (ws ++ words) = .ok (part.after (fs.map .flag)) := by
  induction h with
  | nil => exact hread
  | @cons w ws fs gs hw hrest ih =>
    obtain ⟨hverb, hend, hword⟩ := hw.readWord
    rw [List.cons_append, CommandLine.readWords, hverb]
    simp only [if_neg hend, hword, any_endsReading_flags hw.isOutput, Bool.false_eq_true, if_false,
      ih, Except.map]
    rw [Part.after, Part.after, Part.after, List.map_append, List.append_assoc]

/-! ## Mentions behind flags -/

section Mentions

variable {fs : List Flag} {ms : List Mention}

theorem given?_flags (p : Parameter) : given? (fs.map .flag ++ ms) p = given? ms p := by
  induction fs with
  | nil => rfl
  | cons f fs ih => exact ih

theorem operands_flags : operands (fs.map .flag ++ ms) = operands ms := by
  induction fs with
  | nil => rfl
  | cons f fs ih => exact ih

theorem hasFlag_flags (f : Flag) :
    hasFlag (fs.map .flag ++ ms) f = (fs.contains f || hasFlag ms f) := by
  rw [Bool.eq_iff_iff]
  simp [hasFlag]

theorem hasFlag_flags_of_other (hout : ∀ f ∈ fs, f.isOutput = true) {f : Flag}
    (hf : f.isOutput = false) : hasFlag (fs.map .flag ++ ms) f = hasFlag ms f := by
  have hno : fs.contains f = false := by
    rw [Bool.eq_false_iff, Ne, List.contains_iff_mem]
    intro hmem
    rw [hout f hmem] at hf
    cases hf
  rw [hasFlag_flags, hno, Bool.false_or]

theorem count_flags (f : Flag) :
    (fs.map Mention.flag ++ ms).count (.flag f) = fs.count f + ms.count (.flag f) := by
  rw [List.count_append, List.count_map_of_injective fs Mention.flag (fun _ _ => Mention.flag.inj)]

/-- Flags that may stand together do not repeat anything in front of mentions without them. -/
theorem repeated?_flags (hout : ∀ f ∈ fs, f.isOutput = true) (hjson : fs.count .json ≤ 1)
    (hquiet : fs.count .quiet ≤ 1) (hms : Silent ms) :
    repeated? (fs.map .flag ++ ms) = repeated? ms := by
  induction fs with
  | nil => rfl
  | cons f fs ih =>
    obtain ⟨hf, hfs⟩ := List.forall_mem_cons.mp hout
    have hnone : (fs.map Mention.flag ++ ms).any (Mention.flag f).clashes = false := by
      rw [Bool.eq_false_iff, Ne, List.any_eq_true]
      rintro ⟨m, hm, hclash⟩
      cases m with
      | flag g =>
        obtain ⟨rfl, hverbose⟩ : f = g ∧ f ≠ .verbose := by simpa [Mention.clashes] using hclash
        have hmem : f ∈ fs := by
          rcases List.mem_append.mp hm with hm | hm
          · simpa using hm
          · exact absurd hm (hms f hf)
        have hcount := List.count_pos_iff.mpr hmem
        cases f with
        | json => rw [List.count_cons_self] at hjson; omega
        | quiet => rw [List.count_cons_self] at hquiet; omega
        | verbose => exact hverbose rfl
        | programVersion | help | noVerify | noRestore => cases hf
      | parameter p value => cases hclash
      | operand word => cases hclash
    rw [List.map_cons, List.cons_append, repeated?, hnone]
    exact ih hfs (Nat.le_trans List.count_le_count_cons hjson)
      (Nat.le_trans List.count_le_count_cons hquiet)

end Mentions

/-! ## Requests behind flags -/

/-- The general options with more flags. -/
def General.withFlags (fs : List Flag) (g : General) : General :=
  { g with
    json := fs.contains .json || g.json
    verbose := fs.count .verbose + g.verbose
    quiet := fs.contains .quiet || g.quiet }

/-- The request with more flags; the questions for help and for the version of the program have no
use for any. -/
def Request.withFlags (fs : List Flag) : Request → Request
  | .programVersion => .programVersion
  | .help about => .help about
  | .task g t => .task (g.withFlags fs) t

theorem bind_eq_ok_iff {ε α β : Type} {x : Except ε α} {f : α → Except ε β} {b : β} :
    (x >>= f) = .ok b ↔ ∃ a, x = .ok a ∧ f a = .ok b := by
  cases x with
  | ok a => simp [bind, Except.bind]
  | error e => simp [bind, Except.bind]

theorem General.ofMentions_flags {fs : List Flag} {ms : List Mention} {g : General}
    (h : General.ofMentions ms = .ok g) :
    General.ofMentions (fs.map .flag ++ ms) = .ok (g.withFlags fs) := by
  simp only [General.ofMentions, bind_eq_ok_iff] at h ⊢
  obtain ⟨config, hconfig, logFile, hlog, hg⟩ := h
  refine ⟨config, by rw [readGiven, given?_flags]; exact hconfig, logFile,
    by rw [readGiven, given?_flags]; exact hlog, ?_⟩
  cases hg
  rw [hasFlag_flags, hasFlag_flags, count_flags]
  rfl

theorem General.completedBy_withFlags {inner : General} (h : inner.verbose = 0) (outer : General)
    (fs : List Flag) :
    inner.completedBy (outer.withFlags fs) = (inner.completedBy outer).withFlags fs := by
  simp only [completedBy, withFlags, h, if_true, Bool.or_left_comm]

theorem General.verbose_of_silent {ms : List Mention} {g : General} (hms : Silent ms)
    (h : General.ofMentions ms = .ok g) : g.verbose = 0 := by
  simp only [General.ofMentions, bind_eq_ok_iff] at h
  obtain ⟨config, -, logFile, -, hg⟩ := h
  cases hg
  exact List.count_eq_zero.mpr (hms .verbose rfl)

theorem Request.ofMentions_withFlags {g : General} {v : Verb} {ms : List Mention} {r : Request}
    (h : Request.ofMentions g v ms = .ok r) (fs : List Flag) :
    Request.ofMentions (g.withFlags fs) v ms = .ok (r.withFlags fs) := by
  unfold Request.ofMentions at h ⊢
  cases hhelp : hasFlag ms .help with
  | true =>
    simp only [hhelp, if_true] at h ⊢
    split at h
    · cases h
      rfl
    · cases h
      rfl
    · cases h
  | false =>
    simp only [hhelp, Bool.false_eq_true, if_false] at h ⊢
    obtain ⟨t, htask, h⟩ := bind_eq_ok_iff.mp h
    cases h
    exact bind_eq_ok_iff.mpr ⟨t, htask, rfl⟩

/-- The command is asked for in the same way, with the flags in front of it. -/
theorem Request.ofVerb_withFlags {outer : General} {v : Verb} {rest : List Text} {r : Request}
    (hsilent : ∀ second, readPart (.after v) rest = .ok second → Silent second.mentions)
    (h : Request.ofVerb outer v rest = .ok r) (fs : List Flag) :
    Request.ofVerb (outer.withFlags fs) v rest = .ok (r.withFlags fs) := by
  unfold Request.ofVerb at h ⊢
  by_cases hv : v = .help
  · rw [if_pos hv] at h ⊢
    obtain ⟨about, htopic, h⟩ := bind_eq_ok_iff.mp h
    cases h
    exact bind_eq_ok_iff.mpr ⟨about, htopic, rfl⟩
  · rw [if_neg hv] at h ⊢
    obtain ⟨second, hsecond, h⟩ := bind_eq_ok_iff.mp h
    obtain ⟨inner, hinner, h⟩ := bind_eq_ok_iff.mp h
    refine bind_eq_ok_iff.mpr ⟨_, hsecond, bind_eq_ok_iff.mpr ⟨_, hinner, ?_⟩⟩
    have hverbose := General.verbose_of_silent (hsilent second hsecond) hinner
    rw [General.completedBy_withFlags hverbose]
    exact Request.ofMentions_withFlags h fs

/-- The part before the command mentions the flags, and then what it mentioned without them. -/
theorem readPart_outputWords {ws : List Text} {fs : List Flag} (hws : OutputWords ws fs)
    (hjson : fs.count .json ≤ 1) (hquiet : fs.count .quiet ≤ 1) {words : List Text} {first : Part}
    (hsilent : Silent first.mentions) (h : readPart .front words = .ok first) :
    readPart .front (ws ++ words) = .ok (first.after (fs.map .flag)) := by
  obtain ⟨part, hread, hrepeated⟩ := bind_eq_ok_iff.mp h
  obtain ⟨hclean, rfl⟩ : repeated? part.mentions = none ∧ part = first := by
    cases hclash : repeated? part.mentions with
    | none => exact ⟨rfl, by rw [hclash] at hrepeated; exact Except.ok.inj hrepeated⟩
    | some m => rw [hclash] at hrepeated; cases hrepeated
  refine bind_eq_ok_iff.mpr ⟨_, hws.readWords hread, ?_⟩
  rw [Part.after, repeated?_flags hws.isOutput hjson hquiet hsilent, hclean]
  rfl

/-- An accepted command line is read in the same way behind output flags, and asks for the same with
these flags. -/
theorem Request.read_outputWords {ws : List Text} {fs : List Flag} (hws : OutputWords ws fs)
    (hjson : fs.count .json ≤ 1) (hquiet : fs.count .quiet ≤ 1) {words : List Text}
    (hnone : WithoutOutputFlags words) {r : Request} (h : Request.read words = .ok r) :
    Request.read (ws ++ words) = .ok (r.withFlags fs) := by
  obtain ⟨first, hfirst, h⟩ := bind_eq_ok_iff.mp h
  obtain ⟨outer, houter, h⟩ := bind_eq_ok_iff.mp h
  obtain ⟨⟨⟩, hoperand, h⟩ := bind_eq_ok_iff.mp h
  have hpart := readPart_outputWords hws hjson hquiet (hnone.front first hfirst) hfirst
  refine bind_eq_ok_iff.mpr ⟨_, hpart, bind_eq_ok_iff.mpr ⟨_, General.ofMentions_flags houter, ?_⟩⟩
  refine bind_eq_ok_iff.mpr ⟨(), ?_, ?_⟩
  · rw [Part.after, Task.withoutOperand, operands_flags]
    exact hoperand
  have hsame (f : Flag) (hf : f.isOutput = false) :
      hasFlag (first.after (fs.map .flag)).mentions f = hasFlag first.mentions f :=
    hasFlag_flags_of_other hws.isOutput hf
  rw [hsame .programVersion rfl, hsame .help rfl]
  cases hversion : hasFlag first.mentions .programVersion with
  | true =>
    rw [hversion] at h
    cases h
    rfl
  | false =>
    cases hhelp : hasFlag first.mentions .help with
    | true =>
      rw [hversion, hhelp] at h
      cases h
      rfl
    | false =>
      rw [hversion, hhelp] at h
      have hverb : (first.after (fs.map .flag)).verb = first.verb := rfl
      rw [hverb]
      cases hcommand : first.verb with
      | none => rw [hcommand] at h; cases h
      | some found =>
        obtain ⟨v, rest⟩ := found
        rw [hcommand] at h
        exact Request.ofVerb_withFlags (hnone.behind first v rest · hfirst hcommand) h fs

/-! ## Work and display -/

/-- Two runs that end with the same exit code and message on the same machine, and with the same output
if `same` holds. -/
structure Run.AgreesBut (same : Prop) (r r' : Run) : Prop where
  code : r.outcome.code = r'.outcome.code
  message : r.outcome.message? = r'.outcome.message?
  machine : r.machine = r'.machine
  stdout : same → r.outcome.stdout = r'.outcome.stdout

/-- What there is to show after a task. -/
inductive Report where
  | converted (account : Account)
  | sanitized (input output : Path) (counts : Statistics)
  | settings (s : Settings)
  | version

/-- What is shown, in either form. -/
def Report.shown (json : Bool) : Report → Text
  | converted account => convertReport json account
  | sanitized input output counts => sanitizeReport json input output counts
  | settings s => settingsReport json s
  | version => versionReport json

section

variable [Platform]

/-- The work of a task, which knows of the general options no more than the document. -/
def Task.work (config : Option Path) : Task → Procedure Report
  | .convert target given => do
    let s ← loadSettings config given
    return .converted (← performConvert s target)
  | .sanitize input output encoding => do
    let s ← loadSettings config Overrides.none
    let result := output.getD input
    return .sanitized input result (← sanitizeInto input result (encoding.getD s.encoding))
  | .showSettings given => do
    return .settings (← loadSettings config given)
  | .showVersion => return .version

/-- The form is chosen when the work is done. -/
theorem Task.perform_eq_work (g : General) (t : Task) :
    t.perform g = t.work g.config >>= fun report => pure (report.shown g.json) := by
  cases t with
  | convert target given =>
    simp only [Task.perform, Task.work, Procedure.bind_assoc, Procedure.pure_bind]
    rfl
  | sanitize input output encoding =>
    simp only [Task.perform, Task.work, Procedure.bind_assoc, Procedure.pure_bind]
    rfl
  | showSettings given =>
    simp only [Task.perform, Task.work, Procedure.bind_assoc, Procedure.pure_bind]
    rfl
  | showVersion => rfl

/-! ## Runs -/

/-- Two requests for one task with one document and one log file do the same. -/
theorem runTask_agrees (g g' : General) (hconfig : g'.config = g.config)
    (hlog : g'.logFile = g.logFile) (t : Task) (m : Machine) :
    (runTask g' t m).AgreesBut (g'.json = g.json) (runTask g t m) := by
  have hopen : openLog g' m.disk = openLog g m.disk := by rw [openLog, openLog, hlog]
  rw [runTask, runTask, hopen]
  cases openLog g m.disk with
  | error cause => exact ⟨rfl, rfl, rfl, fun _ => rfl⟩
  | ok d =>
    simp only [Task.perform_eq_work, hconfig]
    obtain ⟨r, n, hwork⟩ : ∃ r n, t.work g.config { m with disk := d } = (r, n) := ⟨_, _, rfl⟩
    cases r with
    | ok report =>
      simp only [Procedure.bind_of_ok hwork, Procedure.pure_apply]
      exact ⟨rfl, rfl, rfl, fun hjson => by rw [hjson]⟩
    | error e =>
      simp only [Procedure.bind_of_error hwork]
      exact ⟨rfl, rfl, rfl, fun _ => rfl⟩

end

/-- Output flags in front of an accepted command line without any change neither the exit code nor
the message nor the machine, that is, the disk and the programs that were started. Without the flag
for JSON they do not change the output either. -/
theorem run_outputWords [Platform] {ws : List Text} {fs : List Flag} (hws : OutputWords ws fs)
    (hjson : fs.count .json ≤ 1) (hquiet : fs.count .quiet ≤ 1) {words : List Text}
    (haccepted : ∃ r, Request.read words = .ok r) (hnone : WithoutOutputFlags words)
    (m : Machine) : (run (ws ++ words) m).AgreesBut (.json ∉ fs) (run words m) := by
  obtain ⟨r, hr⟩ := haccepted
  simp only [run, hr, Request.read_outputWords hws hjson hquiet hnone hr]
  cases r with
  | programVersion => exact ⟨rfl, rfl, rfl, fun _ => rfl⟩
  | help about => exact ⟨rfl, rfl, rfl, fun _ => rfl⟩
  | task g t =>
    have hagrees := runTask_agrees g (g.withFlags fs) rfl rfl t m
    refine ⟨hagrees.code, hagrees.message, hagrees.machine, fun hno => hagrees.stdout ?_⟩
    have hcontains : fs.contains .json = false := by simpa using hno
    rw [General.withFlags, hcontains, Bool.false_or]

/-- A dump is sanitized in place, with its account as JSON and without; the account alone differs. -/
theorem run_outputWords_of_sanitize :
    let _ : Platform := .plain fun _ _ _ => .idle
    let words := ["sanitize".toList, "dump.sql".toList]
    let flags := ["--json".toList, "-vq".toList]
    let fs : List Flag := [.json, .verbose, .quiet]
    let dump := Content.ofText "USE shop;\n".toList
    let m : Machine := ⟨⟨[(["dump.sql".toList], .file dump)], []⟩, [], []⟩
    OutputWords flags fs ∧ WithoutOutputFlags words ∧ (run words m).outcome.code = 0 ∧
      (run (flags ++ words) m).AgreesBut (.json ∉ fs) (run words m) ∧
      (run (flags ++ words) m).outcome.stdout ≠ (run words m).outcome.stdout := by
  intro _ words flags fs dump m
  have hlong : OutputWord "--json".toList [.json] := @OutputWord.name .json rfl
  have hshort : OutputWord "-vq".toList [.verbose, .quiet] :=
    @OutputWord.letters .verbose [.quiet] (by decide)
  have hflags : OutputWords flags fs := .cons hlong (.cons hshort .nil)
  have hfront : readPart .front words =
      .ok ⟨[], some (.sanitize, ["dump.sql".toList])⟩ := by decide +kernel
  have hbehind : readPart (.after .sanitize) ["dump.sql".toList] =
      .ok ⟨[.operand "dump.sql".toList], none⟩ := by decide +kernel
  have hnone : WithoutOutputFlags words := by
    refine ⟨fun first hfirst => ?_, fun first v rest second hfirst hverb hsecond => ?_⟩
    · cases hfront.symm.trans hfirst
      exact fun _ _ => List.not_mem_nil
    · cases hfront.symm.trans hfirst
      cases hverb
      cases hbehind.symm.trans hsecond
      intro f _ hmem
      cases List.mem_singleton.mp hmem
  have haccepted : ∃ r, Request.read words = .ok r := ⟨_, by rfl⟩
  have hagrees := run_outputWords hflags (by decide) (by decide) haccepted hnone m
  exact ⟨hflags, hnone, by decide +kernel, hagrees, by decide +kernel⟩

end CommandLine
end DumpConversion
