import DumpConversion.Conversion.Dumping
import DumpConversion.Proofs.Conversion.Survival

/-! # Dumps that are complete or absent

The dump program prints into a neighbour of the dump file, and only a complete dump is moved over
the dump file. So a failure leaves the dump file as it was. The neighbour is removed after a failure
of the program, but not when the move itself is refused because no file can be at the dump path.

* `Disk.names_unfinished`, `Disk.location_unfinished_ne`: the place of the unfinished dump.
* `Disk.Underway`: between the start of the program and the move only the unfinished dump is new.
* `underway_of_run`: whatever the program does elsewhere.
* `dumpBy_atomic`: what a dump leaves at its two paths, whether it succeeds or fails.
-/

namespace DumpConversion

set_option autoImplicit false

/-! ## The place of the unfinished dump -/

namespace Path

theorem exists_steps_unfinished (p : Path) :
    ∃ front last, steps p.unfinished.text = front ++ [last ++ unfinishedEnding] ∧
      steps p.text = front ++ [last].filter fun piece => !piece.isEmpty := by
  have hslash : '/' ∉ unfinishedEnding := by decide
  obtain ⟨front, last, hp, hpart⟩ := Text.splitOn_append_of_not_mem hslash p.text
  refine ⟨front.filter fun piece => !piece.isEmpty, last, ?_, ?_⟩
  · rw [steps, unfinished_text, hpart, List.filter_append]
    refine congrArg _ (List.filter_cons_of_pos ?_)
    simp [unfinishedEnding]
  · rw [steps, hp, List.filter_append]

theorem isAbsolute_unfinished {p : Path} (h : p.text ≠ []) :
    p.unfinished.isAbsolute = p.isAbsolute := by
  obtain ⟨c, s, hs⟩ := List.exists_cons_of_ne_nil h
  rw [isAbsolute, isAbsolute, unfinished_text, hs]
  rfl

end Path

namespace Disk

theorem location_of_follow {d : Disk} {l k directory : Location} {pieces : List Text} {slash : Bool}
    (h : d.follow l pieces = .ok k) (hdirectory : d.follow l pieces.dropLast = .ok directory) :
    Destination.location ⟨directory, pieces.getLast?, slash⟩ = k := by
  rcases List.eq_nil_or_concat pieces with rfl | ⟨front, piece, rfl⟩
  · rw [List.dropLast_nil, h] at hdirectory
    cases hdirectory
    rfl
  · rw [List.concat_eq_append, List.dropLast_concat] at hdirectory
    have henter := enter_eq_ok_iff.mpr ⟨rfl, directory_of_follow hdirectory⟩
    rw [List.concat_eq_append, follow_append, hdirectory] at h
    simp only [follow, henter] at h
    rw [Destination.location, List.concat_eq_append, List.getLast?_concat]
    exact (enter_eq_ok_iff.mp h).1.symm

theorem step_ne_concat {l : Location} {piece n : Text} (h : n ≠ piece) :
    step l piece ≠ l ++ [n] := by
  intro hstep
  unfold step at hstep
  split at hstep
  · exact absurd hstep.symm (by simp)
  · split at hstep
    · have hlength := congrArg List.length hstep
      rw [List.length_dropLast, List.length_append, List.length_singleton] at hlength
      omega
    · exact h (List.cons.inj (List.append_cancel_left hstep)).1.symm

theorem name?_unfinished {directory : Location} {piece : Text} {slash : Bool} :
    (Destination.mk directory (some (piece ++ Path.unfinishedEnding)) slash).name? =
      some (piece ++ Path.unfinishedEnding) := by
  have hend : ∀ x : Text, x.getLast? ≠ some 't' → piece ++ Path.unfinishedEnding ≠ x := by
    rintro x hx rfl
    exact hx List.getLast?_append
  exact Option.filter_eq_some_iff.mpr
    ⟨rfl, by simp [hend Path.dot (by decide), hend Path.dots (by decide)]⟩

section

variable {d e : Disk} {dump : Path} {l k : Location} {x : Content}

/-- The path of an unfinished dump ends in a name, whatever that of the dump ends in. -/
theorem names_unfinished {t : Destination} (ht : d.locate dump.unfinished = .ok t) :
    d.Names dump.unfinished t.location := by
  obtain ⟨-, directory, -, rfl⟩ := locate_eq_ok_iff.mp ht
  obtain ⟨front, last, hpart, -⟩ := Path.exists_steps_unfinished dump
  refine ⟨_, ht, ?_, ?_, rfl⟩
  · rw [hpart, List.getLast?_concat, name?_unfinished]
    rfl
  · rw [Path.unfinished_text, List.getLast?_append]
    rfl

/-- The dump and the unfinished dump have different places. -/
theorem location_unfinished_ne {t u : Destination} (ht : d.locate dump = .ok t)
    (hu : d.locate dump.unfinished = .ok u) : u.location ≠ t.location := by
  obtain ⟨hdump, directory, hfollow, rfl⟩ := locate_eq_ok_iff.mp ht
  obtain ⟨-, directory', hfollow', rfl⟩ := locate_eq_ok_iff.mp hu
  obtain ⟨front, last, hpart, hsteps⟩ := Path.exists_steps_unfinished dump
  rw [Path.isAbsolute_unfinished hdump, hpart, List.dropLast_concat] at hfollow'
  rw [hpart, List.getLast?_concat, (Destination.location_of_name name?_unfinished).2.2.2]
  by_cases hlast : last = []
  · -- the path of the dump ends in a slash: the unfinished dump stands inside
    rw [hlast, List.filter_cons_of_neg (by simp), List.filter_nil, List.append_nil] at hsteps
    rw [hsteps] at hfollow ⊢
    rw [location_of_follow hfollow' hfollow, hlast]
    exact fun h => absurd (List.append_right_eq_self.mp h) (by decide)
  · rw [List.filter_cons_of_pos (by simpa using hlast), List.filter_nil] at hsteps
    rw [hsteps, List.dropLast_concat, hfollow'] at hfollow
    cases hfollow
    rw [hsteps, List.getLast?_concat]
    exact (step_ne_concat fun h => absurd (List.append_right_eq_self.mp h) (by decide)).symm

theorem not_isFile_unfinished (h : ∀ l, d.writable dump.unfinished ≠ .ok l) :
    d.isFile dump.unfinished = false := by
  rw [Bool.eq_false_iff]
  intro hfile
  obtain ⟨c, hread⟩ := isFile_iff.mp hfile
  obtain ⟨t, e, ht, -, he, hc⟩ := exists_of_read hread
  exact h _ ((names_unfinished ht).writable (not_directory_of_content he hc))

/-! ## Disks while a dump is made -/

/-- On the second disk a dump has been started that the first disk knows nothing of: a file is in the
place of the unfinished dump, and the dump is as it was. -/
structure Underway (dump : Path) (l : Location) (d e : Disk) : Prop where
  names : d.Names dump.unfinished l
  keeps : d.KeepsDirectories e
  file : ∃ c, e.find? l = some (.file c)
  dump : ∀ t, d.locate dump = .ok t → e.find? t.location = d.find? t.location

theorem Underway.names_after (h : d.Underway dump l e) : e.Names dump.unfinished l :=
  h.keeps.names h.names

theorem Underway.not_directory (h : d.Underway dump l e) : e.find? l ≠ some .directory := by
  obtain ⟨c, hc⟩ := h.file
  exact not_directory_of_content hc rfl

theorem Underway.location_ne (h : d.Underway dump l e) {t : Destination}
    (ht : d.locate dump = .ok t) : t.location ≠ l := by
  obtain ⟨u, hu, -, -, rfl⟩ := h.names
  exact (location_unfinished_ne ht hu).symm

theorem Underway.entry (h : d.Underway dump l e) :
    (e.entry dump).toOption = (d.entry dump).toOption := h.keeps.entry h.dump

theorem Underway.isFile (h : d.Underway dump l e) : e.isFile dump.unfinished = true := by
  obtain ⟨c, hc⟩ := h.file
  rw [h.names_after.isFile, hc]
  rfl

theorem underway_of_create (hcreate : d.create dump.unfinished x = .ok e) :
    ∃ l, d.Underway dump l e ∧ e = d.set l (.file x) := by
  cases hl : d.writable dump.unfinished with
  | error f =>
    rw [create, hl] at hcreate
    cases hcreate
  | ok l =>
    rw [create, hl] at hcreate
    cases hcreate
    obtain ⟨hnames, hdir⟩ := writable_eq_ok_iff.mp hl
    refine ⟨l, ⟨hnames, .set hdir x, ⟨x, find?_set_self d l _ hnames.ne_nil⟩, fun t ht => ?_⟩, rfl⟩
    obtain ⟨u, hu, -, -, rfl⟩ := hnames
    exact find?_set_of_ne d _ (location_unfinished_ne ht hu).symm

theorem Underway.set (h : d.Underway dump l e) (x : Content) :
    d.Underway dump l (e.set l (.file x)) where
  names := h.names
  keeps := h.keeps.trans (.set h.not_directory x)
  file := ⟨x, find?_set_self e l _ h.names.ne_nil⟩
  dump t ht := by rw [find?_set_of_ne e _ (h.location_ne ht), h.dump t ht]

/-- Files that are written elsewhere change neither of the two. -/
theorem Underway.changesOnly {paths : List Path} {f : Disk} (h : d.Underway dump l e)
    (hchange : e.ChangesOnly paths f)
    (hapart : ∀ p ∈ paths, ∀ q ∈ [dump, dump.unfinished], ¬ d.Overwrites p q) :
    d.Underway dump l f ∧ f.find? l = e.find? l := by
  have hsame : ∀ q ∈ [dump, dump.unfinished], ∀ t, e.locate q = .ok t →
      f.find? t.location = e.find? t.location := fun q hq t =>
    hchange.find?_of_not_overwrites fun p hp hover => hapart p hp q hq (h.keeps.overwrites hover)
  have hpart : f.find? l = e.find? l := by
    obtain ⟨t, ht, -, -, rfl⟩ := h.names_after
    exact hsame dump.unfinished (by simp) t ht
  refine ⟨⟨h.names, h.keeps.trans hchange.keepsDirectories, by rw [hpart]; exact h.file,
    fun t ht => ?_⟩, hpart⟩
  rw [hsame dump (by simp) t (h.keeps.locate ht), h.dump t ht]

/-- Once the unfinished dump has been removed, nothing has changed at the two paths but that. -/
theorem Underway.erase (h : d.Underway dump l e) :
    e.remove dump.unfinished = .ok (e.erase l) ∧
      ((e.erase l).entry dump).toOption = (d.entry dump).toOption ∧
      (e.erase l).isPresent dump.unfinished = false := by
  obtain ⟨c, hc⟩ := h.file
  have herase := KeepsDirectories.erase h.not_directory
  refine ⟨h.names_after.remove hc (by simp), ?_, ?_⟩
  · refine (h.keeps.trans herase).entry fun t ht => ?_
    rw [find?_erase_of_ne e (h.location_ne ht), h.dump t ht]
  · rw [(herase.names h.names_after).isPresent, find?_erase_self e l h.names.ne_nil]
    rfl

/-- A complete dump that can be moved takes the place of the dump. -/
theorem Underway.rename {f : Disk} (h : d.Underway dump l e) (hx : e.find? l = some (.file x))
    (hrename : e.rename dump.unfinished dump = .ok f) :
    f.read dump = .ok x ∧ f.isPresent dump.unfinished = false := by
  obtain ⟨k, hk, rfl⟩ := (h.names_after.rename_eq_ok_iff hx).mp hrename
  obtain ⟨hnames, hkdir⟩ := writable_eq_ok_iff.mp hk
  have hkl : k ≠ l := by
    obtain ⟨t, ht, -, -, rfl⟩ := hnames
    exact h.location_ne (h.keeps.symm.locate ht)
  have herase := KeepsDirectories.erase h.not_directory
  have hkeeps := herase.trans (KeepsDirectories.set (fun hdir => hkdir
    ((herase.directory_iff k).mp hdir)) x)
  constructor
  · exact (hkeeps.names hnames).read (find?_set_self _ k _ hnames.ne_nil) rfl
  · rw [(hkeeps.names h.names_after).isPresent, find?_set_of_ne _ _ hkl.symm,
      find?_erase_self e l h.names.ne_nil]
    rfl

theorem Underway.rename_refused {cause : IoError} (h : d.Underway dump l e)
    (hrename : e.rename dump.unfinished dump = .error cause) (k : Location) :
    d.writable dump ≠ .ok k := by
  intro hk
  obtain ⟨x, hx⟩ := h.file
  have hmoved := (h.names_after.rename_eq_ok_iff hx).mpr ⟨k, h.keeps.writable_iff.mpr hk, rfl⟩
  rw [hrename] at hmoved
  cases hmoved

/-! ## What the dump program does -/

theorem changesOnly_of_writes {paths : List Path} {ws : List (Path × Content)}
    (hws : ∀ w ∈ ws, w.1 ∈ paths) (d : Disk) :
    d.ChangesOnly paths (ws.foldl (fun d w => d.tryCreate w.1 w.2) d) := by
  induction ws generalizing d with
  | nil => exact changesOnly_refl paths d
  | cons w ws ih =>
    obtain ⟨hw, hws⟩ := List.forall_mem_cons.mp hws
    have hstep : d.ChangesOnly paths (d.tryCreate w.1 w.2) := by
      rw [tryCreate]
      cases hcreate : d.create w.1 w.2 with
      | ok e => exact changesOnly_of_create hw hcreate
      | error f => exact changesOnly_refl paths d
    exact hstep.trans (ih hws _)

end

theorem Underway.output {d e : Disk} {dump : Path} {l : Location} (h : d.Underway dump l e)
    (program : Path) (c : Connection) {done : Deeds}
    (hwrites : ∀ w ∈ done.writes, ∀ q ∈ [dump, dump.unfinished], ¬ d.Overwrites w.1 q) :
    d.Underway dump l ((dumpCommand program c dump.unfinished).output done e) ∧
      ((dumpCommand program c dump.unfinished).output done e).find? l =
        some (.file (.bytes done.stdout)) := by
  have hprinted : e.tryCreate dump.unfinished (.bytes done.stdout) =
      e.set l (.file (.bytes done.stdout)) := by
    rw [tryCreate, h.names_after.create h.not_directory]
    rfl
  have houtput : (dumpCommand program c dump.unfinished).output done e =
      done.writes.foldl (fun d w => d.tryCreate w.1 w.2) (e.set l (.file (.bytes done.stdout))) := by
    rw [← hprinted]
    rfl
  have hpaths : ∀ w ∈ done.writes, w.1 ∈ done.writes.map Prod.fst := fun w => List.mem_map_of_mem
  have hchange := changesOnly_of_writes hpaths (e.set l (.file (.bytes done.stdout)))
  obtain ⟨hunderway, hsame⟩ := (h.set (.bytes done.stdout)).changesOnly hchange fun q hq => by
    obtain ⟨w, hw, rfl⟩ := List.mem_map.mp hq
    exact hwrites w hw
  rw [houtput]
  exact ⟨hunderway, hsame.trans (find?_set_self e l _ h.names.ne_nil)⟩

end Disk

/-! ## Dumps -/

/-- Started once the unfinished dump has been made, the dump program does what the activity says. -/
def Dumping [Platform] (program : Path) (c : Connection) (dump : Path) (m : Machine)
    (a : Activity) : Prop :=
  ∃ d call, m.disk.create dump.unfinished .empty = .ok d ∧
    (dumpCommand program c dump.unfinished).start { m with disk := d } = .ok (call, a)

/-- At no time up to its end has the dump program written a file in the place of the dump or of the
unfinished dump. -/
def SparesDump [Platform] (program : Path) (c : Connection) (dump : Path) (m : Machine) : Prop :=
  ∀ a, Dumping program c dump m a → ∀ time ≤ a.milliseconds, ∀ w ∈ (a.deeds time).writes,
    ∀ q ∈ [dump, dump.unfinished], ¬ m.disk.Overwrites w.1 q

theorem Activity.done_of_in_time {a : Activity} {limit : Option Nat}
    (h : a.outlasts limit = false) : a.done limit = a.deeds a.milliseconds := by
  simp [done, h]

theorem Activity.exists_done (a : Activity) (limit : Option Nat) :
    ∃ time ≤ a.milliseconds, a.done limit = a.deeds time := by
  cases hlate : a.outlasts limit with
  | false => exact ⟨_, Nat.le_refl _, done_of_in_time hlate⟩
  | true =>
    cases limit with
    | none => cases hlate
    | some n => exact ⟨n, Nat.le_of_lt (of_decide_eq_true hlate), by simp [done, hlate]⟩

section

variable [Platform] {program dump : Path} {c : Connection} {limit : Option Nat} {m n : Machine}
variable {r : Except Failure Unit}

/-- However the program ends, only the unfinished dump is new; after a success it holds what the
program has printed. -/
theorem underway_of_run {l : Location} {d : Disk} (hd : m.disk.Underway dump l d)
    (hspares : ∀ call a,
      (dumpCommand program c dump.unfinished).start { m with disk := d } = .ok (call, a) →
        ∀ time ≤ a.milliseconds, ∀ w ∈ (a.deeds time).writes, ∀ q ∈ [dump, dump.unfinished],
          ¬ m.disk.Overwrites w.1 q)
    (hrun : (dumpCommand program c dump.unfinished).run limit { m with disk := d } = (r, n)) :
    m.disk.Underway dump l n.disk ∧ (r = .ok () → ∃ call a,
      (dumpCommand program c dump.unfinished).start { m with disk := d } = .ok (call, a) ∧
        n.disk.find? l = some (.file (.bytes (a.deeds a.milliseconds).stdout))) := by
  cases hstart : (dumpCommand program c dump.unfinished).start { m with disk := d } with
  | error cause =>
    rw [Command.run_of_missing hstart] at hrun
    cases hrun
    exact ⟨hd, nofun⟩
  | ok started =>
    obtain ⟨call, a⟩ := started
    have hafter : n = (dumpCommand program c dump.unfinished).finish call (a.done limit)
        { m with disk := d } := by
      rw [← Command.run_of_start hstart, hrun]
    obtain ⟨time, htime, hdone⟩ := a.exists_done limit
    have houtput := hd.output program c (hspares call a hstart time htime)
    rw [← hdone] at houtput
    rw [hafter]
    refine ⟨houtput.1, fun hr => ⟨call, a, rfl, ?_⟩⟩
    have hlimit : a.outlasts limit = false := by
      rw [Bool.eq_false_iff]
      intro hlate
      rw [Command.run, hstart] at hrun
      simp only [hlate, if_true] at hrun
      rw [hr] at hrun
      cases hrun
    rw [Activity.done_of_in_time hlimit]
    rw [Activity.done_of_in_time hlimit] at houtput
    exact houtput.2

theorem dumpBy_of_run {d : Disk} (hcreate : m.disk.create dump.unfinished .empty = .ok d)
    (hrun : (dumpCommand program c dump.unfinished).run limit { m with disk := d } = (.ok (), n)) :
    dumpBy program c limit dump m =
      Procedure.change (fun d => d.rename dump.unfinished dump) .io n := by
  rw [dumpBy, Procedure.bind_of_ok (Procedure.change_of_ok hcreate),
    Procedure.bind_of_ok (Procedure.orUndo_of_ok hrun)]

theorem dumpBy_of_run_error {d f : Disk} {e : Failure}
    (hcreate : m.disk.create dump.unfinished .empty = .ok d)
    (hrun : (dumpCommand program c dump.unfinished).run limit { m with disk := d } = (.error e, n))
    (hremove : n.disk.remove dump.unfinished = .ok f) :
    dumpBy program c limit dump m = (.error e, { n with disk := f }) := by
  rw [dumpBy, Procedure.bind_of_ok (Procedure.change_of_ok hcreate),
    Procedure.bind_of_error (Procedure.orUndo_of_error hrun), Procedure.attempt,
    Procedure.change_of_ok hremove]

/-- Whatever is at the dump path and at its neighbour before, and however the program ends: after a
success the dump file holds all that the program has printed and nothing is left of the unfinished
dump, and after a failure what was at the dump path is unchanged. An unfinished dump is then left in
one case only: the program has succeeded, and no file can be written at the dump path. -/
theorem dumpBy_atomic (hspares : SparesDump program c dump m)
    (hdump : dumpBy program c limit dump m = (r, n)) :
    (r = .ok () → (∃ a, Dumping program c dump m a ∧
        n.disk.read dump = .ok (.bytes (a.deeds a.milliseconds).stdout)) ∧
      n.disk.isPresent dump.unfinished = false) ∧
    ∀ e, r = .error e → (n.disk.entry dump).toOption = (m.disk.entry dump).toOption ∧
      (n.disk.isFile dump.unfinished = true ↔ (∀ l, m.disk.writable dump ≠ .ok l) ∧
        ∃ d, m.disk.create dump.unfinished .empty = .ok d ∧
          ((dumpCommand program c dump.unfinished).run limit { m with disk := d }).1 = .ok ()) := by
  cases hcreate : m.disk.create dump.unfinished .empty with
  | error e =>
    rw [dumpBy_of_unwritable hcreate] at hdump
    cases hdump
    have hfile : m.disk.isFile dump.unfinished = false := Disk.not_isFile_unfinished fun l hl => by
      rw [Disk.create, hl] at hcreate
      cases hcreate
    refine ⟨fun h => (by cases h), fun e he => ⟨rfl, ?_⟩⟩
    rw [hfile]
    simp
  | ok d =>
    obtain ⟨l, hunderway, -⟩ := Disk.underway_of_create hcreate
    obtain ⟨r1, n1, hrun⟩ : ∃ r1 n1, (dumpCommand program c dump.unfinished).run limit
      { m with disk := d } = (r1, n1) := ⟨_, _, rfl⟩
    obtain ⟨hafter, hprinted⟩ :=
      underway_of_run hunderway (fun call a h => hspares a ⟨d, call, hcreate, h⟩) hrun
    cases r1 with
    | error e1 =>
      obtain ⟨hremove, hentry, hpart⟩ := hafter.erase
      rw [dumpBy_of_run_error hcreate hrun hremove] at hdump
      cases hdump
      have hfile : (n1.disk.erase l).isFile dump.unfinished = false := by
        rw [Bool.eq_false_iff]
        intro hfile
        rw [Disk.isPresent_of_isFile hfile] at hpart
        cases hpart
      refine ⟨fun h => (by cases h), fun e he => ⟨hentry, ?_⟩⟩
      rw [hfile]
      simp [hrun]
    | ok u =>
      obtain ⟨call, a, hstart, hcontent⟩ := hprinted rfl
      rw [dumpBy_of_run hcreate hrun] at hdump
      cases hrename : n1.disk.rename dump.unfinished dump with
      | error cause =>
        rw [Procedure.change_of_error hrename] at hdump
        cases hdump
        refine ⟨fun h => (by cases h), fun e he => ⟨hafter.entry, iff_of_true hafter.isFile ?_⟩⟩
        exact ⟨hafter.rename_refused hrename, _, rfl, by rw [hrun]⟩
      | ok f =>
        rw [Procedure.change_of_ok hrename] at hdump
        cases hdump
        obtain ⟨hread, hpart⟩ := hafter.rename hcontent hrename
        exact ⟨fun _ => ⟨⟨a, ⟨d, call, hcreate, hstart⟩, hread⟩, hpart⟩, fun e he => by cases he⟩

end

/-- The program writes a log of its own, and its output takes the place of the previous dump. -/
theorem dumpBy_atomic_of_previous_dump :
    let done : Deeds := ⟨[1, 2], [(Path.ofString "log", .bytes [3])]⟩
    let _ : Platform := .plain fun _ _ _ => ⟨0, .exited 0, [], fun _ => done⟩
    let program := Path.ofString "./tool"
    let dump := Path.ofString "shop.sql"
    let m : Machine :=
      ⟨⟨[(["tool".toList], .program ⟨[]⟩), (["shop.sql".toList], .file (.bytes [7]))], []⟩, [], []⟩
    SparesDump program Connection.default dump m ∧ ∃ n,
      dumpBy program Connection.default none dump m = (.ok (), n) ∧
      n.disk.read dump = .ok (.bytes [1, 2]) ∧ n.disk.isPresent dump.unfinished = false := by
  intro done platform program dump m
  have honly : ∀ a, Dumping program Connection.default dump m a →
      a = ⟨0, .exited 0, [], fun _ => done⟩ := by
    rintro a ⟨d, call, hcreate, hstart⟩
    cases hcreate
    cases hstart
    rfl
  have hlog : m.disk.Names (Path.ofString "log") ["log".toList] := ⟨_, rfl, rfl, rfl, rfl⟩
  have hdump : m.disk.Names dump ["shop.sql".toList] := ⟨_, rfl, rfl, rfl, rfl⟩
  have hpart : m.disk.Names dump.unfinished ["shop.sql.part".toList] := ⟨_, rfl, rfl, rfl, rfl⟩
  have hspares : SparesDump program Connection.default dump m := by
    intro a ha time _ w hw
    rw [honly a ha] at hw
    rw [List.mem_singleton.mp hw, List.forall_mem_cons, List.forall_mem_singleton]
    exact ⟨hlog.not_overwrites hdump (by decide), hlog.not_overwrites hpart (by decide)⟩
  obtain ⟨n, hn⟩ : ∃ n, dumpBy program Connection.default none dump m = (.ok (), n) := ⟨_, rfl⟩
  obtain ⟨⟨a, ha, hread⟩, habsent⟩ := (dumpBy_atomic hspares hn).1 rfl
  rw [honly a ha] at hread
  exact ⟨hspares, n, hn, hread, habsent⟩

/-- The program succeeds, and a directory stands at the dump path: the dump is refused, and the
unfinished dump stays. -/
theorem dumpBy_leaves_unfinished :
    let done : Deeds := ⟨Utf8.encode ['x'], []⟩
    let _ : Platform := .plain fun _ _ _ => ⟨0, .exited 0, [], fun _ => done⟩
    ¬ ∀ (program dump : Path) (c : Connection) (limit : Option Nat) (m n : Machine) (e : Failure),
      SparesDump program c dump m → dumpBy program c limit dump m = (.error e, n) →
        n.disk.isFile dump.unfinished = false := by
  intro done platform h
  let program := Path.ofString "../bin/mysqldump"
  let dump := Path.ofString "dump.sql"
  let m : Machine :=
    ⟨⟨[(["bin".toList], .directory), (["bin".toList, "mysqldump".toList], .program ⟨[]⟩),
      (["work".toList], .directory), (["work".toList, "dump.sql".toList], .directory)],
      ["work".toList]⟩, [], []⟩
  have hspares : SparesDump program Connection.default dump m := by
    rintro a ⟨d, call, hcreate, hstart⟩ time - w hw
    cases hcreate
    cases hstart
    cases hw
  obtain ⟨n, hn, hpart⟩ : ∃ n, dumpBy program Connection.default none dump m =
      (.error (.io .isDirectory), n) ∧ n.disk.isFile dump.unfinished = true := ⟨_, rfl, rfl⟩
  rw [h program dump Connection.default none m n _ hspares hn] at hpart
  cases hpart

end DumpConversion
