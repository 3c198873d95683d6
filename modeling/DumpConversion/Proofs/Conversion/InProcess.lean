import DumpConversion.Conversion.Loading
import DumpConversion.Proofs.Dialect.Loading
import DumpConversion.Proofs.Disk.Aside

/-! # Loading into a new database

Where nothing is yet, loading a dump in one transaction makes a file with the database that the
statements of the dump lead to. What the engine is relied on for is that it executes the statements of
the target dialect and keeps the result.

* `Path.NamesDatabaseFile`: the paths that are taken for names of files.
* `Engine.Keeps`: the file at a path is found to be an intact database.
* `Engine.Handles`: what the engine is relied on for.
* `Engine.Handles.execute`, `Engine.Handles.load`: what holds of every statement holds of a script.
* `Disk.Names.databaseLocation`, `Engine.plain_handles`: the engine for plain tables goes where the
  system goes, and does what it is relied on for.
-/

namespace DumpConversion

set_option autoImplicit false

/-! ## The file of a database -/

/-- The path is taken for the name of a file: it neither asks for a database in memory nor is an
address with a scheme. -/
structure Path.NamesDatabaseFile (p : Path) : Prop where
  not_memory : p.text ∉ memoryNames
  no_scheme : ¬ "file:".toList <+: p.text

namespace Engine

/-! ## What the engine is relied on for -/

/-- The file at the path is found to be an intact database, and no step of its inspection fails. -/
structure Keeps (engine : Engine) (p : Path) (d : Disk) (k : Catalog) : Prop where
  isFile : d.isFile p = true
  shows : ∃ kind beside, engine.Shows kind beside p d (.intact k)
  serves : ∀ fault, ¬ engine.Fails p d fault

/-- On the given disks the engine makes a new database at the target, executes the statements of the
target dialect in it one after the other, and keeps what they lead to. What a session holds is up to
the engine. -/
structure Handles (engine : Engine) (target : Path) (on : Disk → Prop)
    (holds : Database → Session engine.Connection → Prop) : Prop where
  opens : target.NamesDatabaseFile → ∀ d, on d → ∃ connection d' s,
    engine.openWritable target d = (.ok connection, d') ∧
      engine.startTransaction ⟨connection, d'⟩ = (.ok (), s) ∧ holds .empty s
  blank : ∀ blank : Text, blank ⊆ ['\r', '\n'] → ∀ db s, holds db s →
    ∃ s', engine.execute blank s = (.ok (), s') ∧ holds db s'
  statement : ∀ blank text rest : Text, blank ⊆ ['\r', '\n'] → ∀ statement,
    Dialect.Says text statement → ∀ db db', db.execute statement = .ok db' → ∀ s, holds db s →
      ∃ s', engine.statement (blank ++ text ++ rest) s = (.ok (blank ++ text).length, s') ∧
        holds db' s'
  commit : ∀ (db : Database) (h : db.WellNamed), db.problems = [] → ∀ s, holds db s →
    ∃ s', engine.commit s = (.ok (), s') ∧ engine.Keeps target (engine.close s') (db.catalog h)

namespace Handles

variable {engine : Engine} {target : Path} {on : Disk → Prop}
variable {holds : Database → Session engine.Connection → Prop}
variable {script : Text} {statements : List Statement} {db db' : Database}

/-- A script is executed statement by statement, by induction on the statements still to come. -/
theorem execute (h : engine.Handles target on holds) (hscript : Dialect.Script script statements)
    (hexecute : db.executeAll statements = .ok db') {s : Session engine.Connection}
    (hs : holds db s) : ∃ s', engine.execute script s = (.ok (), s') ∧ holds db' s' := by
  induction hscript generalizing db s with
  | blank hblank =>
    cases hexecute
    exact h.blank _ hblank _ s hs
  | @cons blank text rest first statements hblank hfirst _ ih =>
    rw [Database.executeAll] at hexecute
    cases hstep : db.execute first with
    | error fault =>
      rw [hstep] at hexecute
      cases hexecute
    | ok next =>
      rw [hstep] at hexecute
      obtain ⟨s', hstatement, hs'⟩ :=
        h.statement blank text rest hblank first hfirst db next hstep s hs
      have htext : blank ++ text ≠ [] :=
        List.append_ne_nil_of_right_ne_nil blank hfirst.spells.ne_nil
      rw [engine.execute_eq, if_neg (List.append_ne_nil_of_left_ne_nil htext rest), hstatement]
      simp only
      rw [if_neg (mt List.length_eq_zero_iff.mp htext), List.drop_left]
      exact ih hexecute hs'

theorem load (h : engine.Handles target on holds) (hname : target.NamesDatabaseFile)
    (hscript : Dialect.Script script statements)
    (hexecute : Database.empty.executeAll statements = .ok db) (hnamed : db.WellNamed)
    (hintact : db.problems = []) {d : Disk} (hd : on d) :
    ∃ d', engine.load target script d = (.ok (), d') ∧
      engine.Keeps target d' (db.catalog hnamed) := by
  obtain ⟨connection, d1, s, hopen, hstart, hs⟩ := h.opens hname d hd
  obtain ⟨s', hscript, hs'⟩ := h.execute hscript hexecute hs
  obtain ⟨s'', hcommit, hkeeps⟩ := h.commit db hnamed hintact s' hs'
  exact ⟨engine.close s'', load_of_open hopen (transact_of_commit hstart hscript hcommit), hkeeps⟩

end Handles

end Engine

theorem loadInProcess_of_readText [Platform] {target dump : Path} {m : Machine} {script : Text}
    {r : Except Failure Unit} {d : Disk} (hdump : m.disk.readText dump = .ok script)
    (hload : Platform.engine.load target script m.disk = (r, d)) :
    loadInProcess target dump m = (r, { m with disk := d }) := by
  have hscript : (m.disk.readText dump).mapError Failure.io = .ok script := by
    rw [hdump]
    rfl
  rw [loadInProcess, Procedure.bind_of_ok (Procedure.disk_apply m),
    Procedure.bind_of_ok (Procedure.check_of_ok hscript m), Procedure.onDisk, hload]

/-! ## The engine for plain tables -/

namespace Disk

theorem eq_foldl_of_follow {d : Disk} {l k : Location} {pieces : List Text}
    (h : d.follow l pieces = .ok k) : k = pieces.foldl step l := by
  induction pieces generalizing l with
  | nil => exact (enter_eq_ok_iff.mp h).1
  | cons piece rest ih =>
    rw [follow] at h
    cases hl : d.enter l with
    | ok l' =>
      rw [hl] at h
      rw [List.foldl_cons, ← (enter_eq_ok_iff.mp hl).1]
      exact ih h
    | error e => rw [hl] at h; cases h

/-- A single dot leads nowhere, so that it may be left out. -/
theorem foldl_step_idle (l : Location) (pieces : List Text) :
    (pieces.filter fun piece => !Path.isIdle piece).foldl step l =
      (pieces.filter fun piece => !piece.isEmpty).foldl step l := by
  have hpiece (k : Location) (piece : Text) :
      (if (!Path.isIdle piece) = true then step k piece else k) =
        if (!piece.isEmpty) = true then step k piece else k := by
    by_cases hdot : piece = Path.dot
    · rw [hdot]
      exact (if_pos rfl).symm
    · simp [Path.isIdle, hdot]
  rw [List.foldl_filter, List.foldl_filter]
  simp only [hpiece]

variable {d : Disk} {p : Path} {l : Location}

theorem Names.databaseLocation (h : d.Names p l) (hp : p.NamesDatabaseFile) :
    d.databaseLocation p = some l := by
  obtain ⟨t, ht, hname, -, rfl⟩ := h
  obtain ⟨n, hn⟩ := Option.isSome_iff_exists.mp hname
  obtain ⟨hlast, -⟩ := Destination.location_of_name hn
  obtain ⟨-, directory, hfollow, rfl⟩ := locate_eq_ok_iff.mp ht
  have hsteps : Path.steps p.text = (Path.steps p.text).dropLast ++ [n] :=
    (List.dropLast_append_getLast? n hlast).symm
  rw [Disk.databaseLocation, if_neg (by simpa using hp.not_memory)]
  simp only
  rw [foldl_step_idle, ← Path.steps, hsteps, List.foldl_append, ← eq_foldl_of_follow hfollow,
    List.getLast?_concat]
  rfl

/-- A place that a path names is in a directory. -/
theorem Names.parent (h : d.Names p l) : d.find? l.dropLast = some .directory := by
  obtain ⟨t, ht, hname, -, rfl⟩ := h
  obtain ⟨n, hn⟩ := Option.isSome_iff_exists.mp hname
  obtain ⟨-, directory, hfollow, rfl⟩ := locate_eq_ok_iff.mp ht
  rw [(Destination.location_of_name hn).2.2.2, List.dropLast_concat]
  exact directory_of_follow hfollow

end Disk

namespace Engine

variable {target : Path} {on : Disk → Prop} {db db' : Database} {l : Location}

/-- The session is one with the database in the file at the target. -/
def HoldsAt (target : Path) (db : Database) (s : Session Engine.plain.Connection) : Prop :=
  IsTo (some db) s.connection ∧ ∃ l, s.connection.place = some l ∧ s.disk.Names target l ∧
    s.disk.find? l ≠ some .directory

theorem plain_opens (htarget : target.NamesDatabaseFile) {d : Disk} (hl : d.Names target l)
    (habsent : d.find? l = none) : ∃ connection d' s,
      Engine.plain.openWritable target d = (.ok connection, d') ∧
        Engine.plain.startTransaction ⟨connection, d'⟩ = (.ok (), s) ∧ HoldsAt target .empty s := by
  have hopen : d.openDatabase l = .ok (d.set l (.file .empty), .empty) := by
    rw [Disk.openDatabase, habsent]
    exact if_pos hl.parent
  have hwritable : Engine.plain.openWritable target d =
      (.ok (.ofContent (some l) .empty), d.set l (.file .empty)) :=
    PlainConnection.openWritable_of_opened (hl.databaseLocation htarget) hopen
  have hkeeps : d.KeepsDirectories (d.set l (.file .empty)) := .set (by simp [habsent]) _
  refine ⟨_, _, _, hwritable, rfl, rfl, l, rfl, hkeeps.names hl, ?_⟩
  rw [Disk.find?_set_self d l _ hl.ne_nil]
  simp

theorem plain_statement {blank text : Text} {statement : Statement}
    (hblank : ∀ c ∈ blank, SqlToken.isSqlBlank c = true) (hspells : Statement.Spells text statement)
    (rest : Text) {s : Session Engine.plain.Connection} (hs : IsTo (some db) s.connection)
    (hexecute : db.execute statement = .ok db') :
    Engine.plain.statement (blank ++ text ++ rest) s =
      (.ok (blank ++ text).length, PlainConnection.withContent s (.database db')) := by
  obtain ⟨ts, hlex, hscript, hread⟩ := hspells.lexStatement hblank rest
  have htokens : ts ≠ [] := by
    rintro rfl
    cases hread
  have hafter : PlainConnection.afterStatement s.connection.current ts = .ok (.database db') := by
    simp only [PlainConnection.afterStatement, if_neg htokens, show _ = some db from hs, hread,
      hexecute, Except.map]
  have hlength : (SqlToken.untilNul (blank ++ text ++ rest)).length -
      (SqlToken.untilNul rest).length = (blank ++ text).length := by
    rw [hscript, List.length_append, Nat.add_sub_cancel]
  simp only [Engine.plain, PlainConnection.statement, hlex, hafter, hlength]

theorem plain_blank {blank : Text} (hblank : ∀ c ∈ blank, SqlToken.isSqlBlank c = true)
    (s : Session Engine.plain.Connection) : Engine.plain.execute blank s = (.ok (), s) := by
  by_cases hempty : blank = []
  · rw [hempty]
    rfl
  · have hstatement : Engine.plain.statement blank s = (.ok blank.length, s) := by
      have hnone : PlainConnection.afterStatement s.connection.current [] =
          .ok s.connection.current := if_pos rfl
      simp only [Engine.plain, PlainConnection.statement, Statement.lexStatement_blank hblank, hnone,
        SqlToken.untilNul_eq_self (SqlToken.nulFree_blank hblank)]
      rfl
    rw [Engine.execute_eq, if_neg hempty, hstatement]
    simp only
    rw [if_neg (mt List.length_eq_zero_iff.mp hempty), List.drop_length]
    rfl

theorem plain_commit (htarget : target.NamesDatabaseFile) (hnamed : db.WellNamed)
    (hintact : db.problems = []) {s : Session Engine.plain.Connection} (hs : HoldsAt target db s) :
    ∃ s', Engine.plain.commit s = (.ok (), s') ∧
      Engine.plain.Keeps target (Engine.plain.close s') (db.catalog hnamed) := by
  obtain ⟨hdatabase, l, hplace, hl, hdir⟩ := hs
  refine ⟨PlainConnection.commit s, rfl, ?_⟩
  have hdisk : Engine.plain.close (PlainConnection.commit s) =
      s.disk.set l (.file s.connection.current) := by
    simp only [Engine.plain, PlainConnection.commit, hplace]
  have hread := ((Disk.KeepsDirectories.set hdir s.connection.current).names hl).read
    (Disk.find?_set_self s.disk l (.file s.connection.current) hl.ne_nil) rfl
  have hopens : (Engine.plain.close (PlainConnection.commit s)).Opens target db := by
    rw [hdisk]
    exact .file htarget.not_memory hread hdatabase
  exact ⟨hopens.isFile, ⟨_, [], plain_shows_intact hopens hnamed hintact []⟩,
    plain_not_fails hopens hnamed⟩

theorem isSqlBlank_of_ends {blank : Text} (h : blank ⊆ ['\r', '\n']) :
    ∀ c ∈ blank, SqlToken.isSqlBlank c = true := by
  intro c hc
  rcases List.mem_pair.mp (h hc) with rfl | rfl <;> rfl

theorem plain_handles (htarget : target.NamesDatabaseFile)
    (h : ∀ d, on d → (∃ l, d.writable target = .ok l) ∧ d.isPresent target = false) :
    Engine.plain.Handles target on (HoldsAt target) where
  opens _ d hd := by
    obtain ⟨⟨l, hl⟩, habsent⟩ := h d hd
    have hnames := (Disk.writable_eq_ok_iff.mp hl).1
    rw [hnames.isPresent, Option.isSome_eq_false_iff, Option.isNone_iff_eq_none] at habsent
    exact plain_opens htarget hnames habsent
  blank blank hblank db s hs := ⟨s, plain_blank (isSqlBlank_of_ends hblank) s, hs⟩
  statement blank text rest hblank statement hsays db db' hexecute s hs :=
    ⟨_, plain_statement (isSqlBlank_of_ends hblank) hsays.spells rest hs.1 hexecute, rfl, hs.2⟩
  commit db hnamed hintact s hs := plain_commit htarget hnamed hintact hs

/-! ## Databases in memory -/

/-- Statements change what a connection sees, and nothing else. -/
theorem plain_statement_keeps (script : Text) (s : Session Engine.plain.Connection) :
    (Engine.plain.statement script s).2.disk = s.disk ∧
      (Engine.plain.statement script s).2.connection.place = s.connection.place := by
  simp only [Engine.plain, PlainConnection.statement]
  split
  · exact ⟨rfl, rfl⟩
  · split <;> exact ⟨rfl, rfl⟩

theorem plain_executeUpTo_keeps (fuel : Nat) (script : Text) (s : Session Engine.plain.Connection) :
    (Engine.plain.executeUpTo fuel script s).2.disk = s.disk ∧
      (Engine.plain.executeUpTo fuel script s).2.connection.place = s.connection.place := by
  induction fuel generalizing script s with
  | zero => exact ⟨rfl, rfl⟩
  | succ fuel ih =>
    rw [executeUpTo]
    by_cases hempty : script = []
    · rw [if_pos hempty]
      exact ⟨rfl, rfl⟩
    · have hfirst := plain_statement_keeps script s
      obtain ⟨r, s', hstatement⟩ : ∃ r s', Engine.plain.statement script s = (r, s') := ⟨_, _, rfl⟩
      rw [hstatement] at hfirst
      rw [if_neg hempty, hstatement]
      cases r with
      | error fault => exact hfirst
      | ok taken =>
        by_cases htaken : taken = 0
        · simp only [if_pos htaken]
          exact hfirst
        · have hrest := ih (script.drop taken) s'
          simp only [if_neg htaken]
          exact ⟨hrest.1.trans hfirst.1, hrest.2.trans hfirst.2⟩

/-- A database in memory leaves nothing behind. -/
theorem plain_load_of_memory (h : target.text ∈ memoryNames) (script : Text) (d : Disk) :
    (Engine.plain.load target script d).2 = d := by
  have hopen : Engine.plain.openWritable target d = (.ok (.ofContent none .empty), d) := by
    have hnone : d.databaseLocation target = none := if_pos (by simpa using h)
    simp only [Engine.plain, PlainConnection.openWritable, hnone]
  obtain ⟨hdisk, hplace⟩ :=
    plain_executeUpTo_keeps script.length script ⟨.ofContent none .empty, d⟩
  obtain ⟨r, s, hexecute⟩ : ∃ r s,
      Engine.plain.execute script ⟨.ofContent none .empty, d⟩ = (r, s) := ⟨_, _, rfl⟩
  rw [← execute, hexecute] at hdisk hplace
  have hstart : Engine.plain.startTransaction ⟨.ofContent none .empty, d⟩ =
      (.ok (), ⟨.ofContent none .empty, d⟩) := rfl
  have hcommit : Engine.plain.commit s = (.ok (), PlainConnection.commit s) := rfl
  have hkept : (PlainConnection.commit s).disk = s.disk := by
    simp only [PlainConnection.commit, show s.connection.place = none from hplace]
  cases r with
  | error fault =>
    rw [load_of_open hopen (transact_of_execute_error hstart hexecute)]
    exact hdisk
  | ok u =>
    rw [load_of_open hopen (transact_of_commit hstart hexecute hcommit)]
    exact hkept.trans hdisk

end Engine

end DumpConversion
