import DumpConversion.Conversion.Inspection
import DumpConversion.Database.PlainEngine
import DumpConversion.Proofs.Disk.Places

/-! # Inspections only read

An engine may keep files beside a database that it reads, and leave them there: a log, or an index of
one. An inspection changes no more than that, however it ends.

* `Engine.Reading`: sessions in which an inspection changes nothing but the files beside the database.
* `Engine.OpensAs`, `Engine.ReadsBeside`: opening a database for reading leads to such sessions.
* `Engine.Reading.inventory`, `Engine.OpensAs.inspect_changesOnly`: what holds of every query holds of
  an inspection.
-/

namespace DumpConversion

set_option autoImplicit false

namespace Engine

/-- In the sessions of this kind neither the queries of an inspection nor the end of the session
change anything but the given files, and the session stays one of its kind. -/
structure Reading (engine : Engine) (kind : Session engine.Connection → Prop)
    (beside : List Path) : Prop where
  rows : ∀ query ∈ [integrityQuery, tablesQuery], ∀ s, kind s →
    kind (engine.rows query s).2 ∧ s.disk.ChangesOnly beside (engine.rows query s).2.disk
  count : ∀ name s, kind s → kind (engine.count (countQuery name) s).2 ∧
    s.disk.ChangesOnly beside (engine.count (countQuery name) s).2.disk
  close : ∀ s, kind s → s.disk.ChangesOnly beside (engine.close s)

/-- The file at the path is opened for reading in a session of this kind, if it can be opened. -/
structure OpensAs (engine : Engine) (kind : Session engine.Connection → Prop) (beside : List Path)
    (p : Path) (d : Disk) : Prop where
  changes : d.ChangesOnly beside (engine.openReadOnly p d).2
  kind : ∀ connection d', engine.openReadOnly p d = (.ok connection, d') → kind ⟨connection, d'⟩

/-- Whoever opens the file at the path for reading and inspects it changes nothing but the given
files. -/
def ReadsBeside (engine : Engine) (p : Path) (beside : List Path) : Prop :=
  ∃ kind, engine.Reading kind beside ∧ ∀ d, engine.OpensAs kind beside p d

variable {engine : Engine} {kind : Session engine.Connection → Prop} {beside : List Path}
variable {p : Path} {d : Disk} {s s' : Session engine.Connection}

/-! ## Sessions -/

namespace Reading

theorem rows_eq {query : Text} {answer : Answer} (h : engine.Reading kind beside)
    (hquery : query ∈ [integrityQuery, tablesQuery]) (hs : kind s)
    (hrows : engine.rows query s = (answer, s')) :
    kind s' ∧ s.disk.ChangesOnly beside s'.disk := by
  have hkind := h.rows query hquery s hs
  rwa [hrows] at hkind

theorem count_eq {name : Text} {r : Except DatabaseFault Int} (h : engine.Reading kind beside)
    (hs : kind s) (hcount : engine.count (countQuery name) s = (r, s')) :
    kind s' ∧ s.disk.ChangesOnly beside s'.disk := by
  have hkind := h.count name s hs
  rwa [hcount] at hkind

theorem countTables (h : engine.Reading kind beside) (names : List Text) (hs : kind s) :
    kind (engine.countTables names s).2 ∧
      s.disk.ChangesOnly beside (engine.countTables names s).2.disk := by
  induction names generalizing s with
  | nil => exact ⟨hs, Disk.changesOnly_refl beside s.disk⟩
  | cons name names ih =>
    obtain ⟨r, s', hcount⟩ : ∃ r s', engine.count (countQuery name) s = (r, s') := ⟨_, _, rfl⟩
    have hfirst := h.count_eq hs hcount
    rw [Engine.countTables, hcount]
    cases r with
    | error fault => exact hfirst
    | ok rows =>
      have hrest := ih hfirst.1
      obtain ⟨r, s'', hcounts⟩ : ∃ r s'', engine.countTables names s' = (r, s'') := ⟨_, _, rfl⟩
      rw [hcounts] at hrest
      simp only [hcounts]
      cases r <;> exact ⟨hrest.1, hfirst.2.trans hrest.2⟩

theorem listTables (h : engine.Reading kind beside) (hs : kind s) :
    kind (engine.listTables s).2 ∧ s.disk.ChangesOnly beside (engine.listTables s).2.disk := by
  obtain ⟨⟨names, end?⟩, s', hrows⟩ : ∃ a s', engine.rows tablesQuery s = (a, s') := ⟨_, _, rfl⟩
  have hfirst := h.rows_eq (by simp) hs hrows
  have hcounted := h.countTables names hfirst.1
  obtain ⟨r, s'', hcounts⟩ : ∃ r s'', engine.countTables names s' = (r, s'') := ⟨_, _, rfl⟩
  rw [hcounts] at hcounted
  have hboth : kind s'' ∧ s.disk.ChangesOnly beside s''.disk :=
    ⟨hcounted.1, hfirst.2.trans hcounted.2⟩
  cases r with
  | error fault =>
    rw [listTables_of_count_error hrows hcounts]
    exact hboth
  | ok counts =>
    cases end? with
    | some fault =>
      rw [listTables_of_fault hrows hcounts]
      exact hboth
    | none =>
      rw [listTables_of_answer hrows hcounts]
      exact hboth

theorem inventory (h : engine.Reading kind beside) (p : Path) (hs : kind s) :
    kind (engine.inventory p s).2 ∧ s.disk.ChangesOnly beside (engine.inventory p s).2.disk := by
  obtain ⟨⟨lines, end?⟩, s', hrows⟩ : ∃ a s', engine.rows integrityQuery s = (a, s') := ⟨_, _, rfl⟩
  have hfirst := h.rows_eq (by simp) hs hrows
  cases end? with
  | some fault =>
    rw [inventory_of_check_error p (check_of_fault hrows)]
    exact hfirst
  | none =>
    have hcheck := check_of_answer hrows
    by_cases hlines : lines = [intactAnswer]
    · subst hlines
      have hlisted := h.listTables hfirst.1
      obtain ⟨r, s'', hlist⟩ : ∃ r s'', engine.listTables s' = (r, s'') := ⟨_, _, rfl⟩
      rw [hlist] at hlisted
      have hboth := And.intro hlisted.1 (hfirst.2.trans hlisted.2)
      cases r with
      | error fault =>
        rw [inventory_of_list_error p hcheck hlist]
        exact hboth
      | ok counts =>
        rw [inventory_of_list p hcheck hlist]
        exact hboth
    · rw [inventory_of_report p hcheck hlines]
      exact hfirst

end Reading

/-! ## Inspections -/

theorem OpensAs.inspect_changesOnly (hopens : engine.OpensAs kind beside p d)
    (h : engine.Reading kind beside) : d.ChangesOnly beside (engine.inspect p d).2 := by
  cases hfile : d.isFile p with
  | false =>
    rw [engine.inspect_of_missing hfile]
    exact Disk.changesOnly_refl beside d
  | true =>
    have hchange := hopens.changes
    obtain ⟨r, d', hopen⟩ : ∃ r d', engine.openReadOnly p d = (r, d') := ⟨_, _, rfl⟩
    rw [hopen] at hchange
    cases r with
    | error fault =>
      rw [inspect_of_open_error hfile hopen]
      exact hchange
    | ok connection =>
      have hinventory := h.inventory p (hopens.kind connection d' hopen)
      rw [inspect_of_open hfile hopen]
      exact (hchange.trans hinventory.2).trans (h.close _ hinventory.1)

theorem ReadsBeside.inspect (h : engine.ReadsBeside p beside) (d : Disk) :
    d.ChangesOnly beside (engine.inspect p d).2 := by
  obtain ⟨kind, hreading, hopens⟩ := h
  exact (hopens d).inspect_changesOnly hreading

/-! ## The engine for plain tables -/

theorem plain_reading (kind : PlainConnection → Prop) (beside : List Path) :
    Engine.plain.Reading (fun s => kind s.connection) beside where
  rows _ _ s hs := ⟨hs, Disk.changesOnly_refl beside s.disk⟩
  count _ s hs := ⟨hs, Disk.changesOnly_refl beside s.disk⟩
  close s _ := Disk.changesOnly_refl beside s.disk

theorem plain_openReadOnly_disk (p : Path) (d : Disk) : (Engine.plain.openReadOnly p d).2 = d := by
  simp only [Engine.plain, PlainConnection.openReadOnly]
  split
  · rfl
  · split <;> rfl

theorem plain_opensAs (kind : PlainConnection → Prop) (beside : List Path)
    (h : ∀ connection, (Engine.plain.openReadOnly p d).1 = .ok connection → kind connection) :
    Engine.plain.OpensAs (fun s => kind s.connection) beside p d where
  changes := by
    rw [plain_openReadOnly_disk]
    exact Disk.changesOnly_refl beside d
  kind connection d' hopen := h connection (congrArg Prod.fst hopen)

theorem plain_readsBeside (p : Path) (beside : List Path) : Engine.plain.ReadsBeside p beside :=
  ⟨_, plain_reading (fun _ => True) beside, fun _ => plain_opensAs _ beside fun _ _ => trivial⟩

/-- An empty file is a database without tables, unless its name stands for one in memory. -/
theorem plain_inspect_of_empty (hname : memoryNames.contains p.text = false)
    (h : d.read p = .ok .empty) : Engine.plain.inspect p d = (.ok ⟨intactAnswer, []⟩, d) := by
  have hopen : Engine.plain.openReadOnly p d = (.ok (.ofContent none .empty), d) := by
    simp only [Engine.plain, PlainConnection.openReadOnly, hname, h, Bool.false_eq_true, if_false]
  let s : Session Engine.plain.Connection := ⟨.ofContent none .empty, d⟩
  have hcheck : Engine.plain.check s = (.ok [intactAnswer], s) := rfl
  have hrows : Engine.plain.rows tablesQuery s = (⟨[], none⟩, s) := by
    have hnames : Database.empty.listedNames = [] := by simp [Database.listedNames, tables_empty]
    have hanswer : Database.empty.answer tablesQuery = ⟨[], none⟩ := by
      rw [Database.answer, if_neg (by decide), if_pos rfl, hnames]
    exact congrArg (fun a => (a, s)) hanswer
  have hlist : Engine.plain.listTables s = (.ok [], s) := listTables_of_answer hrows rfl
  rw [inspect_of_open (Disk.isFile_iff.mpr ⟨_, h⟩) hopen, inventory_of_list p hcheck hlist]
  rfl

end Engine

end DumpConversion
