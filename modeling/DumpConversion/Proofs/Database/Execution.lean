import Mathlib.Logic.Basic
import DumpConversion.Database.Execution

/-! # Executing the statements of tables

Tables made one after the other, each followed by its rows, are what the database holds in the end.

* `Table.statements`: the statements that make a table and fill it.
* `Table.Makeable`: nothing in a table keeps its statements from being executed.
* `Database.Step`: the change that a statement makes.
* `Database.executeAll_tables`: the database after the statements of some tables.
-/

namespace DumpConversion

set_option autoImplicit false

/-! ## Statements of a table -/

namespace Table

/-- The statements that make the table and fill it row by row. -/
def statements (t : Table) : List Statement :=
  .createTable t.name t.columns :: t.rows.map (.insert t.name)

/-- The row has a value for every column, and no null where one is required. -/
structure Fits (columns : List Column) (row : List Value) : Prop where
  width : row.length = columns.length
  filled : ∀ cell ∈ columns.zip row, cell.1.required = true → cell.2 ≠ .null

/-- Nothing in the table itself keeps its statements from being executed. -/
structure Makeable (t : Table) : Prop where
  name : protectedStart.isPrefixOf (foldCase t.name) = false
  columns : repeatedName? (t.columns.map Column.name) = none
  rows : ∀ row ∈ t.rows, Fits t.columns row

theorem not_refused_iff {cell : Column × Value} :
    ¬ (cell.1.required && cell.2 == Value.null) = true ↔
      (cell.1.required = true → cell.2 ≠ .null) := by
  rw [Bool.and_eq_true, beq_iff_eq, not_and]

theorem Makeable.problems {t : Table} (h : t.Makeable) : t.problems = [] := by
  rw [Table.problems, List.flatMap_eq_nil_iff]
  intro row hrow
  rw [List.filterMap_eq_nil_iff]
  exact fun cell hcell => if_neg (not_refused_iff.mpr ((h.rows row hrow).filled cell hcell))

end Table

theorem repeatedName?_eq_none_iff {names : List Text} :
    repeatedName? names = none ↔ (names.map foldCase).Nodup := by
  induction names with
  | nil => exact iff_of_true rfl List.nodup_nil
  | cons n names ih =>
    rw [List.map_cons, List.nodup_cons, ← ih]
    by_cases hn : foldCase n ∈ names.map foldCase
    · have hfound : repeatedName? (n :: names) = some n := if_pos hn
      rw [hfound]
      exact iff_of_false nofun fun h => h.1 hn
    · have hnext : repeatedName? (n :: names) = repeatedName? names := if_neg hn
      rw [hnext]
      exact (and_iff_right hn).symm

namespace Database

theorem mem_tables {d : Database} {t : Table} : t ∈ d.tables ↔ .table t ∈ d.objects := by
  rw [tables, List.mem_filterMap]
  constructor
  · rintro ⟨o, ho, hto⟩
    cases o with
    | table u => cases hto; exact ho
    | view n => cases hto
  · exact fun ht => ⟨.table t, ht, rfl⟩

theorem refusedNull?_eq_none_iff {columns : List Column} {row : List Value} :
    refusedNull? columns row = none ↔
      ∀ cell ∈ columns.zip row, cell.1.required = true → cell.2 ≠ .null := by
  rw [refusedNull?, Option.map_eq_none_iff, List.find?_eq_none]
  exact forall₂_congr fun _ _ => Table.not_refused_iff

/-! ## One statement -/

/-- No object has the name, whatever the case. -/
def Lacks (objects : List SchemaObject) (name : Text) : Prop :=
  ∀ o ∈ objects, foldCase o.name ≠ foldCase name

/-- No two objects share a name, whatever the case. -/
def NamesApart (d : Database) : Prop := (d.objects.map fun o => foldCase o.name).Nodup

instance (d : Database) : Decidable d.NamesApart :=
  inferInstanceAs (Decidable (d.objects.map fun o => foldCase o.name).Nodup)

/-- What a statement does where it succeeds. -/
inductive Step : Database → Statement → Database → Prop where
  | create {objects : List SchemaObject} {name : Text} {columns : List Column}
      (unprotected : ¬ protectedStart <+: foldCase name) (lacks : Lacks objects name)
      (distinct : (columns.map fun c => foldCase c.name).Nodup) :
      Step ⟨objects⟩ (.createTable name columns) ⟨objects ++ [.table ⟨name, columns, []⟩]⟩
  | insert {before after : List SchemaObject} {name : Text} {t : Table} {row : List Value}
      (named : foldCase t.name = foldCase name) (lacks : Lacks (before ++ after) name)
      (fits : Table.Fits t.columns row) :
      Step ⟨before ++ .table t :: after⟩ (.insert name row)
        ⟨before ++ .table { t with rows := t.rows ++ [row] } :: after⟩

variable {objects before after : List SchemaObject} {name : Text} {t : Table} {row : List Value}

theorem lacks_append : Lacks (before ++ after) name ↔ Lacks before name ∧ Lacks after name :=
  List.forall_mem_append

theorem find?_eq_none_iff : (Database.mk objects).find? name = none ↔ Lacks objects name := by
  rw [find?, List.find?_eq_none]
  exact forall₂_congr fun _ _ => decide_eq_true_iff.not

theorem find?_of_split (hname : foldCase t.name = foldCase name) (h : Lacks before name) :
    (Database.mk (before ++ .table t :: after)).find? name = some (.table t) := by
  have hnone := find?_eq_none_iff.mpr h
  rw [find?] at hnone ⊢
  rw [List.find?_append, hnone]
  simp [SchemaObject.name, hname]

theorem Lacks.map_addRow (h : Lacks objects name) (row : List Value) :
    objects.map (SchemaObject.addRow name row) = objects := by
  induction objects with
  | nil => rfl
  | cons o objects ih =>
    obtain ⟨ho, hobjects⟩ := List.forall_mem_cons.mp h
    have hkept : o.addRow name row = o := by
      cases o with
      | view n => rfl
      | table t => exact if_neg ho
    rw [List.map_cons, hkept, ih hobjects]

theorem Step.execute {d e : Database} {s : Statement} (h : d.Step s e) : d.execute s = .ok e := by
  cases h with
  | @create objects name columns hstart hlacks hdistinct =>
    have hprotected : protectedStart.isPrefixOf (foldCase name) = false := by
      rwa [Bool.eq_false_iff, Ne, List.isPrefixOf_iff_prefix]
    have hcolumns : repeatedName? (columns.map Column.name) = none := by
      rw [repeatedName?_eq_none_iff, List.map_map]
      exact hdistinct
    rw [Database.execute, createTable, if_neg (by simp [hprotected]),
      if_neg (by simp [find?_eq_none_iff.mpr hlacks]), hcolumns]
  | @insert before after name t row hname hlacks hfits =>
    obtain ⟨hbefore, hafter⟩ := lacks_append.mp hlacks
    have hrow : SchemaObject.addRow name row (.table t) =
        .table { t with rows := t.rows ++ [row] } := if_pos hname
    rw [Database.execute, Database.insert, find?_of_split hname hbefore]
    simp only [Option.bind_some, SchemaObject.table?]
    rw [if_neg (not_not_intro hfits.width), refusedNull?_eq_none_iff.mpr hfits.filled,
      List.map_append, List.map_cons, hbefore.map_addRow, hafter.map_addRow, hrow]

/-! ## One table -/

theorem execute_createTable (h : Lacks objects t.name) (ht : t.Makeable) :
    (Database.mk objects).execute (.createTable t.name t.columns) =
      .ok ⟨objects ++ [.table { t with rows := [] }]⟩ := by
  have hdistinct := repeatedName?_eq_none_iff.mp ht.columns
  rw [List.map_map] at hdistinct
  refine (Step.create ?_ h hdistinct).execute
  rw [← List.isPrefixOf_iff_prefix, ht.name]
  exact Bool.false_ne_true

theorem execute_insert (h : Lacks objects t.name) (hrow : Table.Fits t.columns row) :
    (Database.mk (objects ++ [.table t])).execute (.insert t.name row) =
      .ok ⟨objects ++ [.table { t with rows := t.rows ++ [row] }]⟩ :=
  (Step.insert rfl (by rwa [List.append_nil]) hrow).execute

/-- Rows are added behind those that are there, by induction on the rows still to come. -/
theorem executeAll_rows (h : Lacks objects t.name) {rows : List (List Value)}
    (hrows : ∀ row ∈ rows, Table.Fits t.columns row) :
    (Database.mk (objects ++ [.table t])).executeAll (rows.map (.insert t.name)) =
      .ok ⟨objects ++ [.table { t with rows := t.rows ++ rows }]⟩ := by
  induction rows generalizing t with
  | nil => rw [List.append_nil]; rfl
  | cons row rows ih =>
    obtain ⟨hrow, hrows⟩ := List.forall_mem_cons.mp hrows
    have hnext : Lacks objects { t with rows := t.rows ++ [row] : Table }.name := h
    rw [List.map_cons, executeAll, execute_insert h hrow]
    simp only
    rw [ih hnext hrows, List.append_assoc, List.singleton_append]

theorem executeAll_table (h : Lacks objects t.name) (ht : t.Makeable) :
    (Database.mk objects).executeAll t.statements = .ok ⟨objects ++ [.table t]⟩ := by
  have hmade : Lacks objects { t with rows := [] : Table }.name := h
  rw [Table.statements, executeAll, execute_createTable h ht]
  exact executeAll_rows hmade ht.rows

/-! ## Many tables -/

/-- The tables are added to the database one after the other. -/
theorem executeAll_tables {tables : List Table} (hmakeable : ∀ t ∈ tables, t.Makeable)
    (hnames : (tables.map fun t => foldCase t.name).Nodup)
    (hlacks : ∀ t ∈ tables, Lacks objects t.name) :
    (Database.mk objects).executeAll (tables.flatMap Table.statements) =
      .ok ⟨objects ++ tables.map .table⟩ := by
  induction tables generalizing objects with
  | nil => rw [List.map_nil, List.append_nil]; rfl
  | cons t tables ih =>
    obtain ⟨ht, hmakeable⟩ := List.forall_mem_cons.mp hmakeable
    obtain ⟨hfirst, hlacks⟩ := List.forall_mem_cons.mp hlacks
    obtain ⟨hnew, hnames⟩ := List.nodup_cons.mp hnames
    have hnext : ∀ u ∈ tables, Lacks (objects ++ [.table t]) u.name := by
      intro u hu o ho
      rcases List.mem_append.mp ho with ho | ho
      · exact hlacks u hu o ho
      · rw [List.mem_singleton.mp ho]
        exact fun heq => hnew (List.mem_map.mpr ⟨u, hu, heq.symm⟩)
    rw [List.flatMap_cons, executeAll_append, executeAll_table hfirst ht]
    simp only [Except.bind]
    rw [ih hmakeable hnames hnext, List.append_assoc, List.map_cons, List.singleton_append]

end Database

end DumpConversion
