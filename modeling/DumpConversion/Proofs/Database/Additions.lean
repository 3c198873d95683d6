import Mathlib.Data.List.Basic
import DumpConversion.Disk.Content
import DumpConversion.Proofs.Database.Execution

/-! # What statements add

A statement of a dump adds a table or a row to the tables that are there, or nothing. What the
definition of a table and what a row is, is left open.

* `StoredTable`: a table as far as statements go.
* `Addition`, `Addition.Fits`, `Addition.result`: what a statement adds, where it can, and what comes of
  it.
* `Adds`: additions one after the other.
* `extended`, `Adds.eq_extended`: the tables that were there and the new ones, each with its new
  rows.
* `Database.adds_of_execute`: what the statements of a loaded dump add to plain tables.
-/

namespace DumpConversion

set_option autoImplicit false

/-- A table with its definition and its rows. -/
structure StoredTable (κ ρ : Type) where
  name : Text
  definition : κ
  rows : List ρ

/-- What a statement adds. -/
inductive Addition (κ ρ : Type) where
  | nothing
  | table (name : Text) (definition : κ)
  | row (name : Text) (values : ρ)

variable {κ ρ : Type}

/-! ## One addition -/

namespace Addition

/-- A new table has a new name, and a row has a table. The case of names makes no difference. -/
def Fits (ts : List (StoredTable κ ρ)) : Addition κ ρ → Prop
  | nothing => True
  | table n _ => ∀ t ∈ ts, foldCase t.name ≠ foldCase n
  | row n _ => ∃ t ∈ ts, foldCase t.name = foldCase n

/-- The tables after the addition. -/
def result (ts : List (StoredTable κ ρ)) : Addition κ ρ → List (StoredTable κ ρ)
  | nothing => ts
  | table n k => ts ++ [⟨n, k, []⟩]
  | row n r => ts.map fun t =>
    if foldCase t.name = foldCase n then { t with rows := t.rows ++ [r] } else t

/-- The table that is made. -/
def made? : Addition κ ρ → Option (StoredTable κ ρ)
  | table n k => some ⟨n, k, []⟩
  | _ => none

/-- The row that is added to the table of that name. -/
def rowFor? (name : Text) : Addition κ ρ → Option ρ
  | row n r => if foldCase name = foldCase n then some r else none
  | _ => none

end Addition

/-! ## Additions one after the other -/

/-- Every addition fits what those before it have left. -/
inductive Adds :
    List (StoredTable κ ρ) → List (Addition κ ρ) → List (StoredTable κ ρ) → Prop where
  | nil (ts : List (StoredTable κ ρ)) : Adds ts [] ts
  | cons {ts us : List (StoredTable κ ρ)} {a : Addition κ ρ} {as : List (Addition κ ρ)}
      (fits : a.Fits ts) (rest : Adds (a.result ts) as us) : Adds ts (a :: as) us

/-- The table with all rows that are added to it. -/
def StoredTable.filled (as : List (Addition κ ρ)) (t : StoredTable κ ρ) : StoredTable κ ρ :=
  { t with rows := t.rows ++ as.filterMap (Addition.rowFor? t.name) }

/-- The tables that are there, and those that are made behind them, with all rows that are added. -/
def extended (ts : List (StoredTable κ ρ)) (as : List (Addition κ ρ)) : List (StoredTable κ ρ) :=
  (ts ++ as.filterMap Addition.made?).map (StoredTable.filled as)

section

variable {ts us : List (StoredTable κ ρ)} {a : Addition κ ρ} {as : List (Addition κ ρ)}

theorem Addition.exists_result {t : StoredTable κ ρ} (ht : t ∈ ts) (a : Addition κ ρ) :
    ∃ u ∈ a.result ts, u.name = t.name := by
  cases a with
  | nothing => exact ⟨t, ht, rfl⟩
  | table n k => exact ⟨t, List.mem_append_left _ ht, rfl⟩
  | row n r =>
    refine ⟨_, List.mem_map_of_mem ht, ?_⟩
    split <;> rfl

theorem Adds.apart (h : Adds ts as us) : ∀ m ∈ as.filterMap Addition.made?, ∀ t ∈ ts,
    foldCase t.name ≠ foldCase m.name := by
  induction h with
  | nil => exact List.forall_mem_nil _
  | @cons ts us a as hfits _ ih =>
    have hlater : ∀ m ∈ as.filterMap Addition.made?, ∀ t ∈ ts, foldCase t.name ≠ foldCase m.name := by
      intro m hm t ht
      obtain ⟨u, hu, hname⟩ := a.exists_result ht
      rw [← hname]
      exact ih m hm u hu
    cases a with
    | nothing => exact hlater
    | row n r => exact hlater
    | table n k => exact List.forall_mem_cons.mpr ⟨hfits, hlater⟩

/-- A row goes into its table, be it now or together with the others. -/
theorem StoredTable.filled_row (n : Text) (r : ρ) (t : StoredTable κ ρ) :
    StoredTable.filled (.row n r :: as) t =
      StoredTable.filled as
        (if foldCase t.name = foldCase n then { t with rows := t.rows ++ [r] } else t) := by
  rw [StoredTable.filled, StoredTable.filled, List.filterMap_cons]
  by_cases hname : foldCase t.name = foldCase n
  · have hrow : Addition.rowFor? t.name (.row n r : Addition κ ρ) = some r := if_pos hname
    simp only [if_pos hname, hrow, List.append_assoc, List.singleton_append]
  · have hrow : Addition.rowFor? t.name (.row n r : Addition κ ρ) = none := if_neg hname
    simp only [if_neg hname, hrow]

/-- Additions one after the other come to all of them at once, by induction on the additions still
to come. -/
theorem Adds.eq_extended (h : Adds ts as us) : us = extended ts as := by
  induction h with
  | nil ts =>
    have hfilled : StoredTable.filled ([] : List (Addition κ ρ)) = id :=
      funext fun t => by simp [StoredTable.filled]
    rw [extended, List.filterMap_nil, List.append_nil, hfilled, List.map_id]
  | @cons ts us a as hfits hrest ih =>
    rw [ih, extended, extended]
    cases a with
    | nothing => rfl
    | table n k =>
      rw [Addition.result, List.append_assoc]
      rfl
    | row n r =>
      have hold : ((Addition.row n r).result ts).map (StoredTable.filled as) =
          ts.map (StoredTable.filled (.row n r :: as)) := by
        rw [Addition.result, List.map_map]
        exact List.map_congr_left fun t _ => (StoredTable.filled_row n r t).symm
      have hmade : (as.filterMap Addition.made?).map (StoredTable.filled as) =
          (as.filterMap Addition.made?).map (StoredTable.filled (.row n r :: as)) := by
        refine List.map_congr_left fun m hm => ?_
        -- the row has a table already, whose name no later table takes
        obtain ⟨t, ht, hname⟩ := hfits
        obtain ⟨u, hu, hsame⟩ := (Addition.row n r).exists_result ht
        have hne : foldCase m.name ≠ foldCase n := by
          rw [← hname, ← hsame]
          exact (hrest.apart m hm u hu).symm
        rw [StoredTable.filled_row, if_neg hne]
      rw [List.map_append, hold, hmade, ← List.map_append]
      rfl

end

/-! ## Plain tables -/

namespace Database

/-- The tables of a database. -/
def stored (d : Database) : List (StoredTable (List Column) (List Value)) :=
  d.tables.map fun t => ⟨t.name, t.columns, t.rows⟩

end Database

/-- The tables in a content; what is no database has none. -/
def Content.stored (c : Content) : List (StoredTable (List Column) (List Value)) :=
  c.database?.elim [] Database.stored

/-- What the statement adds to plain tables. -/
def Statement.addition : Statement → Addition (List Column) (List Value)
  | createTable name columns => .table name columns
  | insert table row => .row table row

namespace Database

variable {d e : Database} {name : Text} {columns : List Column} {row : List Value}

theorem adds_of_createTable (h : d.createTable name columns = .ok e) :
    (Addition.table name columns : Addition (List Column) (List Value)).Fits d.stored ∧
      e.stored = (Addition.table name columns).result d.stored := by
  rw [createTable] at h
  split at h
  · cases h
  · split at h
    · cases h
    · next hfind =>
      split at h
      · cases h
      · cases h
        rw [Option.not_isSome_iff_eq_none] at hfind
        refine ⟨List.forall_mem_map.mpr fun t ht => ?_, ?_⟩
        · exact find?_eq_none_iff.mp hfind _ (mem_tables.mp ht)
        · rw [stored, tables, List.filterMap_append, List.map_append]
          rfl

theorem tables_map_addRow (objects : List SchemaObject) (name : Text) (row : List Value) :
    (Database.mk (objects.map (SchemaObject.addRow name row))).tables =
      (Database.mk objects).tables.map fun t =>
        if foldCase t.name = foldCase name then { t with rows := t.rows ++ [row] } else t := by
  rw [tables, tables, List.filterMap_map, List.map_filterMap]
  refine List.filterMap_congr fun o _ => ?_
  cases o with
  | view n => rfl
  | table t =>
    by_cases hname : foldCase t.name = foldCase name
    · simp [SchemaObject.addRow, SchemaObject.table?, hname]
    · simp [SchemaObject.addRow, SchemaObject.table?, hname]

theorem adds_of_insert (h : d.insert name row = .ok e) :
    (Addition.row name row : Addition (List Column) (List Value)).Fits d.stored ∧
      e.stored = (Addition.row name row).result d.stored := by
  rw [insert] at h
  split at h
  · cases h
  · next t ht =>
    split at h
    · cases h
    · split at h
      · cases h
      · cases h
        obtain ⟨o, ho, hto⟩ := Option.bind_eq_some_iff.mp ht
        have hobject : o = .table t := by
          cases o with
          | table u => cases hto; rfl
          | view n => cases hto
        rw [find?, hobject] at ho
        have hmem : t ∈ d.tables := mem_tables.mpr (List.mem_of_find?_eq_some ho)
        have hname : foldCase (SchemaObject.table t).name = foldCase name := by
          simpa using List.find?_some ho
        refine ⟨⟨_, List.mem_map_of_mem hmem, hname⟩, ?_⟩
        rw [stored, tables_map_addRow, Addition.result, stored, List.map_map, List.map_map]
        refine List.map_congr_left fun u _ => ?_
        rw [Function.comp_apply, Function.comp_apply]
        split <;> rfl

/-- A statement that succeeds adds what it says, and nothing else changes. -/
theorem adds_of_execute {s : Statement} (h : d.execute s = .ok e) :
    s.addition.Fits d.stored ∧ e.stored = s.addition.result d.stored := by
  cases s with
  | createTable name columns => exact adds_of_createTable h
  | insert table row => exact adds_of_insert h

end Database

end DumpConversion
