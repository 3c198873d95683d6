import Mathlib.Logic.Function.Basic
import DumpConversion.Proofs.Conversion.ReadOnly

/-! # What an inspection relies on

The engine is relied on for right answers, and for nothing else: every step may fail, and when a file
cannot be opened or a query not be answered is left open.

* `Catalog`: the tables and the views of an intact database.
* `Finding`: what a file is to the engine: an intact database, one with problems, or no database.
* `quotedName`: how a name is written in a query.
* `Engine.Finds`, `Engine.Shows`: the answers to the queries of an inspection are right.
* `Engine.Fails`: a step of the inspection fails.
* `Engine.Ends`, `Engine.inspect_ends`: how the inspection of a file ends, by the answers that it
  gets.
-/

namespace DumpConversion

set_option autoImplicit false

/-! ## Findings -/

/-- The tables of an intact database with the numbers of their rows, and its views. The engine sees to
it that no two of them share a name, and keeps names as bytes. -/
structure Catalog where
  tables : List TableCount
  views : List Text
  encode : Text → Bytes
  names_nodup : (tables.map TableCount.name ++ views).Nodup
  encode_injective : encode.Injective

/-- The answer to the query for the tables: the names that the pattern leaves, in the order of their
bytes. -/
structure Catalog.Lists (k : Catalog) (names : List Text) : Prop where
  perm : names.Perm
    ((k.tables.map TableCount.name).filter fun n => !matchesPattern reservedPattern n)
  sorted : names.Pairwise fun a b => k.encode a ≤ k.encode b

/-- What a file is to the engine that opens it. -/
inductive Finding where
  | intact (k : Catalog)
  | damaged (problems : List Text) (report : problems ≠ [intactAnswer])
  | foreign

/-- The answers to the integrity check that befit a finding. -/
def Finding.Reported : Finding → Answer → Prop
  | intact _, a => a.fault = none → a.rows = [intactAnswer]
  | damaged problems _, a => a.fault = none → a.rows = problems
  | foreign, a => a.fault ≠ none

/-- A name between quotes; a quote in the name is written twice. -/
def quotedName (n : Text) : Text :=
  '"' :: (n.flatMap fun c => if c = '"' then ['"', '"'] else [c]) ++ ['"']

theorem countQuery_eq (n : Text) :
    countQuery n = "SELECT count(*) FROM ".toList ++ quotedName n := by
  have hinside : (n.flatMap fun c => if c = '"' then ['"', '"'] else [c]) =
      (Text.replaceAll ['"'] ['"', '"'] n).1 := by
    induction n with
    | nil => rfl
    | cons c n ih => rw [List.flatMap_cons, ih, Text.replaceAll_char_cons]
  rw [quotedName, hinside]
  rfl

namespace Engine

/-- In the sessions of this kind the answers that are given are right. -/
structure Finds (engine : Engine) (kind : Session engine.Connection → Prop)
    (finding : Finding) : Prop where
  check : ∀ s, kind s → finding.Reported (engine.rows integrityQuery s).1
  list : ∀ k, finding = .intact k → ∀ s, kind s → ∀ names,
    (engine.rows tablesQuery s).1 = ⟨names, none⟩ → k.Lists names
  count : ∀ k, finding = .intact k → ∀ s, kind s → ∀ t ∈ k.tables, ∀ n,
    (engine.count ("SELECT count(*) FROM ".toList ++ quotedName t.name) s).1 = .ok n → n = t.rows

/-- The file at the path shows itself to whoever opens it for reading as what was found. -/
structure Shows (engine : Engine) (kind : Session engine.Connection → Prop) (beside : List Path)
    (p : Path) (d : Disk) (finding : Finding) : Prop where
  reading : engine.Reading kind beside
  opens : engine.OpensAs kind beside p d
  finds : engine.Finds kind finding

/-! ## Failing steps -/

/-- Tables are counted one after the other. -/
inductive Counted (engine : Engine) : List Text → Session engine.Connection → List TableCount →
    Session engine.Connection → Prop where
  | nil (s : Session engine.Connection) : Counted engine [] s [] s
  | cons {name : Text} {names : List Text} {s s' s'' : Session engine.Connection} {rows : Int}
      {counts : List TableCount} (count : engine.count (countQuery name) s = (.ok rows, s'))
      (rest : Counted engine names s' counts s'') :
      Counted engine (name :: names) s (⟨name, rows.toNat⟩ :: counts) s''

/-- The database is opened, and the integrity check has these lines for answer. -/
def Checked (engine : Engine) (p : Path) (d : Disk) (lines : List Text)
    (s : Session engine.Connection) : Prop :=
  ∃ connection d', engine.openReadOnly p d = (.ok connection, d') ∧
    engine.rows integrityQuery ⟨connection, d'⟩ = (⟨lines, none⟩, s)

/-- A step of the inspection fails. -/
inductive Fails (engine : Engine) (p : Path) (d : Disk) : DatabaseFault → Prop where
  | opening {fault : DatabaseFault} {d' : Disk}
      (fails : engine.openReadOnly p d = (.error fault, d')) : Fails engine p d fault
  | checking {connection : engine.Connection} {d' : Disk} {lines : List Text}
      {fault : DatabaseFault} {s : Session engine.Connection}
      (opening : engine.openReadOnly p d = (.ok connection, d'))
      (fails : engine.rows integrityQuery ⟨connection, d'⟩ = (⟨lines, some fault⟩, s)) :
      Fails engine p d fault
  | counting {s s' s'' s''' : Session engine.Connection} {before after : List Text} {name : Text}
      {end? : Option DatabaseFault} {counts : List TableCount} {fault : DatabaseFault}
      (checked : engine.Checked p d [intactAnswer] s)
      (list : engine.rows tablesQuery s = (⟨before ++ name :: after, end?⟩, s'))
      (counted : engine.Counted before s' counts s'')
      (fails : engine.count (countQuery name) s'' = (.error fault, s''')) : Fails engine p d fault
  | listing {s s' s'' : Session engine.Connection} {names : List Text} {counts : List TableCount}
      {fault : DatabaseFault} (checked : engine.Checked p d [intactAnswer] s)
      (fails : engine.rows tablesQuery s = (⟨names, some fault⟩, s'))
      (counted : engine.Counted names s' counts s'') : Fails engine p d fault

variable {engine : Engine} {p : Path} {d : Disk} {s s' s'' : Session engine.Connection}
variable {names before after : List Text} {name : Text} {counts : List TableCount}
variable {fault : DatabaseFault}

theorem countTables_eq_ok_iff :
    engine.countTables names s = (.ok counts, s') ↔ engine.Counted names s counts s' := by
  constructor
  · intro h
    induction names generalizing s counts with
    | nil =>
      cases h
      exact .nil _
    | cons name names ih =>
      obtain ⟨r, s1, hcount⟩ : ∃ r s1, engine.count (countQuery name) s = (r, s1) := ⟨_, _, rfl⟩
      rw [countTables, hcount] at h
      cases r with
      | error fault => cases h
      | ok rows =>
        obtain ⟨r, s2, hcounts⟩ : ∃ r s2, engine.countTables names s1 = (r, s2) := ⟨_, _, rfl⟩
        simp only [hcounts] at h
        cases r with
        | error fault => cases h
        | ok counts =>
          cases h
          exact .cons hcount (ih hcounts)
  · intro h
    induction h with
    | nil s => rfl
    | cons hcount _ ih =>
      rw [countTables, hcount]
      simp only [ih]

theorem Counted.countTables_append (h : engine.Counted before s counts s')
    (hfails : engine.count (countQuery name) s' = (.error fault, s'')) (after : List Text) :
    engine.countTables (before ++ name :: after) s = (.error fault, s'') := by
  induction h with
  | nil s =>
    rw [List.nil_append, countTables, hfails]
  | cons hcount _ ih =>
    rw [List.cons_append, countTables, hcount]
    simp only [ih hfails]

theorem exists_of_countTables_error (h : engine.countTables names s = (.error fault, s')) :
    ∃ before name after counts s'', names = before ++ name :: after ∧
      engine.Counted before s counts s'' ∧
      engine.count (countQuery name) s'' = (.error fault, s') := by
  induction names generalizing s with
  | nil => cases h
  | cons name names ih =>
    obtain ⟨r, s1, hcount⟩ : ∃ r s1, engine.count (countQuery name) s = (r, s1) := ⟨_, _, rfl⟩
    rw [countTables, hcount] at h
    cases r with
    | error fault =>
      cases h
      exact ⟨[], name, names, [], s, rfl, .nil s, hcount⟩
    | ok rows =>
      obtain ⟨r, s2, hcounts⟩ : ∃ r s2, engine.countTables names s1 = (r, s2) := ⟨_, _, rfl⟩
      simp only [hcounts] at h
      cases r with
      | ok counts => cases h
      | error fault =>
        cases h
        obtain ⟨before, failing, after, counts, s3, rfl, hcounted, hfails⟩ := ih hcounts
        exact ⟨name :: before, failing, after, _, s3, rfl, .cons hcount hcounted, hfails⟩

/-! ## Inspections of files -/

theorem Fails.inspect (h : engine.Fails p d fault) (hfile : d.isFile p = true) :
    (engine.inspect p d).1 = .error (.database fault) := by
  cases h with
  | opening hfails => rw [inspect_of_open_error hfile hfails]
  | checking hopen hfails =>
    rw [inspect_of_open hfile hopen, inventory_of_check_error p (check_of_fault hfails)]
  | counting hchecked hlist hcounted hfails =>
    obtain ⟨connection, d', hopen, hcheck⟩ := hchecked
    rw [inspect_of_open hfile hopen, inventory_of_list_error p (check_of_answer hcheck)
      (listTables_of_count_error hlist (hcounted.countTables_append hfails _))]
  | listing hchecked hfails hcounted =>
    obtain ⟨connection, d', hopen, hcheck⟩ := hchecked
    rw [inspect_of_open hfile hopen, inventory_of_list_error p (check_of_answer hcheck)
      (listTables_of_fault hfails (countTables_eq_ok_iff.mpr hcounted))]

/-- How the inspection of a file ends. -/
inductive Ends (engine : Engine) (p : Path) (d : Disk) : Except Failure Inventory → Prop where
  | failed {fault : DatabaseFault} (fails : engine.Fails p d fault) :
      Ends engine p d (.error (.database fault))
  | reported {lines : List Text} {s : Session engine.Connection}
      (checked : engine.Checked p d lines s) (damaged : lines ≠ [intactAnswer]) :
      Ends engine p d (.error (.inspection p (.reported (joinedReport lines))))
  | listed {s s' s'' : Session engine.Connection} {names : List Text} {counts : List TableCount}
      (checked : engine.Checked p d [intactAnswer] s)
      (list : engine.rows tablesQuery s = (⟨names, none⟩, s'))
      (counted : engine.Counted names s' counts s'') : Ends engine p d (.ok ⟨intactAnswer, counts⟩)

theorem inspect_ends (hfile : d.isFile p = true) : engine.Ends p d (engine.inspect p d).1 := by
  obtain ⟨r, d', hopen⟩ : ∃ r d', engine.openReadOnly p d = (r, d') := ⟨_, _, rfl⟩
  cases r with
  | error fault =>
    rw [inspect_of_open_error hfile hopen]
    exact .failed (.opening hopen)
  | ok connection =>
    rw [inspect_of_open hfile hopen]
    obtain ⟨⟨lines, end?⟩, s, hcheck⟩ :
      ∃ a s, engine.rows integrityQuery ⟨connection, d'⟩ = (a, s) := ⟨_, _, rfl⟩
    cases end? with
    | some fault =>
      rw [inventory_of_check_error p (check_of_fault hcheck)]
      exact .failed (.checking hopen hcheck)
    | none =>
      have hanswer := check_of_answer hcheck
      by_cases hlines : lines = [intactAnswer]
      · subst hlines
        have hchecked : engine.Checked p d [intactAnswer] s := ⟨connection, d', hopen, hcheck⟩
        obtain ⟨⟨names, end?⟩, s', hlist⟩ : ∃ a s', engine.rows tablesQuery s = (a, s') :=
          ⟨_, _, rfl⟩
        obtain ⟨r, s'', hcounts⟩ : ∃ r s'', engine.countTables names s' = (r, s'') := ⟨_, _, rfl⟩
        cases r with
        | error fault =>
          obtain ⟨before, name, after, counts, s3, rfl, hcounted, hfails⟩ :=
            exists_of_countTables_error hcounts
          rw [inventory_of_list_error p hanswer (listTables_of_count_error hlist hcounts)]
          exact .failed (.counting hchecked hlist hcounted hfails)
        | ok counts =>
          have hcounted := countTables_eq_ok_iff.mp hcounts
          cases end? with
          | some fault =>
            rw [inventory_of_list_error p hanswer (listTables_of_fault hlist hcounts)]
            exact .failed (.listing hchecked hlist hcounted)
          | none =>
            rw [inventory_of_list p hanswer (listTables_of_answer hlist hcounts)]
            exact .listed hchecked hlist hcounted
      · rw [inventory_of_report p hanswer hlines]
        exact .reported ⟨connection, d', hopen, hcheck⟩ hlines

end Engine

end DumpConversion
