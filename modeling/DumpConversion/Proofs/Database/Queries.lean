import Mathlib.Data.List.Nodup
import Mathlib.Data.List.Perm.Basic
import DumpConversion.Proofs.Bytes.RoundTrip
import DumpConversion.Proofs.Conversion.Findings
import DumpConversion.Proofs.Database.Execution
import DumpConversion.Proofs.Database.Lexing

/-! # The answers of the engine for plain tables

An inspection asks for the names of the tables, and with each name for the number of rows. The engine
for plain tables gives right answers, whatever the names are.

* `matchesPattern_append`: the letters of a pattern stand for themselves, in any case.
* `isReservedName`: the names that the pattern of reserved names takes.
* `readCountQuery_countQuery`: the name in a query is the name that was put into it.
* `Database.WellNamed`, `Database.catalog`: what holds of the names in every database.
* `Disk.Opens`: the database that is opened under a path.
* `Engine.plain_shows_intact`, `Engine.plain_shows_damaged`, `Engine.plain_shows_foreign`: what a file
  is found to be.
* `Engine.plain_not_fails`: no step of the inspection of a database fails.
-/

namespace DumpConversion

set_option autoImplicit false

/-! ## Patterns -/

/-- The letters with which the pattern of reserved names begins. -/
def reservedStart : Text := "sqlite".toList

/-- The pattern of reserved names takes the name: these letters, in any case, and at least one
character more. It takes names that go on with another character than an underscore, which are
anybody's. -/
def isReservedName (name : Text) : Bool :=
  reservedStart.isPrefixOf (foldCase name) && decide (reservedStart.length < name.length)

theorem isReservedName_iff {name : Text} :
    isReservedName name = true ↔
      reservedStart <+: foldCase name ∧ reservedStart.length < name.length := by
  simp [isReservedName]

theorem matchesPattern_append {p : Text} (hmany : '%' ∉ p) (hone : '_' ∉ p) (pattern s : Text) :
    matchesPattern (p ++ pattern) s =
      ((foldCase p).isPrefixOf (foldCase s) && matchesPattern pattern (s.drop p.length)) := by
  induction p generalizing s with
  | nil => rfl
  | cons c p ih =>
    obtain ⟨hc, hmany⟩ := List.ne_and_not_mem_of_not_mem_cons hmany
    obtain ⟨hletter, hone⟩ := List.ne_and_not_mem_of_not_mem_cons hone
    cases s with
    | nil => exact if_neg hc.symm
    | cons d s =>
      have hletter : (c == '_') = false := beq_eq_false_iff_ne.mpr hletter.symm
      rw [List.cons_append, matchesPattern, if_neg hc.symm, hletter, Bool.false_or,
        ih hmany hone, ← Bool.and_assoc]
      rfl

theorem someEnd_of_nil {p : Text → Bool} (h : p [] = true) (s : Text) : someEnd p s = true := by
  induction s with
  | nil => exact h
  | cons c s ih => rw [someEnd, ih, Bool.or_true]

/-- The pattern is matched by the reserved start with at least one character more. -/
theorem matchesPattern_reservedPattern (n : Text) :
    matchesPattern reservedPattern n = isReservedName n := by
  have hsplit : reservedPattern = reservedStart ++ ['_', '%'] := rfl
  have hmore (s : Text) : matchesPattern ['_', '%'] s = decide (0 < s.length) := by
    cases s with
    | nil => rfl
    | cons c s => exact someEnd_of_nil rfl s
  rw [hsplit, matchesPattern_append (by decide) (by decide), hmore, isReservedName,
    List.length_drop]
  congr 1
  exact decide_eq_decide.mpr Nat.sub_pos_iff_lt

/-! ## Questions -/

open SqlToken (Reads beginsApart_cons) in
theorem readCountQuery_countQuery {n : Text} (hn : '\x00' ∉ n) :
    readCountQuery (countQuery n) = some n := by
  have hname : Reads ('"' :: ((Text.replaceAll ['"'] ['"', '"'] n).1 ++ ['"'])) [.name n] :=
    .name_of (Reads.nulFree_replaceAll (by decide) hn) fun _ hrest =>
      Reads.readQuoted_replaceAll n hrest
  have hstar : Reads "(*)".toList [.symbol '(', .symbol '*', .symbol ')'] :=
    .symbol_cons (by decide) (.symbol_cons (by decide) (.symbol_cons (by decide) .nil))
  have hcount : Reads "count(*)".toList _ :=
    (Reads.word (w := "count".toList) (by decide)).append hstar (beginsApart_cons (by decide) _)
  have hquery : Reads (countQuery n) _ :=
    (Reads.word (w := "SELECT".toList) (by decide)).spaced
      (hcount.spaced ((Reads.word (w := "FROM".toList) (by decide)).spaced hname))
  rw [readCountQuery, hquery.lexStatement (by simp [SqlToken.statementEnd])]
  rfl

/-! ## Databases -/

/-- A table with the number of its rows. -/
def Table.counted (t : Table) : TableCount := ⟨t.name, t.rows.length⟩

theorem encode_injective : Utf8.encode.Injective := by
  intro a b h
  have hdecode := Utf8.decode_encode a
  rw [h, Utf8.decode_encode] at hdecode
  cases hdecode
  rfl

namespace Database

/-- What the engine sees to when it names objects: no two share a name, whatever the case, and none
has a name that cannot be written in a statement. -/
structure WellNamed (d : Database) : Prop where
  apart : d.NamesApart
  nulFree : ∀ o ∈ d.objects, '\x00' ∉ o.name

theorem find?_of_mem {d : Database} (h : d.NamesApart) {o : SchemaObject} (ho : o ∈ d.objects) :
    d.find? o.name = some o := by
  obtain ⟨objects⟩ := d
  rw [find?]
  induction objects with
  | nil => cases ho
  | cons first objects ih =>
    obtain ⟨hfirst, hobjects⟩ := List.nodup_cons.mp h
    cases List.mem_cons.mp ho with
    | inl heq =>
      rw [heq]
      exact List.find?_cons_of_pos (decide_eq_true rfl)
    | inr hmem =>
      have hne : foldCase first.name ≠ foldCase o.name :=
        fun heq => hfirst (List.mem_map.mpr ⟨o, hmem, heq.symm⟩)
      exact (List.find?_cons_of_neg (by simpa using hne)).trans (ih hobjects hmem)

variable {d : Database}

theorem countRows_countQuery (h : d.WellNamed) {t : Table} (ht : t ∈ d.tables) :
    d.countRows (countQuery t.name) = .ok t.rows.length := by
  have hmem := mem_tables.mp ht
  have hfind : d.find? t.name = some (.table t) := find?_of_mem h.apart hmem
  have hname : '\x00' ∉ t.name := h.nulFree _ hmem
  rw [countRows, readCountQuery_countQuery hname]
  simp only [hfind, Option.bind_some, SchemaObject.table?]

/-- The names of the views in the order of their creation. -/
def views (d : Database) : List Text :=
  d.objects.filterMap fun
    | .table _ => none
    | .view n => some n

theorem names_perm (d : Database) :
    (d.tables.map Table.name ++ d.views).Perm (d.objects.map SchemaObject.name) := by
  obtain ⟨objects⟩ := d
  induction objects with
  | nil => exact .nil
  | cons o objects ih =>
    cases o with
    | table t => exact ih.cons t.name
    | view n => exact List.perm_middle.trans (ih.cons n)

/-- What an inspection can find in the database. -/
def catalog (d : Database) (h : d.WellNamed) : Catalog where
  tables := d.tables.map Table.counted
  views := d.views
  encode := Utf8.encode
  names_nodup := by
    have hnames : (d.objects.map SchemaObject.name).Nodup := by
      refine List.Nodup.of_map foldCase ?_
      rw [List.map_map]
      exact h.apart
    rw [List.map_map]
    exact d.names_perm.nodup_iff.mpr hnames
  encode_injective := encode_injective

theorem nameLe_trans (a b c : Text) (hab : nameLe a b = true) (hbc : nameLe b c = true) :
    nameLe a c = true :=
  decide_eq_true (List.le_trans (of_decide_eq_true hab) (of_decide_eq_true hbc))

theorem nameLe_total (a b : Text) : (nameLe a b || nameLe b a) = true := by
  rw [Bool.or_eq_true, nameLe, nameLe, decide_eq_true_eq, decide_eq_true_eq]
  exact List.le_total _ _

theorem catalog_lists (h : d.WellNamed) : (d.catalog h).Lists d.listedNames where
  perm := by
    have hperm := List.mergeSort_perm
      ((d.tables.map Table.name).filter fun n => !matchesPattern reservedPattern n) nameLe
    rw [catalog, List.map_map]
    exact hperm
  sorted := (List.pairwise_mergeSort nameLe_trans nameLe_total _).imp of_decide_eq_true

/-! ## Answers -/

theorem report_of_intact (h : d.problems = []) : d.report = [intactAnswer] := by
  rw [report, h]
  rfl

theorem report_of_damaged (h : d.problems ≠ []) : d.report = d.problems.map Problem.line := by
  unfold report
  split
  · next hnone => exact absurd hnone h
  · rfl

/-- No problem reads like the report of an intact database. -/
theorem report_ne_intact (h : d.problems ≠ []) : d.report ≠ [intactAnswer] := by
  rw [report_of_damaged h]
  intro hreport
  obtain ⟨problem, -, hline⟩ := List.map_eq_singleton_iff.mp hreport
  cases hline

theorem answer_integrityQuery (d : Database) : d.answer integrityQuery = ⟨d.report, none⟩ :=
  if_pos rfl

theorem answer_tablesQuery (d : Database) : d.answer tablesQuery = ⟨d.listedNames, none⟩ := by
  rw [answer, if_neg (by decide), if_pos rfl]

end Database

/-! ## Opening -/

/-- The database that is opened under the path of a file. Under a name that asks for memory it is a
new one. -/
inductive Disk.Opens (d : Disk) (p : Path) : Database → Prop where
  | file {c : Content} {db : Database} (name : p.text ∉ memoryNames) (read : d.read p = .ok c)
      (database : c.database? = some db) : Opens d p db
  | memory (name : p.text ∈ memoryNames) (isFile : d.isFile p = true) : Opens d p .empty

theorem Disk.Opens.isFile {d : Disk} {p : Path} {db : Database} (h : d.Opens p db) :
    d.isFile p = true := by
  cases h with
  | file _ hread _ => exact Disk.isFile_iff.mpr ⟨_, hread⟩
  | memory _ hfile => exact hfile

namespace Engine

variable {d : Disk} {p : Path} {db : Database} {s : Session Engine.plain.Connection}

/-- The connection is one to the database, or to no database. -/
def IsTo (found : Option Database) (connection : PlainConnection) : Prop :=
  connection.current.database? = found

theorem plain_rows (h : IsTo (some db) s.connection) (query : Text) :
    Engine.plain.rows query s = (db.answer query, s) := by
  simp only [Engine.plain, PlainConnection.rows, show s.connection.current.database? = _ from h]

theorem plain_count (h : IsTo (some db) s.connection) (query : Text) :
    Engine.plain.count query s = (db.countRows query, s) := by
  simp only [Engine.plain, PlainConnection.count, show s.connection.current.database? = _ from h]

theorem plain_openReadOnly_of_opens (h : d.Opens p db) :
    ∃ connection, Engine.plain.openReadOnly p d = (.ok connection, d) ∧
      IsTo (some db) connection := by
  cases h with
  | @file c _ hname hread hdatabase =>
    have hopen : Engine.plain.openReadOnly p d = (.ok (.ofContent none c), d) := by
      simp [Engine.plain, PlainConnection.openReadOnly, hname, hread]
    exact ⟨_, hopen, hdatabase⟩
  | memory hname _ =>
    have hopen : Engine.plain.openReadOnly p d = (.ok (.ofContent none .empty), d) := by
      simp [Engine.plain, PlainConnection.openReadOnly, hname]
    exact ⟨_, hopen, rfl⟩

theorem plain_opensAs_of_opens (h : d.Opens p db) (beside : List Path) :
    Engine.plain.OpensAs (fun s => IsTo (some db) s.connection) beside p d := by
  obtain ⟨connection, hopen, hto⟩ := plain_openReadOnly_of_opens h
  refine plain_opensAs (IsTo (some db)) beside fun connection' hconnection => ?_
  rw [hopen] at hconnection
  cases hconnection
  exact hto

/-! ## Findings -/

theorem plain_shows_intact (h : d.Opens p db) (hnamed : db.WellNamed) (hintact : db.problems = [])
    (beside : List Path) : Engine.plain.Shows (fun s => IsTo (some db) s.connection) beside p d
      (.intact (db.catalog hnamed)) where
  reading := plain_reading (IsTo (some db)) beside
  opens := plain_opensAs_of_opens h beside
  finds := {
    check := fun s hs _ => by
      rw [plain_rows hs, db.answer_integrityQuery, Database.report_of_intact hintact]
    list := fun k hk s hs names hnames => by
      cases hk
      rw [plain_rows hs, db.answer_tablesQuery] at hnames
      cases hnames
      exact Database.catalog_lists hnamed
    count := fun k hk s hs e he n hn => by
      cases hk
      obtain ⟨t, ht, rfl⟩ := List.mem_map.mp he
      rw [← countQuery_eq, plain_count hs, Table.counted,
        Database.countRows_countQuery hnamed ht] at hn
      cases hn
      rfl }

theorem plain_shows_damaged (h : d.Opens p db) (hdamaged : db.problems ≠ [])
    (beside : List Path) : Engine.plain.Shows (fun s => IsTo (some db) s.connection) beside p d
      (.damaged db.report (Database.report_ne_intact hdamaged)) where
  reading := plain_reading (IsTo (some db)) beside
  opens := plain_opensAs_of_opens h beside
  finds := {
    check := fun s hs _ => by rw [plain_rows hs, db.answer_integrityQuery]
    list := nofun
    count := nofun }

theorem plain_shows_foreign (hfile : d.isFile p = true) (h : ∀ db, ¬ d.Opens p db)
    (beside : List Path) :
    Engine.plain.Shows (fun s => IsTo none s.connection) beside p d .foreign where
  reading := plain_reading (IsTo none) beside
  opens := by
    refine plain_opensAs (IsTo none) beside fun connection hconnection => ?_
    obtain ⟨c, hread⟩ := Disk.isFile_iff.mp hfile
    have hname : p.text ∉ memoryNames := fun hname => h _ (.memory hname hfile)
    have hnone : c.database? = none :=
      Option.eq_none_iff_forall_not_mem.mpr fun db hdb => h db (.file hname hread hdb)
    simp only [Engine.plain, PlainConnection.openReadOnly, hread] at hconnection
    rw [if_neg (by simpa using hname)] at hconnection
    cases hconnection
    exact hnone
  finds := {
    check := fun s hs => by
      simp [Finding.Reported, Engine.plain, PlainConnection.rows, show _ = none from hs]
    list := nofun
    count := nofun }

theorem plain_counted {names : List Text} {s s' : Session Engine.plain.Connection}
    {counts : List TableCount} (h : Engine.plain.Counted names s counts s') : s' = s := by
  induction h with
  | nil s => rfl
  | cons hcount _ ih =>
    rw [ih]
    exact (congrArg Prod.snd hcount).symm

/-- No step of the inspection of a database fails. -/
theorem plain_not_fails (h : d.Opens p db) (hnamed : db.WellNamed)
    (fault : DatabaseFault) : ¬ Engine.plain.Fails p d fault := by
  obtain ⟨connection, hopen, hto⟩ := plain_openReadOnly_of_opens h
  have hchecked : ∀ {lines s}, Engine.plain.Checked p d lines s → IsTo (some db) s.connection := by
    rintro lines s ⟨connection', d', hopen', hcheck⟩
    rw [hopen] at hopen'
    cases hopen'
    have hsame : ⟨connection, d⟩ = s := congrArg Prod.snd hcheck
    rw [← hsame]
    exact hto
  intro hfails
  cases hfails with
  | opening hfails =>
    rw [hopen] at hfails
    cases hfails
  | checking hopen' hfails =>
    rw [hopen] at hopen'
    cases hopen'
    rw [plain_rows (s := ⟨connection, d⟩) hto, db.answer_integrityQuery] at hfails
    cases hfails
  | @counting s s' s'' _ before after name end? counts _ hcheck hlist hcounted hfails =>
    have hs := hchecked hcheck
    rw [plain_rows hs, db.answer_tablesQuery] at hlist
    obtain ⟨hanswer, rfl⟩ := Prod.mk.inj hlist
    obtain ⟨hnames, -⟩ := Answer.mk.inj hanswer
    have hmem : name ∈ db.listedNames := by
      rw [hnames]
      simp
    obtain ⟨t, ht, rfl⟩ := List.mem_map.mp
      (List.mem_of_mem_filter ((Database.catalog_lists hnamed).perm.mem_iff.mp hmem))
    obtain ⟨u, hu, rfl⟩ := List.mem_map.mp ht
    rw [plain_counted hcounted, plain_count hs, Table.counted,
      Database.countRows_countQuery hnamed hu] at hfails
    cases hfails
  | listing hcheck hfails _ =>
    rw [plain_rows (hchecked hcheck), db.answer_tablesQuery] at hfails
    cases hfails

end Engine

/-! ## A database of tables -/

namespace Database

section

variable {tables : List Table}

theorem tables_mk (tables : List Table) : (Database.mk (tables.map .table)).tables = tables := by
  rw [Database.tables, List.filterMap_map]
  exact List.filterMap_some

theorem problems_tables (h : ∀ t ∈ tables, t.Makeable) :
    (Database.mk (tables.map .table)).problems = [] := by
  have hnone : tables.reverse.flatMap Table.problems = [] :=
    List.flatMap_eq_nil_iff.mpr fun t ht => (h t (List.mem_reverse.mp ht)).problems
  rw [problems, tables_mk, hnone]
  rfl

theorem wellNamed_tables (hnames : (tables.map fun t => foldCase t.name).Nodup)
    (hnulFree : ∀ t ∈ tables, '\x00' ∉ t.name) :
    (Database.mk (tables.map .table)).WellNamed := by
  refine ⟨?_, List.forall_mem_map.mpr hnulFree⟩
  rw [NamesApart, List.map_map]
  exact hnames

end

end Database

end DumpConversion
