import DumpConversion.Proofs.Conversion.HandOver
import DumpConversion.Proofs.Conversion.InProcess
import DumpConversion.Proofs.Conversion.Inspection
import DumpConversion.Proofs.Dialect.Loading

/-! # From the dump to the report

A conversion that loads in one transaction brings every table and every row of a dump into the new
database, and its report counts them.

* `Delivered`: a dump of loadable tables on its way to a target that can be written.
* `Dumped.exists_setAside`: a target that can be written, and its copy with it, can be set aside.
* `Disk.Cleared`: the disks on which the engine is relied on, where the target has been set aside.
* `HandedOver.exists_build`: the dump is loaded, and the database inspected.
* `convert_loses_nothing`: the conversion succeeds, and its inventory is that of the dump.
* `convert_in_memory`, `convert_without_copy`: where it does not succeed.
-/

namespace DumpConversion

set_option autoImplicit false

open Dialect (Layout Listing Loadable)

section

variable {s : Settings} {dumper : Dumper} {target : Path} {m m1 n : Machine} {raw : Content}
variable {out : SanitizedDump} {kept : Option KeptCopy}

/-! ## Setting the target aside -/

theorem Disk.Names.find?_of_entry {d e : Disk} {p : Path} {l : Location} (hd : d.Names p l)
    (he : e.Names p l) (h : (e.entry p).toOption = (d.entry p).toOption) :
    e.find? l = d.find? l := by
  rw [hd.entry, he.entry] at h
  cases hl : d.find? l <;> cases hk : e.find? l <;> simp_all [Except.toOption]

/-- A file that can be written, and beside which a copy can be written, can be set aside. -/
theorem Dumped.exists_setAside (h : Dumped s dumper m m1 raw) (out : SanitizedDump)
    (hapart : ∀ p ∈ [s.dumpFile, s.dumpFile.unfinished], m.disk.Apart p target)
    (htarget : ∃ l, m.disk.writable target = .ok l)
    (hcopy : m.disk.isPresent target = true → ∃ b, m.disk.writable target.aside = .ok b) :
    ∃ kept n, setAside target (sanitizedMachine s m1 out) = (.ok kept, n) := by
  have hentry := h.entry_apart out (hapart _ (by simp)) (hapart _ (by simp))
  have hkeeps := h.keepsDirectories out
  cases hpresent : m.disk.isPresent target with
  | false =>
    have habsent : (sanitizedMachine s m1 out).disk.isPresent target = false := by
      rw [Disk.isPresent, hentry]
      exact hpresent
    exact ⟨_, _, setAside_of_absent habsent⟩
  | true =>
    obtain ⟨l, hl⟩ := htarget
    obtain ⟨hl, hdir⟩ := Disk.writable_eq_ok_iff.mp hl
    obtain ⟨b, hb⟩ := hcopy hpresent
    obtain ⟨hb, hbdir⟩ := Disk.writable_eq_ok_iff.mp hb
    obtain ⟨b', hb', hne⟩ := hl.aside
    obtain rfl := hb.unique hb'
    rw [hl.isPresent, Option.isSome_iff_exists] at hpresent
    obtain ⟨e, he⟩ := hpresent
    obtain ⟨c, hc⟩ : ∃ c, e.content? = some c := by
      cases e with
      | directory => exact absurd he hdir
      | file c => exact ⟨c, rfl⟩
      | program p => exact ⟨_, rfl⟩
    have hfound := (hl.find?_of_entry (hkeeps.names hl) hentry).trans he
    exact ⟨_, _, setAside_of_file (hkeeps.names hl) hfound hc (hkeeps.names hb) hne
      fun hd => hbdir ((hkeeps.directory_iff b).mp hd)⟩

/-- Nothing has changed but the two files of the dump, the target and its copy, and there is no
target. -/
structure Disk.Cleared (s : Settings) (target : Path) (d e : Disk) : Prop where
  changes : d.ChangesOnly [s.dumpFile, s.dumpFile.unfinished, target, target.aside] e
  absent : e.isPresent target = false

theorem Dumped.cleared (h : Dumped s dumper m m1 raw)
    (haside : setAside target (sanitizedMachine s m1 out) = (.ok kept, n)) :
    Disk.Cleared s target m.disk n.disk := by
  obtain ⟨l, hl, hdir, hset⟩ := h.sanitized_set out
  have hsanitized : m1.disk.ChangesOnly [s.dumpFile, s.dumpFile.unfinished]
      (m1.disk.set l (.file (.ofText out.text))) :=
    Disk.changesOnly_of_create (by simp) (hl.create hdir _)
  have hmoved := setAside_changesOnly target (sanitizedMachine s m1 out)
  rw [hset, haside] at hmoved
  refine ⟨((h.changes.trans hsanitized).mono (by simp)).trans (hmoved.mono (by simp)), ?_⟩
  exact (isSetAside_of_ok haside).absent

/-! ## Building the target -/

theorem HandedOver.exists_build [Platform] {on : Disk → Prop}
    {holds : Database → Session Platform.engine.Connection → Prop} {statements : List Statement}
    {db : Database} (h : HandedOver s target m n out kept) (hverify : s.verify = true)
    (hhandles : Platform.engine.Handles target on holds) (hname : target.NamesDatabaseFile)
    (hon : on n.disk) (hscript : Dialect.Script out.text statements)
    (hexecute : Database.empty.executeAll statements = .ok db) (hnamed : db.WellNamed)
    (hintact : db.problems = []) :
    ∃ counts final, build s loadInProcess target n = (.ok (some ⟨intactAnswer, counts⟩), final) ∧
      counts.Perm (db.catalog hnamed).userTables ∧
      counts.Pairwise (fun a b => nameLe a.name b.name = true) := by
  have hdump : n.disk.readText s.dumpFile = .ok out.text := Disk.readText_ofText h.read_dump
  obtain ⟨d, hload, hkeeps⟩ := hhandles.load hname hscript hexecute hnamed hintact hon
  obtain ⟨kind, beside, hshows⟩ := hkeeps.shows
  obtain ⟨counts, hinspect, hperm, hsorted⟩ := hshows.exists_counts hkeeps.isFile hkeeps.serves
  refine ⟨counts, _, build_of_inspect hverify (loadInProcess_of_readText hdump hload)
    (inspect_of_engine (Prod.ext hinspect rfl)), hperm, hsorted.imp fun hle => decide_eq_true hle⟩

end

/-! ## The whole conversion -/

/-- The dumper delivers loadable tables in the configured encoding. The two files of the dump are
apart from the target and its copy, the target can be written, and the settings ask for a load in one
transaction and an inspection. -/
structure Delivered (s : Settings) (dumper : Dumper) (target : Path) (m : Machine) (y : Layout)
    (tables : List Listing) : Prop where
  dumped : ∃ m1 raw, Dumped s dumper m m1 raw ∧ s.encoding.decode raw.image = .ok (y.listed tables)
  loadable : Loadable tables
  apart : ∀ p ∈ [s.dumpFile, s.dumpFile.unfinished], ∀ q ∈ [target, target.aside], m.disk.Apart p q
  writable : ∃ l, m.disk.writable target = .ok l
  importer : s.importer = .embedded
  verify : s.verify = true

section

variable {s : Settings} {dumper : Dumper} {target : Path} {m : Machine} {y : Layout}
variable {tables : List Listing}

theorem Delivered.loader [Platform] (h : Delivered s dumper target m y tables) :
    s.loader = loadInProcess := by
  rw [Settings.loader, h.importer]

/-- No table and no row is lost on the way into a database file, if a previous file can be set aside
and the engine does what it is relied on for. The conversion succeeds, and the inventory in its
account lists the tables in the order of their names, each with the number of its insertions. -/
theorem convert_loses_nothing [Platform]
    {holds : Database → Session Platform.engine.Connection → Prop}
    (h : Delivered s dumper target m y tables) (hname : target.NamesDatabaseFile)
    (hcopy : m.disk.isPresent target = true → ∃ b, m.disk.writable target.aside = .ok b)
    (hhandles : Platform.engine.Handles target (Disk.Cleared s target m.disk) holds) :
    ∃ account final inventory, convert s dumper s.loader target m = (.ok account, final) ∧
      account.inventory = some inventory ∧
      inventory.tables.Perm (tables.map Listing.counted) ∧
      inventory.tables.Pairwise (fun a b => nameLe a.name b.name = true) ∧
      inventory.rowCount =
        (tables.flatMap (Listing.insertions · Line.backslashQuote)).length := by
  obtain ⟨m1, raw, hdumped, htext⟩ := h.dumped
  obtain ⟨out, hout, hscript⟩ := Dialect.sanitizeText_listed y tables
  rw [← sanitize_of_decode htext] at hout
  obtain ⟨kept, n, haside⟩ := hdumped.exists_setAside out
    (fun p hp => h.apart p hp target (by simp)) h.writable hcopy
  obtain ⟨db, hnamed, hexecute, hintact, htables⟩ := h.loadable.executeAll
  have hstatements := Dialect.script_listings y h.loadable.each
  rw [← hscript] at hstatements
  obtain ⟨counts, final, hbuild, hperm, hsorted⟩ := (hdumped.handedOver h.apart haside).exists_build
    h.verify hhandles hname (hdumped.cleared haside) hstatements hexecute hnamed hintact
  have hcounted : (db.catalog hnamed).userTables = tables.map Listing.counted := by
    rw [Catalog.userTables, htables, List.filter_eq_self]
    exact List.forall_mem_map.mpr fun t ht => by rw [(h.loadable.each t ht).not_reserved]; rfl
  rw [hcounted] at hperm
  rw [h.loader]
  refine ⟨_, final, ⟨intactAnswer, counts⟩,
    convert_of_build hdumped.succeeds (hdumped.sanitizeInto hout) haside hbuild, rfl, hperm, hsorted,
    ?_⟩
  rw [Inventory.rowCount_of_perm hperm, Dialect.length_insertions]

end

theorem dumped_of_writing {s : Settings} {m : Machine} {l : Location}
    (hl : m.disk.Names s.dumpFile l) (hdir : m.disk.find? l ≠ some .directory) (c : Content) :
    Dumped s (fun dump => Procedure.change (fun d => d.create dump c) .io) m
      { m with disk := m.disk.set l (.file c) } c where
  succeeds := Procedure.change_of_ok (hl.create hdir c)
  changes := Disk.changesOnly_of_create List.mem_cons_self (hl.create hdir c)
  place := ⟨l, (Disk.KeepsDirectories.set hdir c).names hl⟩
  read := ((Disk.KeepsDirectories.set hdir c).names hl).read
    (Disk.find?_set_self _ l _ hl.ne_nil) rfl

/-- A dumper that writes the tables in UTF-8 delivers them, whatever else is on the disk. -/
theorem delivered_of_writing {s : Settings} (target : Path) {m : Machine} (y : Layout)
    {tables : List Listing} {l p k b : Location} (hloadable : Loadable tables)
    (hsettings : s.encoding = .utf8 ∧ s.importer = .embedded ∧ s.verify = true)
    (hl : m.disk.Names s.dumpFile l) (hldir : m.disk.find? l ≠ some .directory)
    (hp : m.disk.Names s.dumpFile.unfinished p) (hk : m.disk.Names target k)
    (hkdir : m.disk.find? k ≠ some .directory) (hb : m.disk.Names target.aside b)
    (hne : l ≠ k ∧ l ≠ b ∧ p ≠ k ∧ p ≠ b) :
    Delivered s (fun dump =>
      Procedure.change (fun d => d.create dump (.ofText (y.listed tables))) .io)
      target m y tables := by
  obtain ⟨hencoding, himporter, hverify⟩ := hsettings
  obtain ⟨hlk, hlb, hpk, hpb⟩ := hne
  have htext : s.encoding.decode (Content.ofText (y.listed tables)).image =
      .ok (y.listed tables) := by
    rw [hencoding]
    exact Utf8.decode_encode _
  refine ⟨⟨_, _, dumped_of_writing hl hldir _, htext⟩, hloadable, ?_, ⟨k, hk.writable hkdir⟩,
    himporter, hverify⟩
  rw [List.forall_mem_cons, List.forall_mem_singleton, List.forall_mem_cons,
    List.forall_mem_singleton, List.forall_mem_cons, List.forall_mem_singleton]
  exact ⟨⟨Disk.apart_of_names hl hk hlk, Disk.apart_of_names hl hb hlb⟩,
    Disk.apart_of_names hp hk hpk, Disk.apart_of_names hp hb hpb⟩

/-- Two tables in the order of the dump, one of them with a null and a quote in its rows. -/
theorem convert_loses_nothing_of_users :
    let _ : Platform := .plain fun _ _ _ => .idle
    let id : Dialect.Column := ⟨⟨"id".toList, by decide⟩,
      ⟨"int".toList, some "10".toList, by decide, by decide, by decide, by decide⟩,
      true, none, none, .unsaid⟩
    let name : Dialect.Column := ⟨⟨"name".toList, by decide⟩,
      ⟨"text".toList, none, by decide, by decide, by decide, by decide⟩, false, none,
      some ⟨"latin1_bin".toList, .bare, by decide, by decide⟩, .defaultNull⟩
    let key : Dialect.KeyLine := ⟨"PRIMARY KEY (\"id\")".toList, by decide, by decide, by decide⟩
    let one : Dialect.Cell := .number false ⟨"1".toList, by decide, by decide⟩ none
    let owner : Dialect.Cell :=
      .string ⟨"O'Hara".toList, by decide, by decide, by decide, by decide, by decide, by decide,
        by decide⟩
    let users : Listing := ⟨⟨"users".toList, by decide⟩, [id, name], by simp, [key], none,
      [[one, owner], [one, .null]]⟩
    let logs : Listing := ⟨⟨"logs".toList, by decide⟩, [id], by simp, [], none, [[one]]⟩
    let y : Layout := ⟨"  ".toList, by decide, .lf, fun _ => [], true⟩
    let s : Settings := { Settings.default with encoding := .utf8, importer := .embedded }
    let m : Machine := ⟨⟨[], []⟩, [], []⟩
    ∃ account final inventory,
      convert s (fun dump => Procedure.change
          (fun d => d.create dump (.ofText (y.listed [users, logs]))) .io)
        s.loader (Path.ofString "shop.db") m = (.ok account, final) ∧
      account.inventory = some inventory ∧
      inventory.tables.Perm [⟨"users".toList, 2⟩, ⟨"logs".toList, 1⟩] ∧
      inventory.tables.Pairwise (fun a b => nameLe a.name b.name = true) ∧
      inventory.rowCount = 3 := by
  intro platform id name key one owner users logs y s m
  have hid : id.type.IsSimple := ⟨by decide, by decide, fun size hsize => by
    cases hsize
    exact .one ⟨"10".toList, by decide, by decide⟩⟩
  have hname : name.type.IsSimple := ⟨by decide, by decide, fun size hsize => by cases hsize⟩
  have husers : users.Loadable := ⟨by decide, by decide,
    List.forall_mem_cons.mpr ⟨hid, List.forall_mem_singleton.mpr hname⟩, by decide,
    Listing.filled_of_nullable (by decide), by decide⟩
  have hlogs : logs.Loadable := ⟨by decide, by decide, List.forall_mem_singleton.mpr hid, by decide,
    Listing.filled_of_nullable (by decide), by decide⟩
  have hloadable : Loadable [users, logs] :=
    ⟨List.forall_mem_cons.mpr ⟨husers, List.forall_mem_singleton.mpr hlogs⟩, by decide⟩
  have hdelivered := delivered_of_writing (s := s) (Path.ofString "shop.db") (m := m) y hloadable
    ⟨rfl, rfl, rfl⟩ ⟨_, rfl, rfl, rfl, rfl⟩ (by decide) ⟨_, rfl, rfl, rfl, rfl⟩
    ⟨_, rfl, rfl, rfl, rfl⟩ (by decide) ⟨_, rfl, rfl, rfl, rfl⟩ (by decide)
  have hshop : (Path.ofString "shop.db").NamesDatabaseFile := ⟨by decide, by decide⟩
  have hhandles : Engine.plain.Handles (Path.ofString "shop.db")
      (Disk.Cleared s (Path.ofString "shop.db") m.disk) (Engine.HoldsAt (Path.ofString "shop.db")) :=
    Engine.plain_handles hshop fun d hd =>
      ⟨⟨["shop.db".toList], hd.changes.keepsDirectories.writable_iff.mpr rfl⟩, hd.absent⟩
  exact convert_loses_nothing hdelivered hshop (fun hpresent => by cases hpresent) hhandles

section

variable [Platform] {s : Settings} {dumper : Dumper} {target : Path} {m : Machine} {y : Layout}
variable {tables : List Listing}

/-! ## Targets without a file -/

/-- A database that is made nowhere on the disk is not there any more when it is inspected. -/
theorem convert_in_memory (h : Delivered s dumper target m y tables)
    (hmemory : ∀ script d, (Platform.engine.load target script d).2 = d) (account : Account)
    (final : Machine) : convert s dumper s.loader target m ≠ (.ok account, final) := by
  intro hok
  obtain ⟨m1, raw, hdumped, -⟩ := h.dumped
  rw [h.loader] at hok
  obtain ⟨out, kept, n, -, haside, hbuild, -⟩ := hdumped.stages_of_ok hok
  have hdump : n.disk.readText s.dumpFile = .ok out.text :=
    Disk.readText_ofText (hdumped.handedOver h.apart haside).read_dump
  have hfile : n.disk.isFile target = false := by
    rw [Bool.eq_false_iff]
    intro hfile
    have habsent := (isSetAside_of_ok haside).absent
    rw [Disk.isPresent_of_isFile hfile] at habsent
    cases habsent
  have hinspect := inspect_of_engine (Platform.engine.inspect_of_missing hfile)
  obtain ⟨r, hload⟩ : ∃ r, Platform.engine.load target out.text n.disk = (r, n.disk) :=
    ⟨_, Prod.ext rfl (hmemory out.text n.disk)⟩
  have hload := loadInProcess_of_readText hdump hload
  cases r with
  | error e =>
    rw [build_of_error hload] at hbuild
    cases hbuild
  | ok u =>
    rw [build_of_load hload, h.verify, hinspect] at hbuild
    cases hbuild

/-- A file stays where it is if a directory stands in the place of its copy. -/
theorem convert_without_copy (h : Delivered s dumper target m y tables) {b : Location}
    (hfile : m.disk.isFile target = true) (hb : m.disk.Names target.aside b)
    (hdir : m.disk.find? b = some .directory) (account : Account) (final : Machine) :
    convert s dumper s.loader target m ≠ (.ok account, final) := by
  intro hok
  obtain ⟨m1, raw, hdumped, -⟩ := h.dumped
  obtain ⟨out, kept, n, -, haside, -⟩ := hdumped.stages_of_ok hok
  have hkeeps := (hdumped.keepsDirectories out).trans (isSetAside_of_ok haside).keepsDirectories
  obtain ⟨c, hc⟩ := Disk.isFile_iff.mp hfile
  obtain ⟨b', hb', hcopy⟩ := (hdumped.handedOver h.apart haside).copy c hc
  obtain rfl := hb'.unique (hkeeps.names hb)
  rw [(hkeeps.directory_iff b').mpr hdir] at hcopy
  cases hcopy

end

/-- A table with one row that is not brought into a database: the target asks for one in memory, or a
directory stands in the place of the copy of a previous file. -/
theorem convert_misses_table :
    let _ : Platform := .plain fun _ _ _ => .idle
    let id : Dialect.Column := ⟨⟨"id".toList, by decide⟩,
      ⟨"int".toList, none, by decide, by decide, by decide, by decide⟩, false, none, none, .unsaid⟩
    let logs : Listing := ⟨⟨"logs".toList, by decide⟩, [id], by simp, [], none,
      [[.number false ⟨"1".toList, by decide, by decide⟩ none]]⟩
    let y : Layout := ⟨[], by decide, .lf, fun _ => [], true⟩
    let s : Settings := { Settings.default with encoding := .utf8, importer := .embedded }
    let dumper : Dumper := fun dump =>
      Procedure.change (fun d => d.create dump (.ofText (y.listed [logs]))) .io
    let bare : Machine := ⟨⟨[], []⟩, [], []⟩
    let taken : Machine :=
      ⟨⟨[(["shop.db".toList], .file .empty), (["shop.db.bk".toList], .directory)], []⟩, [], []⟩
    (Delivered s dumper (Path.ofString ":memory:") bare y [logs] ∧ ∀ account final,
      convert s dumper s.loader (Path.ofString ":memory:") bare ≠ (.ok account, final)) ∧
    (Delivered s dumper (Path.ofString "shop.db") taken y [logs] ∧ ∀ account final,
      convert s dumper s.loader (Path.ofString "shop.db") taken ≠ (.ok account, final)) := by
  intro platform id logs y s dumper bare taken
  have hid : id.type.IsSimple := ⟨by decide, by decide, fun size hsize => by cases hsize⟩
  have hlogs : logs.Loadable := ⟨by decide, by decide, List.forall_mem_singleton.mpr hid, by decide,
    Listing.filled_of_nullable (by decide), by decide⟩
  have hloadable : Loadable [logs] := ⟨List.forall_mem_singleton.mpr hlogs, by decide⟩
  have hbare := delivered_of_writing (s := s) (Path.ofString ":memory:") (m := bare) y hloadable
    ⟨rfl, rfl, rfl⟩ ⟨_, rfl, rfl, rfl, rfl⟩ (by decide) ⟨_, rfl, rfl, rfl, rfl⟩
    ⟨_, rfl, rfl, rfl, rfl⟩ (by decide) ⟨_, rfl, rfl, rfl, rfl⟩ (by decide)
  have htaken := delivered_of_writing (s := s) (Path.ofString "shop.db") (m := taken) y hloadable
    ⟨rfl, rfl, rfl⟩ ⟨_, rfl, rfl, rfl, rfl⟩ (by decide) ⟨_, rfl, rfl, rfl, rfl⟩
    ⟨_, rfl, rfl, rfl, rfl⟩ (by decide) ⟨_, rfl, rfl, rfl, rfl⟩ (by decide)
  exact ⟨⟨hbare, convert_in_memory hbare (Engine.plain_load_of_memory (by decide))⟩,
    htaken, convert_without_copy htaken (by decide) ⟨_, rfl, rfl, rfl, rfl⟩ (by decide)⟩

end DumpConversion
