import DumpConversion.Proofs.Database.Queries

/-! # What an inspection finds

An inspection accepts the files that the engine finds to be intact databases, as long as no step of it
fails. What it lists is right, and it lists everything except tables whose names the pattern of
reserved names takes by mistake: its underscore stands for any character.

* `Inventory.Describes`: the entries of an inventory are right.
* `Engine.Inspected`, `inspection_sound`: when an inspection succeeds, how it fails, and that its
  inventory is right.
* `Catalog.ordinaryTables`, `inspect_complete_iff`: when the inventory is complete.
-/

namespace DumpConversion

set_option autoImplicit false

/-! ## Inventories -/

/-- The tables whose names the pattern of reserved names does not take. -/
def Catalog.userTables (k : Catalog) : List TableCount :=
  k.tables.filter fun t => !isReservedName t.name

/-- What an inventory says about a database is right. -/
structure Inventory.Describes (i : Inventory) (k : Catalog) : Prop where
  integrity : i.integrity = intactAnswer
  increasing : i.tables.Pairwise fun a b => k.encode a.name < k.encode b.name
  counted : ∀ e ∈ i.tables, e ∈ k.tables
  no_view : ∀ e ∈ i.tables, e.name ∉ k.views
  not_internal : ∀ e ∈ i.tables, ¬ protectedStart <+: foldCase e.name
  rowCount : i.rowCount = (i.tables.map TableCount.rows).foldr (· + ·) 0

theorem Inventory.rowCount_of_perm {i : Inventory} {counts : List TableCount}
    (h : i.tables.Perm counts) : i.rowCount = counts.foldr (fun t n => t.rows + n) 0 := by
  have hcommutes : LeftCommutative fun (t : TableCount) n => t.rows + n :=
    ⟨fun t u n => by omega⟩
  exact h.foldr_eq 0

theorem isReservedName_of_protected {n : Text} (h : protectedStart <+: foldCase n) :
    isReservedName n = true := by
  refine isReservedName_iff.mpr ⟨List.IsPrefix.trans (by decide) h, ?_⟩
  have hlength := h.length_le
  rw [foldCase, List.length_map] at hlength
  exact Nat.lt_of_lt_of_le (by decide) hlength

theorem perm_of_map {α β : Type} {f : α → β} {xs ys : List α}
    (hinj : ∀ x ∈ xs, ∀ y ∈ ys, f x = f y → x = y) (hnodup : (ys.map f).Nodup)
    (h : (xs.map f).Perm (ys.map f)) : xs.Perm ys := by
  refine (List.perm_ext_iff_of_nodup (h.nodup_iff.mpr hnodup).of_map hnodup.of_map).mpr fun a => ?_
  constructor
  · intro ha
    obtain ⟨y, hy, hname⟩ := List.mem_map.mp (h.mem_iff.mp (List.mem_map_of_mem ha))
    rwa [hinj a ha y hy hname.symm]
  · intro ha
    obtain ⟨x, hx, hname⟩ := List.mem_map.mp (h.mem_iff.mpr (List.mem_map_of_mem ha))
    rwa [← hinj x hx a ha hname]

namespace Catalog

variable {k : Catalog} {counts : List TableCount} {names : List Text}

theorem tables_nodup (k : Catalog) : (k.tables.map TableCount.name).Nodup :=
  (List.nodup_append.mp k.names_nodup).1

theorem map_userTables (k : Catalog) :
    (k.tables.map TableCount.name).filter (fun n => !matchesPattern reservedPattern n) =
      k.userTables.map TableCount.name := by
  simp only [matchesPattern_reservedPattern, userTables, List.filter_map]
  rfl

theorem userTables_nodup (k : Catalog) : (k.userTables.map TableCount.name).Nodup :=
  k.tables_nodup.sublist (List.filter_sublist.map TableCount.name)

theorem Lists.perm_userTables (h : k.Lists names) (hnames : counts.map TableCount.name = names)
    (htables : ∀ e ∈ counts, e ∈ k.tables) : counts.Perm k.userTables := by
  have hperm := h.perm
  rw [map_userTables, ← hnames] at hperm
  refine perm_of_map (fun x hx y hy => ?_) k.userTables_nodup hperm
  exact List.inj_on_of_nodup_map k.tables_nodup (htables x hx) (List.mem_of_mem_filter hy)

theorem Lists.sorted_counts (h : k.Lists names) (hnames : counts.map TableCount.name = names) :
    counts.Pairwise fun a b => k.encode a.name ≤ k.encode b.name := by
  have hsorted := h.sorted
  rwa [← hnames, List.pairwise_map] at hsorted

theorem encode_lt {a b : Text} (k : Catalog) (h : k.encode a ≤ k.encode b) (hne : a ≠ b) :
    k.encode a < k.encode b := by
  by_contra hnot
  exact hne (k.encode_injective (List.le_antisymm h (List.not_lt.mp hnot)))

/-- Tables of the user that come in the order of their names describe the database. -/
theorem describes (hperm : counts.Perm k.userTables)
    (hsorted : counts.Pairwise fun a b => k.encode a.name ≤ k.encode b.name) :
    Inventory.Describes ⟨intactAnswer, counts⟩ k := by
  have hlisted : ∀ e ∈ counts, e ∈ k.tables ∧ isReservedName e.name = false := by
    intro e he
    obtain ⟨hmem, hreserved⟩ := List.mem_filter.mp (hperm.mem_iff.mp he)
    exact ⟨hmem, by simpa using hreserved⟩
  have hapart : counts.Pairwise fun a b => a.name ≠ b.name :=
    List.pairwise_map.mp ((hperm.map TableCount.name).nodup_iff.mpr k.userTables_nodup)
  refine ⟨rfl, ?_, fun e he => (hlisted e he).1, ?_, ?_, List.foldr_map.symm⟩
  · exact (hsorted.and hapart).imp fun h => k.encode_lt h.1 h.2
  · intro e he hview
    exact (List.nodup_append.mp k.names_nodup).2.2 _ (List.mem_map_of_mem (hlisted e he).1) _ hview
      rfl
  · intro e he hstart
    have hreserved := (hlisted e he).2
    rw [isReservedName_of_protected hstart] at hreserved
    cases hreserved

end Catalog

/-! ## Soundness -/

namespace Engine

variable {engine : Engine} {kind : Session engine.Connection → Prop} {beside : List Path}
variable {p : Path} {d : Disk} {finding : Finding} {k : Catalog}
variable {s s' s'' : Session engine.Connection} {lines names : List Text}
variable {counts : List TableCount}

theorem Shows.kind_of_checked (h : engine.Shows kind beside p d finding)
    (hchecked : engine.Checked p d lines s) : kind s := by
  obtain ⟨connection, d', hopen, hcheck⟩ := hchecked
  exact (h.reading.rows_eq (by simp) (h.opens.kind connection d' hopen) hcheck).1

theorem Shows.reported (h : engine.Shows kind beside p d finding)
    (hchecked : engine.Checked p d lines s) : finding.Reported ⟨lines, none⟩ := by
  obtain ⟨connection, d', hopen, hcheck⟩ := hchecked
  have hanswer := h.finds.check _ (h.opens.kind connection d' hopen)
  rwa [hcheck] at hanswer

theorem Shows.exists_intact (h : engine.Shows kind beside p d finding)
    (hchecked : engine.Checked p d [intactAnswer] s) : ∃ k, finding = .intact k := by
  have hreported := h.reported hchecked
  cases finding with
  | intact k => exact ⟨k, rfl⟩
  | damaged problems hproblems => exact absurd (hreported rfl).symm hproblems
  | foreign => exact absurd rfl hreported

/-- Tables are counted under the names that are asked for, each with its own rows. -/
theorem Counted.entries (h : engine.Counted names s counts s')
    (hreading : engine.Reading kind beside) (hfinds : engine.Finds kind (.intact k)) (hs : kind s)
    (hnames : ∀ n ∈ names, n ∈ k.tables.map TableCount.name) :
    counts.map TableCount.name = names ∧ ∀ e ∈ counts, e ∈ k.tables := by
  induction h with
  | nil => exact ⟨rfl, List.forall_mem_nil _⟩
  | @cons name names s s' s'' rows counts hcount _ ih =>
    obtain ⟨hname, hothers⟩ := List.forall_mem_cons.mp hnames
    obtain ⟨t, ht, rfl⟩ := List.mem_map.mp hname
    obtain ⟨hrest, htables⟩ := ih (hreading.count_eq hs hcount).1 hothers
    have hrows : rows = t.rows := by
      refine hfinds.count k rfl s hs t ht rows ?_
      rw [← countQuery_eq, hcount]
    rw [hrows, Int.toNat_natCast, List.map_cons, hrest]
    exact ⟨rfl, List.forall_mem_cons.mpr ⟨ht, htables⟩⟩

/-- What is listed is right and complete, up to the pattern of reserved names. -/
theorem Shows.listed (h : engine.Shows kind beside p d (.intact k))
    (hchecked : engine.Checked p d [intactAnswer] s)
    (hlist : engine.rows tablesQuery s = (⟨names, none⟩, s'))
    (hcounted : engine.Counted names s' counts s'') :
    counts.Perm k.userTables ∧
      counts.Pairwise fun a b => k.encode a.name ≤ k.encode b.name := by
  have hs := h.kind_of_checked hchecked
  have hlists : k.Lists names := h.finds.list k rfl s hs names (congrArg Prod.fst hlist)
  have hnames : ∀ n ∈ names, n ∈ k.tables.map TableCount.name :=
    fun n hn => List.mem_of_mem_filter (hlists.perm.mem_iff.mp hn)
  obtain ⟨hentries, htables⟩ :=
    hcounted.entries h.reading h.finds (h.reading.rows_eq (by simp) hs hlist).1 hnames
  exact ⟨hlists.perm_userTables hentries htables, hlists.sorted_counts hentries⟩

theorem Shows.exists_counts (h : engine.Shows kind beside p d (.intact k))
    (hfile : d.isFile p = true) (hserves : ∀ fault, ¬ engine.Fails p d fault) :
    ∃ counts, (engine.inspect p d).1 = .ok ⟨intactAnswer, counts⟩ ∧ counts.Perm k.userTables ∧
      counts.Pairwise fun a b => k.encode a.name ≤ k.encode b.name := by
  have hends := engine.inspect_ends hfile
  generalize (engine.inspect p d).1 = r at hends
  cases hends with
  | failed hfails => exact absurd hfails (hserves _)
  | reported hchecked hlines => exact absurd (h.reported hchecked rfl) hlines
  | listed hchecked hlist hcounted => exact ⟨_, rfl, h.listed hchecked hlist hcounted⟩

/-- How the inspection of a path ends, and on what disk. -/
structure Inspected (engine : Engine) (beside : List Path) (p : Path) (d : Disk)
    (finding : Finding) (r : Except Failure Inventory) (d' : Disk) : Prop where
  changes : d.ChangesOnly beside d'
  missing : d.isFile p = false → r = .error (.inspection p .notCreated) ∧ d' = d
  accepted : (∃ i, r = .ok i) ↔
    d.isFile p = true ∧ (∃ k, finding = .intact k) ∧ ∀ fault, ¬ engine.Fails p d fault
  described : ∀ i, r = .ok i → ∃ k, finding = .intact k ∧ i.Describes k
  damaged : ∀ problems report, d.isFile p = true → finding = .damaged problems report →
    (∀ fault, ¬ engine.Fails p d fault) →
    r = .error (.inspection p (.reported (Text.joinWith "; ".toList problems)))
  failed : ∀ fault, r = .error (.database fault) ↔ d.isFile p = true ∧ engine.Fails p d fault
  foreign : d.isFile p = true → finding = .foreign → ∃ fault, r = .error (.database fault)

theorem inspected_of_missing (beside : List Path) (finding : Finding) (hfile : d.isFile p = false) :
    engine.Inspected beside p d finding (.error (.inspection p .notCreated)) d where
  changes := Disk.changesOnly_refl beside d
  missing _ := ⟨rfl, rfl⟩
  accepted := iff_of_false nofun fun h => by simp [hfile] at h
  described := nofun
  damaged _ _ h := by simp [hfile] at h
  failed _ := iff_of_false nofun fun h => by simp [hfile] at h
  foreign h := by simp [hfile] at h

theorem Shows.inspected (h : engine.Shows kind beside p d finding) (hfile : d.isFile p = true) :
    engine.Inspected beside p d finding (engine.inspect p d).1 (engine.inspect p d).2 := by
  have hchanges := h.opens.inspect_changesOnly h.reading
  have hends := engine.inspect_ends hfile
  have hfault : ∀ fault, engine.Fails p d fault →
      (engine.inspect p d).1 = .error (.database fault) := fun fault hfails => hfails.inspect hfile
  have hmissing : d.isFile p = false → (engine.inspect p d).1 =
      .error (.inspection p .notCreated) ∧ (engine.inspect p d).2 = d := by simp [hfile]
  generalize (engine.inspect p d).1 = r at hends hfault hmissing
  cases hends with
  | @failed fault hfails =>
    refine ⟨hchanges, hmissing, ?_, nofun, ?_, ?_, fun _ _ => ⟨fault, rfl⟩⟩
    · exact iff_of_false nofun fun h => h.2.2 fault hfails
    · exact fun _ _ _ _ hserves => absurd hfails (hserves fault)
    · intro other
      refine ⟨fun heq => ?_, fun hother => hfault other hother.2⟩
      cases heq
      exact ⟨hfile, hfails⟩
  | @reported lines s hchecked hlines =>
    have hreported := h.reported hchecked
    refine ⟨hchanges, hmissing, ?_, nofun, ?_, ?_, ?_⟩
    · refine iff_of_false nofun ?_
      rintro ⟨-, ⟨k, rfl⟩, -⟩
      exact hlines (hreported rfl)
    · rintro problems report - rfl -
      rw [← show lines = problems from hreported rfl]
      rfl
    · exact fun fault => ⟨nofun, fun hfails => hfault fault hfails.2⟩
    · rintro - rfl
      exact absurd rfl hreported
  | @listed s s' s'' names counts hchecked hlist hcounted =>
    obtain ⟨k, rfl⟩ := h.exists_intact hchecked
    have hserves : ∀ fault, ¬ engine.Fails p d fault := fun fault hfails => by
      cases hfault fault hfails
    obtain ⟨hperm, hsorted⟩ := h.listed hchecked hlist hcounted
    refine ⟨hchanges, hmissing, iff_of_true ⟨_, rfl⟩ ⟨hfile, ⟨k, rfl⟩, hserves⟩, ?_, nofun, ?_, nofun⟩
    · rintro i heq
      cases heq
      exact ⟨k, rfl, Catalog.describes hperm hsorted⟩
    · exact fun fault => ⟨nofun, fun hfails => absurd hfails.2 (hserves fault)⟩

end Engine

/-- An inspection changes nothing but the files that the engine keeps beside a database that it reads.
It succeeds exactly for the files that are found to be intact databases, as long as no step of it
fails; what it lists is right, and its failure says why it does not succeed. -/
theorem inspection_sound [Platform] (p : Path) (m : Machine)
    {kind : Session Platform.engine.Connection → Prop} {beside : List Path} {finding : Finding}
    (h : Platform.engine.Shows kind beside p m.disk finding) :
    ∃ r d, inspect p m = (r, { m with disk := d }) ∧
      Platform.engine.Inspected beside p m.disk finding r d := by
  refine ⟨(Platform.engine.inspect p m.disk).1, (Platform.engine.inspect p m.disk).2, rfl, ?_⟩
  cases hfile : m.disk.isFile p with
  | true => exact h.inspected hfile
  | false =>
    rw [Platform.engine.inspect_of_missing hfile]
    exact Engine.inspected_of_missing beside finding hfile

/-- A table with a quote in its name is counted, a view and an internal table are not. -/
theorem inspection_sound_quote :
    let _ : Platform := .plain fun _ _ _ => .idle
    let p := Path.ofString "shop.db"
    let quoted : Table := ⟨"a\"b".toList, [⟨['x'], true⟩], [[.number ['1']], [.number ['2']]]⟩
    let internal : Table := ⟨"sqlite_sequence".toList, [⟨['n'], false⟩], [[.number ['2']]]⟩
    let db : Database := ⟨[.view "v".toList, .table quoted, .table internal]⟩
    let m : Machine := ⟨⟨[(["shop.db".toList], .file (.database db))], []⟩, [], []⟩
    ∃ h : db.WellNamed,
      Engine.plain.Shows (fun s => Engine.IsTo (some db) s.connection) [] p m.disk
        (.intact (db.catalog h)) ∧
      ∃ i d, inspect p m = (.ok i, { m with disk := d }) ∧ m.disk.Same d ∧
        ∀ e ∈ i.tables, e.name = "a\"b".toList ∧ e.rows = 2 := by
  intro platform p quoted internal db m
  have hnamed : db.WellNamed := ⟨by decide, by decide⟩
  have hopens : m.disk.Opens p db := .file (c := .database db) (by decide) rfl rfl
  have hshows := Engine.plain_shows_intact hopens hnamed (by decide) []
  obtain ⟨r, d, hr, hinspected⟩ := inspection_sound p m hshows
  obtain ⟨i, rfl⟩ := hinspected.accepted.mpr
    ⟨hopens.isFile, ⟨_, rfl⟩, Engine.plain_not_fails hopens hnamed⟩
  obtain ⟨k, hk, hdescribes⟩ := hinspected.described i rfl
  cases hk
  have hsame := Disk.changesOnly_nil_iff.mp hinspected.changes
  refine ⟨hnamed, hshows, i, d, hr, hsame, fun e he => ?_⟩
  have htable := hdescribes.counted e he
  have htables : (db.catalog hnamed).tables = [quoted.counted, internal.counted] := rfl
  rw [htables, List.mem_pair] at htable
  rcases htable with rfl | rfl
  · exact ⟨rfl, rfl⟩
  · exact absurd (by decide) (hdescribes.not_internal _ he)

/-- A file of one byte is taken for an empty database, and a file under a name that asks for memory
is not looked at. -/
theorem inspection_accepts_no_database :
    let _ : Platform := .plain fun _ _ _ => .idle
    let m : Machine := ⟨⟨[(["shop.db".toList], .file (.ofText ['x'])),
      ([":memory:".toList], .file (.ofText "no database".toList))], []⟩, [], []⟩
    ∀ p ∈ [Path.ofString "shop.db", Path.ofString ":memory:"],
      (inspect p m).1 = .ok ⟨intactAnswer, []⟩ ∧
        ∃ s : Text, s ≠ [] ∧ m.disk.read p = .ok (.ofText s) := by
  intro platform m
  have hempty : ∀ p, m.disk.Opens p .empty → (inspect p m).1 = .ok ⟨intactAnswer, []⟩ := by
    intro p h
    have hnamed : Database.empty.WellNamed := ⟨by decide, by decide⟩
    obtain ⟨counts, hinspect, hperm, -⟩ := (Engine.plain_shows_intact h hnamed rfl []).exists_counts
      h.isFile (Engine.plain_not_fails h hnamed)
    rw [List.perm_nil.mp hperm] at hinspect
    exact hinspect
  have hbyte : m.disk.read (Path.ofString "shop.db") = .ok (.ofText ['x']) := rfl
  have hmemory : m.disk.read (Path.ofString ":memory:") = .ok (.ofText "no database".toList) := rfl
  rw [List.forall_mem_cons, List.forall_mem_singleton]
  exact ⟨⟨hempty _ (.file (by decide) hbyte rfl), ['x'], by decide, hbyte⟩,
    ⟨hempty _ (.memory (by decide) (Disk.isFile_iff.mpr ⟨_, hmemory⟩)), _, by decide, hmemory⟩⟩

/-! ## Completeness -/

/-- The tables whose names do not have the start that belongs to the database engine. -/
def Catalog.ordinaryTables (k : Catalog) : List TableCount :=
  k.tables.filter fun t => !protectedStart.isPrefixOf (foldCase t.name)

theorem isReservedName_iff_append {n : Text} :
    isReservedName n = true ↔ ∃ c rest, foldCase n = reservedStart ++ c :: rest := by
  rw [isReservedName_iff]
  constructor
  · rintro ⟨⟨rest, hrest⟩, hlength⟩
    cases rest with
    | nil =>
      have heq : (foldCase n).length = n.length := List.length_map _
      rw [← hrest, List.append_nil] at heq
      omega
    | cons c rest => exact ⟨c, rest, hrest.symm⟩
  · rintro ⟨c, rest, hrest⟩
    refine ⟨⟨c :: rest, hrest.symm⟩, ?_⟩
    have heq : (foldCase n).length = n.length := List.length_map _
    rw [hrest, List.length_append, List.length_cons] at heq
    omega

theorem protectedStart_prefix_iff {n : Text} :
    protectedStart <+: foldCase n ↔ ∃ rest, foldCase n = reservedStart ++ '_' :: rest := by
  have hsplit (rest : Text) : protectedStart ++ rest = reservedStart ++ '_' :: rest := rfl
  constructor
  · rintro ⟨rest, hrest⟩
    exact ⟨rest, hrest.symm⟩
  · rintro ⟨rest, hrest⟩
    exact ⟨rest, (hsplit rest).trans hrest.symm⟩

namespace Catalog

theorem userTables_eq_filter (k : Catalog) :
    k.userTables = k.ordinaryTables.filter fun t => !isReservedName t.name := by
  rw [ordinaryTables, List.filter_filter, userTables]
  refine List.filter_congr fun t _ => ?_
  cases hreserved : isReservedName t.name with
  | true => rfl
  | false =>
    have hnot : protectedStart.isPrefixOf (foldCase t.name) = false := by
      rw [Bool.eq_false_iff, Ne, List.isPrefixOf_iff_prefix]
      intro hstart
      rw [isReservedName_of_protected hstart] at hreserved
      cases hreserved
    rw [hnot]
    rfl

/-- Tables are missing exactly where the start `sqlite` goes on with another character than an
underscore. -/
theorem length_userTables_eq_iff (k : Catalog) :
    k.userTables.length = k.ordinaryTables.length ↔
      ∀ t ∈ k.tables, ∀ c rest, foldCase t.name = reservedStart ++ c :: rest → c = '_' := by
  rw [k.userTables_eq_filter, List.length_filter_eq_length_iff]
  constructor
  · intro h t ht c rest hname
    by_contra hc
    have hordinary : t ∈ k.ordinaryTables := by
      refine List.mem_filter.mpr ⟨ht, ?_⟩
      rw [Bool.not_eq_true', Bool.eq_false_iff, Ne, List.isPrefixOf_iff_prefix]
      intro hstart
      obtain ⟨rest', hrest'⟩ := protectedStart_prefix_iff.mp hstart
      rw [hname] at hrest'
      cases List.append_cancel_left hrest'
      exact hc rfl
    have hlisted := h t hordinary
    rw [isReservedName_iff_append.mpr ⟨c, rest, hname⟩] at hlisted
    cases hlisted
  · intro h t ht
    obtain ⟨hmem, hordinary⟩ := List.mem_filter.mp ht
    rw [Bool.not_eq_true', Bool.eq_false_iff]
    intro hreserved
    obtain ⟨c, rest, hname⟩ := isReservedName_iff_append.mp hreserved
    rw [h t hmem c rest hname] at hname
    rw [List.isPrefixOf_iff_prefix.mpr (protectedStart_prefix_iff.mpr ⟨rest, hname⟩)] at hordinary
    cases hordinary

end Catalog

/-- An inspection of an intact database lists the tables whose names the pattern of reserved names does
not take. These are all tables of the user exactly when no name begins with `sqlite` and goes on with
another character than an underscore. -/
theorem inspect_complete_iff [Platform] {p : Path} {m : Machine} {k : Catalog}
    {kind : Session Platform.engine.Connection → Prop} {beside : List Path}
    (h : Platform.engine.Shows kind beside p m.disk (.intact k)) (hfile : m.disk.isFile p = true)
    (hserves : ∀ fault, ¬ Platform.engine.Fails p m.disk fault) :
    ∃ i, (inspect p m).1 = .ok i ∧ i.tables.Perm k.userTables ∧
      (i.tables.Perm k.ordinaryTables ↔
        ∀ t ∈ k.tables, ∀ c rest, foldCase t.name = reservedStart ++ c :: rest → c = '_') := by
  obtain ⟨counts, hinspect, hlisted, -⟩ := h.exists_counts hfile hserves
  refine ⟨_, hinspect, hlisted, ?_⟩
  rw [← k.length_userTables_eq_iff]
  constructor
  · intro hperm
    exact (hlisted.symm.trans hperm).length_eq
  · intro hlength
    have hsame : k.userTables = k.ordinaryTables := by
      rw [k.userTables_eq_filter] at hlength ⊢
      exact List.filter_eq_self.mpr (List.length_filter_eq_length_iff.mp hlength)
    rw [← hsame]
    exact hlisted

/-- The name `sqlite` by itself does no harm, nor does an internal table. -/
theorem inspect_complete_of_underscores :
    let _ : Platform := .plain fun _ _ _ => .idle
    let p := Path.ofString "shop.db"
    let orders : Table := ⟨"orders".toList, [⟨['x'], true⟩], [[.number ['1']]]⟩
    let internal : Table := ⟨"sqlite_sequence".toList, [⟨['n'], false⟩], [[.number ['1']]]⟩
    let short : Table := ⟨"SQLite".toList, [⟨['x'], false⟩], []⟩
    let db : Database := ⟨[.table orders, .table internal, .table short]⟩
    let m : Machine := ⟨⟨[(["shop.db".toList], .file (.database db))], []⟩, [], []⟩
    (m.disk.isFile p = true ∧ (∀ fault, ¬ Engine.plain.Fails p m.disk fault) ∧
      ∃ h : db.WellNamed, Engine.plain.Shows (fun s => Engine.IsTo (some db) s.connection) [] p
        m.disk (.intact (db.catalog h))) ∧
      ∃ i, (inspect p m).1 = .ok i ∧
        i.tables.Perm [⟨"orders".toList, 1⟩, ⟨"SQLite".toList, 0⟩] := by
  intro platform p orders internal short db m
  have hopens : m.disk.Opens p db := .file (c := .database db) (by decide) rfl rfl
  have hnamed : db.WellNamed := ⟨by decide, by decide⟩
  have hshows := Engine.plain_shows_intact hopens hnamed (by decide) []
  have hserves := Engine.plain_not_fails hopens hnamed
  obtain ⟨i, hi, -, hcomplete⟩ := inspect_complete_iff hshows hopens.isFile hserves
  refine ⟨⟨hopens.isFile, hserves, hnamed, hshows⟩, i, hi, hcomplete.mpr fun t ht c rest hname => ?_⟩
  have htables : (db.catalog hnamed).tables =
      [orders.counted, internal.counted, short.counted] := rfl
  rw [htables, List.mem_cons, List.mem_pair] at ht
  rcases ht with rfl | rfl | rfl
  · cases hname
  · cases hname
    rfl
  · cases hname

/-- A table of the user is left out. -/
theorem inspect_misses_table :
    let _ : Platform := .plain fun _ _ _ => .idle
    let p := Path.ofString "shop.db"
    let t : Table := ⟨"sqlitex".toList, [⟨['x'], true⟩], [[.number ['1']]]⟩
    let db : Database := ⟨[.table t]⟩
    let m : Machine := ⟨⟨[(["shop.db".toList], .file (.database db))], []⟩, [], []⟩
    m.disk.read p = .ok (.database db) ∧ db.problems = [] ∧
      (∀ h : db.WellNamed, (db.catalog h).ordinaryTables = [t.counted]) ∧
      (inspect p m).1 = .ok ⟨intactAnswer, []⟩ := by
  intro platform p t db m
  have hopens : m.disk.Opens p db := .file (c := .database db) (by decide) rfl rfl
  have hnamed : db.WellNamed := ⟨by decide, by decide⟩
  obtain ⟨counts, hinspect, hperm, -⟩ :=
    (Engine.plain_shows_intact hopens hnamed (by decide) []).exists_counts hopens.isFile
      (Engine.plain_not_fails hopens hnamed)
  rw [List.perm_nil.mp hperm] at hinspect
  exact ⟨rfl, by decide, fun _ => rfl, hinspect⟩

end DumpConversion
