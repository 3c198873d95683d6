import DumpConversion.Proofs.Conversion.Recovery

/-! # The survival of the previous database

A conversion starts on a disk with a database at its target. Its four paths are set independently of
each other, and two of them may lead to one place. Whatever the dumper and the loader do at the paths
they are given, the previous database is lost in one way only: by a dump that is written in its place.

* `Disk.Keeps`: a content is still there, at a path or as its copy.
* `keeps_of_build`: after the previous database has been set aside it is out of reach.
* `convert_keeps_previous`: it survives every conversion whose dump is written elsewhere, and only
  those.
-/

namespace DumpConversion

set_option autoImplicit false

namespace Disk

/-! ## Contents that are still there -/

/-- The content is still there, at the path or as its copy. -/
def Keeps (d : Disk) (p : Path) (c : Content) : Prop := d.read p = .ok c ∨ d.read p.aside = .ok c

section

variable {d e : Disk} {p q : Path} {c : Content}

/-- Changes elsewhere leave the content where it is. -/
theorem ChangesOnly.keeps {paths : List Path} (h : d.ChangesOnly paths e)
    (hapart : ∀ p ∈ paths, ∀ r ∈ [q, q.aside], ¬ d.Overwrites p r) (hkeeps : d.Keeps q c) :
    e.Keeps q c :=
  hkeeps.imp (h.read fun p hp => hapart p hp q (by simp))
    (h.read fun p hp => hapart p hp q.aside (by simp))

/-- A content that can be read after another one has been written was there before, and somewhere
else. -/
theorem read_of_read_set {l : Location} {x : Content} (hl : d.find? l ≠ some .directory)
    (hx : x ≠ c) (h : (d.set l (.file x)).read q = .ok c) :
    d.read q = .ok c ∧ ∀ t, d.locate q = .ok t → t.location ≠ l := by
  have hkeeps := KeepsDirectories.set hl x
  have hne : l ≠ [] := by
    rintro rfl
    exact hl rfl
  obtain ⟨t, f, ht, -, hf, hc⟩ := exists_of_read h
  have htl : t.location ≠ l := by
    intro heq
    rw [heq, find?_set_self d l _ hne] at hf
    cases hf
    exact hx (Option.some.inj hc)
  have hplace : ∀ u, d.locate q = .ok u → u.location ≠ l := by
    intro u hu
    rw [hkeeps.locate hu] at ht
    cases ht
    exact htl
  refine ⟨hkeeps.symm.read (fun u hu => ?_) h, hplace⟩
  rw [find?_set_of_ne d _ (hplace u (hkeeps.symm.locate hu))]

/-- Wherever a failed build leads, the file that was set aside is in one of its two places, and the
directories are the same. -/
theorem recovered_keeps {l b : Location} {f : Entry} (hl : d.Names q l) (hf : d.find? l = some f)
    (hc : f.content? = some c) (hb : d.Names q.aside b) (hne : b ≠ l)
    (hdir : d.find? b ≠ some .directory) (restore : Bool) :
    d.KeepsDirectories (d.recovered restore q) ∧ (d.recovered restore q).Keeps q c := by
  have hldir := not_directory_of_content hf hc
  have hset := KeepsDirectories.set hldir c
  have herase := KeepsDirectories.erase hldir
  rw [recovered, hl.read hf hc]
  cases restore with
  | true =>
    have hback : d.KeepsDirectories ((d.set l (.file c)).erase b) :=
      KeepsDirectories.set_erase hldir hdir c
    simp only [if_true]
    rw [hl.holding, (hset.names hb).without]
    refine ⟨hback, .inl ((hback.names hl).read (e := .file c) ?_ rfl)⟩
    rw [find?_erase_of_ne _ hne.symm, find?_set_self d l _ hl.ne_nil]
  | false =>
    have haside : (d.erase l).find? b ≠ some .directory := by
      rwa [find?_erase_of_ne d hne]
    have hmoved := herase.trans (KeepsDirectories.set haside c)
    simp only [Bool.false_eq_true, if_false]
    rw [hl.without, (herase.names hb).holding]
    exact ⟨hmoved, .inr ((hmoved.names hb).read (find?_set_self _ b (.file c) hb.ne_nil) rfl)⟩

end

end Disk

/-! ## The stages -/

section

variable {s : Settings} {dumper : Dumper} {loader : Loader} {target : Path} {c : Content}
variable {beside : List Path} {m n : Machine}

theorem sanitizeInto_changesOnly (input output : Path) (encoding : Charset) (n : Machine) :
    n.disk.ChangesOnly [output] (sanitizeInto input output encoding n).2.disk := by
  cases hcontent : sanitizedContent n.disk input encoding with
  | error e =>
    rw [sanitizeInto_of_error hcontent]
    exact Disk.changesOnly_refl [output] n.disk
  | ok out =>
    rw [sanitizeInto, Procedure.bind_of_ok (Procedure.disk_apply n),
      Procedure.bind_of_ok (Procedure.check_of_ok hcontent n)]
    cases hcreate : n.disk.create output (.ofText out.text) with
    | ok d =>
      rw [Procedure.bind_of_ok (Procedure.change_of_ok hcreate)]
      exact Disk.changesOnly_of_create List.mem_cons_self hcreate
    | error e =>
      rw [Procedure.bind_of_error (Procedure.change_of_error hcreate)]
      exact Disk.changesOnly_refl [output] n.disk

/-- From the moment that a file is set aside, its content is out of reach of the loader, of the engine
and of what is done after them. -/
theorem keeps_of_build {kept : Option KeptCopy} {n' : Machine} (hread : m.disk.read target = .ok c)
    (haside : setAside target m = (.ok kept, n))
    (hchange : n.disk.ChangesOnly (target :: beside) n'.disk)
    (hbeside : ∀ p ∈ beside, ∀ q ∈ [target, target.aside], ¬ m.disk.Overwrites p q) :
    n'.disk.Keeps target c ∧ (undoBuild s target kept.isSome n').2.disk.Keeps target c := by
  have hdone := isSetAside_of_ok haside
  have hcopied : n'.disk.read target.aside = .ok c := by
    obtain ⟨b, hb, hcopy⟩ := hdone.copy c hread
    refine hchange.read_aside (fun p hp hover => ?_) hb hcopy
    exact hbeside p hp target.aside (by simp) (hdone.keepsDirectories.overwrites hover)
  have hrecovers := undoBuild_recovers (s := s) haside hchange hbeside
  refine ⟨.inr hcopied, ?_⟩
  have houtcome := setAside_outcome target m
  rw [haside] at houtcome
  cases houtcome with
  | absent habsent =>
    rw [Disk.isPresent_of_isFile (Disk.isFile_iff.mpr ⟨c, hread⟩)] at habsent
    cases habsent
  | moved hl he hc hb hne hdir =>
    rw [hl.read he hc] at hread
    cases hread
    obtain ⟨hkeeps, hback⟩ := Disk.recovered_keeps hl he hc hb hne hdir s.restoreOnFailure
    exact hrecovers.keeps (fun p hp q hq hover => hbeside p hp q hq (hkeeps.overwrites hover)) hback

/-- A file that is neither the dump nor the unfinished dump survives every conversion into it. -/
theorem convert_keeps [Platform] (hread : m.disk.read target = .ok c)
    (hdumper : m.disk.ChangesOnly [s.dumpFile, s.dumpFile.unfinished] (dumper s.dumpFile m).2.disk)
    (hloader : ∀ n : Machine, n.disk.ChangesOnly [target] (loader target s.dumpFile n).2.disk)
    (hapart : ∀ p ∈ [s.dumpFile, s.dumpFile.unfinished], ¬ m.disk.Overwrites p target)
    (hreads : Platform.engine.ReadsBeside target beside)
    (hbeside : ∀ p ∈ beside, ∀ q ∈ [target, target.aside], ¬ m.disk.Overwrites p q) :
    (convert s dumper loader target m).2.disk.Keeps target c := by
  obtain ⟨r1, m1, hdump⟩ : ∃ r m1, dumper s.dumpFile m = (r, m1) := ⟨_, _, rfl⟩
  rw [hdump] at hdumper
  have hread1 := hdumper.read hapart hread
  cases r1 with
  | error e =>
    rw [convert_of_dump_error hdump]
    exact .inl hread1
  | ok u =>
    obtain ⟨r2, m2, hsanitize⟩ :
      ∃ r m2, sanitizeInto s.dumpFile s.dumpFile s.encoding m1 = (r, m2) := ⟨_, _, rfl⟩
    have hchange := sanitizeInto_changesOnly s.dumpFile s.dumpFile s.encoding m1
    rw [hsanitize] at hchange
    have hkeeps := hdumper.keepsDirectories.trans hchange.keepsDirectories
    have hread2 : m2.disk.read target = .ok c := by
      refine hchange.read (fun p hp hover => ?_) hread1
      rw [List.mem_singleton] at hp
      subst hp
      exact hapart s.dumpFile List.mem_cons_self (hdumper.keepsDirectories.overwrites hover)
    cases r2 with
    | error e =>
      rw [convert_of_sanitize_error hdump hsanitize]
      exact .inl hread2
    | ok statistics =>
      obtain ⟨r3, n, haside⟩ : ∃ r n, setAside target m2 = (r, n) := ⟨_, _, rfl⟩
      cases r3 with
      | error e =>
        have houtcome := setAside_outcome target m2
        rw [haside] at houtcome
        cases houtcome with
        | refused _ _ =>
          rw [convert_of_aside_error hdump hsanitize haside]
          exact .inl hread2
      | ok kept =>
        obtain ⟨r4, n', hbuild⟩ : ∃ r n', build s loader target n = (r, n') := ⟨_, _, rfl⟩
        have hbuilding := build_confined (s := s) (hloader n) hreads
        rw [hbuild] at hbuilding
        obtain ⟨hbuilt, hundone⟩ := keeps_of_build (s := s) hread2 haside hbuilding
          fun p hp q hq hover => hbeside p hp q hq (hkeeps.overwrites hover)
        cases r4 with
        | error e =>
          rw [convert_of_build_error hdump hsanitize haside hbuild]
          exact hundone
        | ok inventory =>
          rw [convert_of_build hdump hsanitize haside hbuild]
          exact hbuilt

/-- A dumper that writes something else in the place of the target, and fails. -/
def spoiling (p : Path) (x : Content) : Dumper := fun _ => do
  Procedure.change (fun d => d.create p x) .io
  Procedure.fail (.io .busy)

theorem spoiling_changesOnly {paths : List Path} {p : Path} (hp : p ∈ paths) (x : Content)
    (q : Path) (n : Machine) : n.disk.ChangesOnly paths (spoiling p x q n).2.disk := by
  have hwriting := changesOnly_of_writing hp x .io n
  cases hcreate : n.disk.create p x with
  | ok d =>
    rw [spoiling, Procedure.bind_of_ok (Procedure.change_of_ok hcreate)]
    rwa [Procedure.change_of_ok hcreate] at hwriting
  | error e =>
    rw [spoiling, Procedure.bind_of_error (Procedure.change_of_error hcreate)]
    exact Disk.changesOnly_refl paths n.disk

theorem spoiling_loses [Platform] {p : Path} {x : Content} (hx : x ≠ c)
    (hover : m.disk.Overwrites p target)
    (hcopy : m.disk.read target.aside ≠ .ok c) (loader : Loader) :
    ¬ (convert s (spoiling p x) loader target m).2.disk.Keeps target c := by
  obtain ⟨t, ht, hp⟩ := hover
  obtain ⟨hnames, hdir⟩ := Disk.writable_eq_ok_iff.mp hp
  have hcreate := hnames.create hdir x
  have hdump : spoiling p x s.dumpFile m =
      (.error (.io .busy), { m with disk := m.disk.set t.location (.file x) }) := by
    rw [spoiling, Procedure.bind_of_ok (Procedure.change_of_ok hcreate)]
    rfl
  rw [convert_of_dump_error hdump]
  rintro (hread | hread)
  · exact (Disk.read_of_read_set hdir hx hread).2 t ht rfl
  · exact hcopy (Disk.read_of_read_set hdir hx hread).1

/-- The content of a file at the target survives a conversion, at the target or as its copy, whether
the conversion succeeds or fails, for every dumper that changes nothing but the dump file and the
unfinished dump, and every loader that changes nothing but the target: provided that neither of the
two dump files takes the place of the target, and no file that the engine keeps beside a database that
it reads takes the place of the target or its copy. If a dump file does, and the copy does not already
hold the content, then some dumper loses it, whatever the loader. -/
theorem convert_keeps_previous [Platform] (hread : m.disk.read target = .ok c) :
    (∀ beside, Platform.engine.ReadsBeside target beside →
      (∀ p ∈ beside, ∀ q ∈ [target, target.aside], ¬ m.disk.Overwrites p q) →
      (∀ p ∈ [s.dumpFile, s.dumpFile.unfinished], ¬ m.disk.Overwrites p target) →
      ∀ (dumper : Dumper) (loader : Loader),
        (∀ n : Machine, n.disk.ChangesOnly [s.dumpFile, s.dumpFile.unfinished]
          (dumper s.dumpFile n).2.disk) →
        (∀ n : Machine, n.disk.ChangesOnly [target] (loader target s.dumpFile n).2.disk) →
        (convert s dumper loader target m).2.disk.Keeps target c) ∧
    ((∃ p ∈ [s.dumpFile, s.dumpFile.unfinished], m.disk.Overwrites p target) →
      m.disk.read target.aside ≠ .ok c →
      ∃ dumper : Dumper,
        (∀ n : Machine, n.disk.ChangesOnly [s.dumpFile, s.dumpFile.unfinished]
          (dumper s.dumpFile n).2.disk) ∧
        ∀ loader : Loader, ¬ (convert s dumper loader target m).2.disk.Keeps target c) := by
  refine ⟨fun beside hreads hbeside hapart dumper loader hdumper hloader =>
    convert_keeps hread (hdumper m) hloader hapart hreads hbeside, ?_⟩
  rintro ⟨p, hp, hover⟩ hcopy
  obtain ⟨x, hx⟩ : ∃ x : Content, x ≠ c := by
    by_cases hempty : Content.empty = c
    · exact ⟨.bytes [0], by rw [← hempty]; decide⟩
    · exact ⟨Content.empty, hempty⟩
  exact ⟨spoiling p x, spoiling_changesOnly hp x s.dumpFile, spoiling_loses hx hover hcopy⟩

end

/-- The dump is written where the copy will be, and then overwritten by the copy; the loader leaves
something that is no database. The previous file survives both. -/
theorem convert_keeps_previous_of_dump_as_copy :
    let _ : Platform := .plain fun _ _ _ => .idle
    let s := { Settings.default with dumpFile := Path.ofString "shop.bk" }
    let target := Path.ofString "shop"
    let m : Machine := ⟨⟨[(["shop".toList], .file (.bytes [7]))], []⟩, [], []⟩
    let dumper : Dumper := fun p => Procedure.change (fun d => d.create p .empty) .io
    let loader : Loader := fun p _ => Procedure.change (fun d => d.create p (.bytes [1, 2])) .io
    m.disk.read target = .ok (.bytes [7]) ∧
      (convert s dumper loader target m).2.disk.Keeps target (.bytes [7]) := by
  intro platform s target m dumper loader
  have hshop : m.disk.Names target ["shop".toList] := ⟨_, rfl, rfl, rfl, rfl⟩
  have hcopy : m.disk.Names s.dumpFile ["shop.bk".toList] := ⟨_, rfl, rfl, rfl, rfl⟩
  have hpart : m.disk.Names s.dumpFile.unfinished ["shop.bk.part".toList] :=
    ⟨_, rfl, rfl, rfl, rfl⟩
  have hread : m.disk.read target = .ok (.bytes [7]) :=
    hshop.read (e := .file (.bytes [7])) rfl rfl
  have hapart : ∀ p ∈ [s.dumpFile, s.dumpFile.unfinished], ¬ m.disk.Overwrites p target := by
    rw [List.forall_mem_cons, List.forall_mem_singleton]
    exact ⟨hcopy.not_overwrites hshop (by decide), hpart.not_overwrites hshop (by decide)⟩
  have hdumper : ∀ n : Machine, n.disk.ChangesOnly [s.dumpFile, s.dumpFile.unfinished]
      (dumper s.dumpFile n).2.disk :=
    fun n => changesOnly_of_writing List.mem_cons_self .empty .io n
  have hloader : ∀ n : Machine, n.disk.ChangesOnly [target] (loader target s.dumpFile n).2.disk :=
    fun n => changesOnly_of_writing List.mem_cons_self (.bytes [1, 2]) .io n
  exact ⟨hread, (convert_keeps_previous (s := s) hread).1 [] (Engine.plain_readsBeside target [])
    (by simp) hapart dumper loader hdumper hloader⟩

/-- Settings that can be used, a dump that succeeds and a loader that succeeds: the dump is written in
the place of the target, the copy is a copy of the dump, and the previous file is nowhere. -/
theorem convert_loses_previous :
    let _ : Platform := .plain fun _ _ _ => .idle
    let s := { Settings.default with
      connection := { Connection.default with database := "shop".toList }
      dumpFile := Path.ofString "shop" }
    let target := Path.ofString "shop"
    let m : Machine := ⟨⟨[(["shop".toList], .file (.bytes [7]))], []⟩, [], []⟩
    let dumper : Dumper := fun p => Procedure.change (fun d => d.create p (.ofText ['x'])) .io
    let loader : Loader := fun p _ => Procedure.change (fun d => d.create p .empty) .io
    s.checkUsable = .ok () ∧ m.disk.read target = .ok (.bytes [7]) ∧
      (∀ n : Machine, n.disk.ChangesOnly [s.dumpFile, s.dumpFile.unfinished]
        (dumper s.dumpFile n).2.disk) ∧
      (∀ n : Machine, n.disk.ChangesOnly [target] (loader target s.dumpFile n).2.disk) ∧
      ∃ account final, convert s dumper loader target m = (.ok account, final) ∧
        final.disk.read target = .ok .empty ∧ final.disk.read target.aside = .ok (.ofText ['x']) ∧
        ¬ final.disk.Keeps target (.bytes [7]) := by
  intro platform s target m dumper loader
  have hasideName : target.aside = Path.ofString "shop.bk" := by decide
  have hdumper : ∀ n : Machine, n.disk.ChangesOnly [s.dumpFile, s.dumpFile.unfinished]
      (dumper s.dumpFile n).2.disk :=
    fun n => changesOnly_of_writing List.mem_cons_self (.ofText ['x']) .io n
  have hloader : ∀ n : Machine, n.disk.ChangesOnly [target] (loader target s.dumpFile n).2.disk :=
    fun n => changesOnly_of_writing List.mem_cons_self .empty .io n
  refine ⟨by decide, rfl, hdumper, hloader, ?_⟩
  -- the disk with the dump in the place of the target, and the disk with the copy of the dump
  let d : Disk := ⟨[(["shop".toList], .file (.ofText ['x']))], []⟩
  let e : Disk :=
    ⟨[(["shop".toList], .file .empty), (["shop.bk".toList], .file (.ofText ['x']))], []⟩
  have hdump : dumper s.dumpFile m = (.ok (), ⟨d, [], []⟩) := rfl
  obtain ⟨statistics, hsanitize⟩ : ∃ statistics,
      sanitizeInto s.dumpFile s.dumpFile s.encoding ⟨d, [], []⟩ = (.ok statistics, ⟨d, [], []⟩) :=
    ⟨_, rfl⟩
  have hshop : d.Names target ["shop".toList] := ⟨_, rfl, rfl, rfl, rfl⟩
  have hcopy : d.Names target.aside ["shop.bk".toList] := by
    rw [hasideName]
    exact ⟨_, rfl, rfl, rfl, rfl⟩
  have haside := setAside_of_file (m := ⟨d, [], []⟩) hshop rfl rfl hcopy (by decide) (by decide)
  have hload : loader target s.dumpFile
      ⟨(d.set ["shop.bk".toList] (.file (.ofText ['x']))).erase ["shop".toList], [], []⟩ =
        (.ok (), ⟨e, [], []⟩) := rfl
  have hread : e.read target = .ok .empty := rfl
  have hreadCopy : e.read target.aside = .ok (.ofText ['x']) := by
    rw [hasideName]
    rfl
  have hbuild := build_of_inspect (s := s) rfl hload
    (inspect_of_engine (Engine.plain_inspect_of_empty (by decide) hread))
  refine ⟨_, _, convert_of_build hdump hsanitize haside hbuild, hread, hreadCopy, ?_⟩
  rw [Disk.Keeps, hread, hreadCopy]
  decide

end DumpConversion
