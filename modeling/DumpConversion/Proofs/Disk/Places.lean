import DumpConversion.Disk.Store
import DumpConversion.Proofs.Bytes.RoundTrip

/-! # Places for files

Where a path leads to hangs on the directories of a disk alone. So the operations of a conversion,
which make and remove files only, can be followed place by place.

* `Disk.Names`: the place that a path names. The operations on paths are given by what is there.
* `Disk.KeepsDirectories`: two disks with the same directories name the same places.
* `Disk.Same`: two disks that hold the same at every place.
* `Disk.ChangesOnly`: a change that is confined to the places that some paths name.
* `Disk.Overwrites`: what is written at one path takes the place of what another path leads to.
-/

namespace DumpConversion.Disk

set_option autoImplicit false

/-! ## The place of a path -/

/-- The path names the place: it ends in a name, with no slash after it. -/
def Names (d : Disk) (p : Path) (l : Location) : Prop :=
  ∃ t, d.locate p = .ok t ∧ t.name?.isSome = true ∧ t.slash = false ∧ t.location = l

theorem Destination.location_of_name {t : Destination} {n : Text} (h : t.name? = some n) :
    t.last = some n ∧ n ≠ Path.dot ∧ n ≠ Path.dots ∧ t.location = t.directory ++ [n] := by
  obtain ⟨hlast, hn⟩ := Option.filter_eq_some_iff.mp h
  rw [Bool.and_eq_true, decide_eq_true_eq, decide_eq_true_eq] at hn
  obtain ⟨hdot, hdots⟩ := hn
  refine ⟨hlast, hdot, hdots, ?_⟩
  simp only [Destination.location, hlast, step, if_neg hdot, if_neg hdots]

theorem Names.unique {d : Disk} {p : Path} {l k : Location} (hl : d.Names p l) (hk : d.Names p k) :
    l = k := by
  obtain ⟨t, ht, -, -, rfl⟩ := hl
  obtain ⟨u, hu, -, -, rfl⟩ := hk
  rw [ht] at hu
  cases hu
  rfl

theorem Names.ne_nil {d : Disk} {p : Path} {l : Location} (h : d.Names p l) : l ≠ [] := by
  obtain ⟨t, -, hname, -, rfl⟩ := h
  obtain ⟨n, hn⟩ := Option.isSome_iff_exists.mp hname
  rw [(Destination.location_of_name hn).2.2.2]
  exact List.append_ne_nil_of_right_ne_nil _ (List.cons_ne_nil n [])

/-! ## Operations at a place -/

section

variable {d : Disk} {p q : Path} {l k : Location} {e : Entry} {c : Content}

theorem Names.entry (h : d.Names p l) :
    d.entry p = match d.find? l with
      | none => .error .notFound
      | some e => .ok (l, e) := by
  obtain ⟨t, ht, -, hslash, rfl⟩ := h
  unfold Disk.entry
  rw [ht]
  cases hf : d.find? t.location with
  | none => simp only [hf]
  | some e => cases e <;> simp only [hf, hslash, Bool.false_eq_true, if_false]

theorem Names.isPresent (h : d.Names p l) : d.isPresent p = (d.find? l).isSome := by
  rw [Disk.isPresent, h.entry]
  cases d.find? l <;> rfl

theorem Names.isFile (h : d.Names p l) :
    d.isFile p = ((d.find? l).bind Entry.content?).isSome := by
  rw [Disk.isFile, h.entry]
  cases d.find? l <;> rfl

theorem Names.read (h : d.Names p l) (he : d.find? l = some e) (hc : e.content? = some c) :
    d.read p = .ok c := by
  rw [Disk.read, h.entry, he]
  simp only [hc]

theorem Names.writable (h : d.Names p l) (hl : d.find? l ≠ some .directory) :
    d.writable p = .ok l := by
  obtain ⟨t, ht, hname, hslash, rfl⟩ := h
  unfold Disk.writable
  rw [ht]
  simp only
  rw [if_neg]
  simp [hl, hslash, Option.isSome_iff_ne_none.mp hname]

theorem Names.create (h : d.Names p l) (hl : d.find? l ≠ some .directory) (c : Content) :
    d.create p c = .ok (d.set l (.file c)) := by
  rw [Disk.create, h.writable hl]
  rfl

theorem Names.remove_eq (h : d.Names p l) :
    d.remove p = match d.find? l with
      | none => .error .notFound
      | some .directory => .error .isDirectory
      | some _ => .ok (d.erase l) := by
  obtain ⟨t, ht, hname, hslash, rfl⟩ := h
  unfold Disk.remove
  rw [ht]
  simp only
  rw [if_neg (by rw [Option.isNone_iff_eq_none]; exact Option.isSome_iff_ne_none.mp hname)]
  cases hf : d.find? t.location with
  | none => rfl
  | some e => cases e <;> simp only [hslash, Bool.false_eq_true, if_false]

theorem Names.remove (h : d.Names p l) (he : d.find? l = some e) (hdir : e ≠ .directory) :
    d.remove p = .ok (d.erase l) := by
  rw [h.remove_eq, he]
  cases e with
  | directory => exact absurd rfl hdir
  | file c => rfl
  | program r => rfl

theorem Names.rename (hp : d.Names p l) (hq : d.Names q k) (he : d.find? l = some e)
    (hk : d.find? k ≠ some .directory) : d.rename p q = .ok ((d.erase l).set k e) := by
  obtain ⟨t, ht, htname, htslash, rfl⟩ := hp
  obtain ⟨u, hu, huname, huslash, rfl⟩ := hq
  have hnames : ¬ (t.name?.isNone || u.name?.isNone) = true := by
    simp [Option.isSome_iff_ne_none.mp htname, Option.isSome_iff_ne_none.mp huname]
  have hslash : ¬ (t.slash || u.slash) = true := by
    simp [htslash, huslash]
  unfold Disk.rename
  rw [ht, hu]
  simp only
  rw [if_neg hnames, he]
  simp only
  rw [if_neg hslash, if_neg hk]

theorem writable_eq_ok_iff : d.writable p = .ok l ↔ d.Names p l ∧ d.find? l ≠ some .directory := by
  constructor
  · intro h
    unfold Disk.writable at h
    cases ht : d.locate p with
    | error f => rw [ht] at h; cases h
    | ok t =>
      rw [ht] at h
      simp only at h
      split at h
      · cases h
      · next hno =>
        cases h
        simp only [Bool.or_eq_true, Option.isNone_iff_eq_none, decide_eq_true_eq, not_or,
          Bool.not_eq_true] at hno
        obtain ⟨⟨hname, hslash⟩, hdir⟩ := hno
        exact ⟨⟨t, ht, Option.isSome_iff_ne_none.mpr hname, hslash, rfl⟩, hdir⟩
  · rintro ⟨h, hl⟩
    exact h.writable hl

/-- A file can be moved to where one can be written. -/
theorem Names.rename_eq_ok_iff {f : Disk} (h : d.Names p l) (he : d.find? l = some e) :
    d.rename p q = .ok f ↔ ∃ k, d.writable q = .ok k ∧ f = (d.erase l).set k e := by
  constructor
  · intro hrename
    obtain ⟨t, ht, htname, htslash, rfl⟩ := h
    unfold Disk.rename at hrename
    rw [ht] at hrename
    cases hu : d.locate q with
    | error g => rw [hu] at hrename; cases hrename
    | ok u =>
      rw [hu] at hrename
      simp only at hrename
      split at hrename
      · cases hrename
      · next hnames =>
        rw [he] at hrename
        simp only at hrename
        split at hrename
        · cases hrename
        · next hslash =>
          split at hrename
          · cases hrename
          · next hdir =>
            cases hrename
            simp only [Bool.or_eq_true, Option.isNone_iff_eq_none, not_or] at hnames
            simp only [Bool.or_eq_true, not_or, Bool.not_eq_true] at hslash
            exact ⟨u.location, writable_eq_ok_iff.mpr
              ⟨⟨u, hu, Option.isSome_iff_ne_none.mpr hnames.2, hslash.2, rfl⟩, hdir⟩, rfl⟩
  · rintro ⟨k, hk, rfl⟩
    obtain ⟨hq, hkdir⟩ := writable_eq_ok_iff.mp hk
    exact h.rename hq he hkdir

theorem exists_of_read (h : d.read p = .ok c) :
    ∃ t e, d.locate p = .ok t ∧ t.slash = false ∧ d.find? t.location = some e ∧
      e.content? = some c := by
  unfold Disk.read Disk.entry at h
  cases ht : d.locate p with
  | error f => rw [ht] at h; cases h
  | ok t =>
    rw [ht] at h
    simp only at h
    cases he : d.find? t.location with
    | none => rw [he] at h; cases h
    | some e =>
      have hcontent : t.slash = false ∧ e.content? = some c := by
        rw [he] at h
        cases e with
        | directory => cases h
        | file f => cases hs : t.slash <;> simp_all [Entry.content?]
        | program r => cases hs : t.slash <;> simp_all [Entry.content?]
      exact ⟨t, e, rfl, hcontent.1, he, hcontent.2⟩

theorem not_directory_of_content (he : d.find? l = some e) (hc : e.content? = some c) :
    d.find? l ≠ some .directory := by
  rw [he]
  rintro ⟨rfl⟩
  cases hc

theorem isFile_iff : d.isFile p = true ↔ ∃ c, d.read p = .ok c := by
  unfold Disk.isFile Disk.read
  cases d.entry p with
  | error f => simp [Except.toOption]
  | ok le => cases hc : le.2.content? <;> simp [Except.toOption, hc]

theorem read_eq_ok_iff :
    d.read p = .ok c ↔ ∃ x, (d.entry p).toOption = some x ∧ x.2.content? = some c := by
  unfold Disk.read
  cases d.entry p with
  | error f => simp [Except.toOption]
  | ok x => cases hx : x.2.content? <;> simp [Except.toOption, hx]

theorem isPresent_of_isFile (h : d.isFile p = true) : d.isPresent p = true := by
  unfold Disk.isFile at h
  unfold Disk.isPresent
  cases he : (d.entry p).toOption with
  | none => rw [he] at h; cases h
  | some le => rfl

end

/-! ## Disks with the same directories -/

/-- The disks have the same directories. -/
structure KeepsDirectories (d e : Disk) : Prop where
  workDir : e.workDir = d.workDir
  directory_iff : ∀ l, e.find? l = some .directory ↔ d.find? l = some .directory

theorem KeepsDirectories.symm {d e : Disk} (h : d.KeepsDirectories e) : e.KeepsDirectories d :=
  ⟨h.workDir.symm, fun l => (h.directory_iff l).symm⟩

theorem KeepsDirectories.trans {d e f : Disk} (h : d.KeepsDirectories e)
    (h' : e.KeepsDirectories f) : d.KeepsDirectories f :=
  ⟨h'.workDir.trans h.workDir, fun l => (h'.directory_iff l).trans (h.directory_iff l)⟩

theorem KeepsDirectories.set {d : Disk} {l : Location} (hl : d.find? l ≠ some .directory)
    (c : Content) : d.KeepsDirectories (d.set l (.file c)) := by
  refine ⟨rfl, fun k => ?_⟩
  by_cases hk : k = l
  · subst hk
    have hne : k ≠ [] := by
      rintro rfl
      exact hl rfl
    rw [find?_set_self d k _ hne]
    simp [hl]
  · rw [find?_set_of_ne d _ hk]

theorem KeepsDirectories.erase {d : Disk} {l : Location} (hl : d.find? l ≠ some .directory) :
    d.KeepsDirectories (d.erase l) := by
  refine ⟨rfl, fun k => ?_⟩
  by_cases hk : k = l
  · subst hk
    have hne : k ≠ [] := by
      rintro rfl
      exact hl rfl
    rw [find?_erase_self d k hne]
    simp [hl]
  · rw [find?_erase_of_ne d hk]

theorem KeepsDirectories.set_erase {d : Disk} {l b : Location} (hb : d.find? b ≠ some .directory)
    (hl : d.find? l ≠ some .directory) (c : Content) :
    d.KeepsDirectories ((d.set b (.file c)).erase l) := by
  have hset := KeepsDirectories.set hb c
  refine hset.trans (KeepsDirectories.erase fun h => ?_)
  exact hl ((hset.directory_iff l).mp h)

theorem enter_eq_ok_iff {d : Disk} {l k : Location} :
    d.enter l = .ok k ↔ k = l ∧ d.find? l = some .directory := by
  unfold enter
  split
  · next h => simp [h, eq_comm]
  · next f hno hf =>
    constructor
    · intro hk
      cases hk
    · rintro ⟨-, hdir⟩
      rw [hf, Option.some_inj] at hdir
      exact (hno hdir).elim
  · next h => simp [h]

theorem KeepsDirectories.follow {d e : Disk} (h : d.KeepsDirectories e) {l k : Location}
    {pieces : List Text} (hk : d.follow l pieces = .ok k) : e.follow l pieces = .ok k := by
  have henter : ∀ {l k}, d.enter l = .ok k → e.enter l = .ok k := by
    intro l k hlk
    obtain ⟨rfl, hdir⟩ := enter_eq_ok_iff.mp hlk
    exact enter_eq_ok_iff.mpr ⟨rfl, (h.directory_iff _).mpr hdir⟩
  induction pieces generalizing l with
  | nil => exact henter hk
  | cons piece rest ih =>
    unfold Disk.follow at hk ⊢
    cases hl : d.enter l with
    | error f => rw [hl] at hk; cases hk
    | ok l' =>
      rw [hl] at hk
      rw [henter hl]
      exact ih hk

theorem KeepsDirectories.locate {d e : Disk} (h : d.KeepsDirectories e) {p : Path}
    {t : Destination} (ht : d.locate p = .ok t) : e.locate p = .ok t := by
  unfold Disk.locate at ht ⊢
  split at ht
  · cases ht
  · next hp =>
    rw [if_neg hp, h.workDir]
    simp only at ht ⊢
    split at ht
    · next directory hdir =>
      rw [h.follow hdir]
      exact ht
    · cases ht

theorem KeepsDirectories.names {d e : Disk} (h : d.KeepsDirectories e) {p : Path} {l : Location}
    (hl : d.Names p l) : e.Names p l := by
  obtain ⟨t, ht, hname, hslash, hloc⟩ := hl
  exact ⟨t, h.locate ht, hname, hslash, hloc⟩

theorem KeepsDirectories.writable_iff {d e : Disk} (h : d.KeepsDirectories e) {p : Path}
    {l : Location} : e.writable p = .ok l ↔ d.writable p = .ok l := by
  rw [writable_eq_ok_iff, writable_eq_ok_iff, Ne, h.directory_iff]
  exact and_congr_left fun _ => ⟨h.symm.names, h.names⟩

/-- What can be found at a path hangs on the directories and on the place that it leads to. -/
theorem KeepsDirectories.entry {d e : Disk} (h : d.KeepsDirectories e) {p : Path}
    (hplace : ∀ t, d.locate p = .ok t → e.find? t.location = d.find? t.location) :
    (e.entry p).toOption = (d.entry p).toOption := by
  unfold Disk.entry
  cases ht : d.locate p with
  | ok t =>
    rw [h.locate ht]
    simp only [hplace t ht]
  | error f =>
    cases hu : e.locate p with
    | error g => rfl
    | ok u =>
      rw [h.symm.locate hu] at ht
      cases ht

/-! ## Confined changes -/

theorem find?_set {l : Location} (hl : l ≠ []) (d : Disk) (e : Entry) (k : Location) :
    (d.set l e).find? k = if k = l then some e else d.find? k := by
  split
  · next h => rw [h, find?_set_self d l e hl]
  · next h => exact find?_set_of_ne d e h

theorem find?_erase {l : Location} (hl : l ≠ []) (d : Disk) (k : Location) :
    (d.erase l).find? k = if k = l then none else d.find? k := by
  split
  · next h => rw [h, find?_erase_self d l hl]
  · next h => exact find?_erase_of_ne d h

/-- The disks hold the same at every place. -/
structure Same (d e : Disk) : Prop where
  workDir : e.workDir = d.workDir
  find? : ∀ l, e.find? l = d.find? l

theorem Same.refl (d : Disk) : d.Same d := ⟨rfl, fun _ => rfl⟩

/-- Nothing changes but the files that the paths name: each of them may be made, written or
removed. -/
structure ChangesOnly (paths : List Path) (d e : Disk) : Prop where
  workDir : e.workDir = d.workDir
  find? : ∀ l, e.find? l = d.find? l ∨
    (∃ p ∈ paths, d.writable p = .ok l) ∧ (e.find? l = none ∨ ∃ c, e.find? l = some (.file c))

theorem ChangesOnly.keepsDirectories {paths : List Path} {d e : Disk} (h : d.ChangesOnly paths e) :
    d.KeepsDirectories e := by
  refine ⟨h.workDir, fun l => ?_⟩
  rcases h.find? l with hl | ⟨⟨p, -, hp⟩, hl⟩
  · rw [hl]
  · have hd := (writable_eq_ok_iff.mp hp).2
    rcases hl with hl | ⟨c, hl⟩
    · simp [hl, hd]
    · simp [hl, hd]

theorem ChangesOnly.find?_of_not_writable {paths : List Path} {d e : Disk}
    (h : d.ChangesOnly paths e) {l : Location} (hl : ∀ p ∈ paths, d.writable p ≠ .ok l) :
    e.find? l = d.find? l := by
  rcases h.find? l with hsame | ⟨⟨p, hp, hwritable⟩, -⟩
  · exact hsame
  · exact absurd hwritable (hl p hp)

/-- Away from the place of the first path only the others make changes. -/
theorem ChangesOnly.find?_of_cons {p : Path} {paths : List Path} {d e : Disk}
    (h : d.ChangesOnly (p :: paths) e) {l : Location} (hl : d.writable p ≠ .ok l) :
    e.find? l = d.find? l ∨
      (∃ q ∈ paths, d.writable q = .ok l) ∧ (e.find? l = none ∨ ∃ c, e.find? l = some (.file c)) := by
  rcases h.find? l with hsame | ⟨⟨q, hq, hwritable⟩, hfile⟩
  · exact .inl hsame
  · rcases List.mem_cons.mp hq with rfl | hq
    · exact absurd hwritable hl
    · exact .inr ⟨⟨q, hq, hwritable⟩, hfile⟩

/-- Paths have the same places on two disks with the same directories. -/
theorem KeepsDirectories.changesOnly {paths : List Path} {d e f : Disk} (h : d.KeepsDirectories e)
    (hworkDir : f.workDir = d.workDir)
    (hfind : ∀ l, f.find? l = e.find? l ∨
      (∃ p ∈ paths, d.writable p = .ok l) ∧ (f.find? l = none ∨ ∃ c, f.find? l = some (.file c))) :
    e.ChangesOnly paths f := by
  refine ⟨hworkDir.trans h.workDir.symm, fun l => ?_⟩
  refine (hfind l).imp_right fun ⟨⟨p, hp, hl⟩, hfile⟩ => ⟨⟨p, hp, ?_⟩, hfile⟩
  exact h.writable_iff.mpr hl

theorem changesOnly_refl (paths : List Path) (d : Disk) : d.ChangesOnly paths d :=
  ⟨rfl, fun _ => .inl rfl⟩

theorem ChangesOnly.trans {paths : List Path} {d e f : Disk} (h : d.ChangesOnly paths e)
    (h' : e.ChangesOnly paths f) : d.ChangesOnly paths f := by
  refine ⟨h'.workDir.trans h.workDir, fun l => ?_⟩
  rcases h'.find? l with hsame | ⟨⟨p, hp, hwritable⟩, hfile⟩
  · rw [hsame]
    exact h.find? l
  · exact .inr ⟨⟨p, hp, h.keepsDirectories.writable_iff.mp hwritable⟩, hfile⟩

theorem changesOnly_of_create {paths : List Path} {p : Path} (hp : p ∈ paths) {d e : Disk}
    {c : Content} (h : d.create p c = .ok e) : d.ChangesOnly paths e := by
  unfold Disk.create at h
  cases hl : d.writable p with
  | error f => rw [hl] at h; cases h
  | ok l =>
    rw [hl] at h
    cases h
    refine ⟨rfl, fun k => ?_⟩
    by_cases hk : k = l
    · subst hk
      exact .inr ⟨⟨p, hp, hl⟩, .inr ⟨c, find?_set_self d k _ (writable_eq_ok_iff.mp hl).1.ne_nil⟩⟩
    · exact .inl (find?_set_of_ne d _ hk)

theorem changesOnly_nil_iff {d e : Disk} : d.ChangesOnly [] e ↔ d.Same e := by
  constructor
  · intro h
    refine ⟨h.workDir, fun l => ?_⟩
    rcases h.find? l with hl | ⟨⟨p, hp, -⟩, -⟩
    · exact hl
    · cases hp
  · exact fun h => ⟨h.workDir, fun l => .inl (h.find? l)⟩

theorem ChangesOnly.mono {paths more : List Path} {d e : Disk} (h : d.ChangesOnly paths e)
    (hsub : ∀ p ∈ paths, p ∈ more) : d.ChangesOnly more e :=
  ⟨h.workDir, fun l => (h.find? l).imp_right fun ⟨⟨p, hp, hl⟩, hfile⟩ => ⟨⟨p, hsub p hp, hl⟩, hfile⟩⟩

/-! ## Overwriting -/

/-- What is written at the first path takes the place of what the second path leads to. -/
def Overwrites (d : Disk) (p q : Path) : Prop :=
  ∃ t, d.locate q = .ok t ∧ d.writable p = .ok t.location

section

variable {d e : Disk} {p q : Path} {c : Content}

theorem KeepsDirectories.read (h : d.KeepsDirectories e)
    (hplace : ∀ t, d.locate q = .ok t → e.find? t.location = d.find? t.location)
    (hread : d.read q = .ok c) : e.read q = .ok c := by
  rw [read_eq_ok_iff] at hread ⊢
  rw [h.entry hplace]
  exact hread

theorem KeepsDirectories.overwrites (h : d.KeepsDirectories e) (hover : e.Overwrites p q) :
    d.Overwrites p q := by
  obtain ⟨t, ht, hp⟩ := hover
  exact ⟨t, h.symm.locate ht, h.writable_iff.mp hp⟩

theorem Names.not_overwrites {l k : Location} (hl : d.Names p l) (hk : d.Names q k) (hne : l ≠ k) :
    ¬ d.Overwrites p q := by
  rintro ⟨t, ht, hp⟩
  obtain ⟨u, hu, -, -, rfl⟩ := hk
  rw [hu] at ht
  cases ht
  exact hne (hl.unique (writable_eq_ok_iff.mp hp).1)

theorem Names.not_writable {l : Location} (hl : d.Names q l) (h : ¬ d.Overwrites p q) :
    d.writable p ≠ .ok l := by
  obtain ⟨t, ht, -, -, rfl⟩ := hl
  exact fun hp => h ⟨t, ht, hp⟩

theorem ChangesOnly.find?_of_not_overwrites {paths : List Path} (h : d.ChangesOnly paths e)
    (hapart : ∀ p ∈ paths, ¬ d.Overwrites p q) {t : Destination} (ht : d.locate q = .ok t) :
    e.find? t.location = d.find? t.location :=
  h.find?_of_not_writable fun p hp hwritable => hapart p hp ⟨t, ht, hwritable⟩

theorem ChangesOnly.read {paths : List Path} (h : d.ChangesOnly paths e)
    (hapart : ∀ p ∈ paths, ¬ d.Overwrites p q) (hread : d.read q = .ok c) : e.read q = .ok c :=
  h.keepsDirectories.read (fun _ => h.find?_of_not_overwrites hapart) hread

end

/-! ## What was written -/

/-- What was written to a path is read from it. -/
theorem read_of_create {d e : Disk} {p : Path} {c : Content} (h : d.create p c = .ok e) :
    e.read p = .ok c := by
  unfold Disk.create at h
  cases hl : d.writable p with
  | error f => rw [hl] at h; cases h
  | ok l =>
    rw [hl] at h
    cases h
    obtain ⟨hnames, hdir⟩ := writable_eq_ok_iff.mp hl
    have hnames' := (KeepsDirectories.set hdir c).names hnames
    exact hnames'.read (find?_set_self d l _ hnames.ne_nil) rfl

theorem readText_ofText {d : Disk} {p : Path} {s : Text} (h : d.read p = .ok (.ofText s)) :
    d.readText p = .ok s := by
  rw [Disk.readText, h]
  simp only [Content.image_ofText, Utf8.decode_encode]

end DumpConversion.Disk
