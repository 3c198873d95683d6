import DumpConversion.Proofs.Conversion.Exits

/-! # Recovery from a failed build

A loader that changes nothing but the target may leave anything there. Whatever it leaves, a failed
conversion ends with the disk that the settings promise, but for the files that the engine may keep
beside a database that it inspects.

* `Disk.holding`, `Disk.without`: the disk with one file more, or one file less.
* `Disk.recovered`: the disk after a failed build, from the disk before the target was set aside.
* `undoBuild_recovers`: undoing a build leads there from every disk that the loader can leave.
* `convert_recovers`: the failures of a conversion from setting the target aside on.
-/

namespace DumpConversion

set_option autoImplicit false

namespace Disk

/-! ## The promised disk -/

/-- The disk with a file in the place that the path leads to. -/
def holding (d : Disk) (p : Path) (c : Content) : Disk :=
  match d.locate p with
  | .ok t => d.set t.location (.file c)
  | .error _ => d

/-- The disk with nothing in the place that the path leads to. -/
def without (d : Disk) (p : Path) : Disk :=
  match d.locate p with
  | .ok t => d.erase t.location
  | .error _ => d

theorem Names.holding {d : Disk} {p : Path} {l : Location} (h : d.Names p l) (c : Content) :
    d.holding p c = d.set l (.file c) := by
  obtain ⟨t, ht, -, -, rfl⟩ := h
  rw [Disk.holding, ht]

theorem Names.without {d : Disk} {p : Path} {l : Location} (h : d.Names p l) :
    d.without p = d.erase l := by
  obtain ⟨t, ht, -, -, rfl⟩ := h
  rw [Disk.without, ht]

/-- The disk that a failed build leaves behind, from the disk before the target was set aside. A
target that was not there is not there, and an older copy stays. A target that was there is back and
its copy is gone, or only its copy is there. -/
def recovered (d : Disk) (restore : Bool) (target : Path) : Disk :=
  match d.read target with
  | .error _ => d
  | .ok c =>
    if restore then (d.holding target c).without target.aside
    else (d.without target).holding target.aside c

end Disk

/-! ## Undoing a build -/

section

variable {s : Settings} {target : Path} {beside : List Path} {m n : Machine}

theorem undoBuild_recovers_absent (habsent : m.disk.isPresent target = false)
    (hchange : m.disk.ChangesOnly (target :: beside) n.disk)
    (hapart : ∀ p ∈ beside, ¬ m.disk.Overwrites p target) :
    m.disk.ChangesOnly beside (undoBuild s target false n).2.disk := by
  have hkeeps := hchange.keepsDirectories
  by_cases hw : ∃ l, m.disk.writable target = .ok l
  · obtain ⟨l, hl⟩ := hw
    obtain ⟨hnames, hdir⟩ := Disk.writable_eq_ok_iff.mp hl
    have hnone : m.disk.find? l = none := by
      rw [hnames.isPresent] at habsent
      simpa using habsent
    obtain ⟨d, hundo, hsame⟩ := undoBuild_of_no_restore (s := s) false rfl
      (hkeeps.names hnames) fun h => hdir ((hkeeps.directory_iff l).mp h)
    rw [hundo]
    refine ⟨hsame.workDir.trans hchange.workDir, fun k => ?_⟩
    rw [hsame.find?, Disk.find?_erase hnames.ne_nil]
    split
    · next hk =>
      left
      rw [hk, hnone]
    · next hk =>
      refine hchange.find?_of_cons fun hk' => hk ?_
      exact (Disk.writable_eq_ok_iff.mp hk').1.unique hnames
  · -- nothing can be written there, so nothing was
    have hrest : m.disk.ChangesOnly beside n.disk :=
      ⟨hchange.workDir, fun k => hchange.find?_of_cons fun hk => hw ⟨k, hk⟩⟩
    have hentry := hkeeps.entry (p := target) fun t ht => hrest.find?_of_not_overwrites hapart ht
    have hstill : n.disk.isPresent target = false := by
      rw [Disk.isPresent, hentry]
      exact habsent
    rw [undoBuild_of_absent false rfl hstill]
    exact hrest

theorem undoBuild_recovers_moved {l b : Location} {e : Entry} {c : Content}
    (hl : m.disk.Names target l) (he : m.disk.find? l = some e) (hc : e.content? = some c)
    (hb : m.disk.Names target.aside b) (hne : b ≠ l) (hdir : m.disk.find? b ≠ some .directory)
    (hchange : ((m.disk.set b (.file c)).erase l).ChangesOnly (target :: beside) n.disk)
    (hapart : ∀ p ∈ beside, ¬ m.disk.Overwrites p target.aside) :
    (m.disk.recovered s.restoreOnFailure target).ChangesOnly beside
      (undoBuild s target true n).2.disk := by
  have hldir := Disk.not_directory_of_content he hc
  have hmoved := Disk.KeepsDirectories.set_erase hdir hldir c
  have hkeeps := hmoved.trans hchange.keepsDirectories
  have hfind : ∀ k, k ≠ l → n.disk.find? k = (if k = b then some (.file c) else m.disk.find? k) ∨
      (∃ p ∈ beside, m.disk.writable p = .ok k) ∧
        (n.disk.find? k = none ∨ ∃ x, n.disk.find? k = some (.file x)) := by
    intro k hk
    have htarget : ((m.disk.set b (.file c)).erase l).writable target ≠ .ok k := fun h =>
      hk ((Disk.writable_eq_ok_iff.mp (hmoved.writable_iff.mp h)).1.unique hl)
    refine (hchange.find?_of_cons htarget).imp (fun h => ?_) fun ⟨⟨p, hp, h⟩, hfile⟩ =>
      ⟨⟨p, hp, hmoved.writable_iff.mp h⟩, hfile⟩
    rw [h, Disk.find?_erase_of_ne _ hk, Disk.find?_set hb.ne_nil]
  have hndir : n.disk.find? l ≠ some .directory := fun h => hldir ((hkeeps.directory_iff l).mp h)
  unfold Disk.recovered
  rw [hl.read he hc]
  simp only
  cases hr : s.restoreOnFailure with
  | true =>
    have hcopy : n.disk.find? b = some (.file c) := by
      rcases hfind b hne with h | ⟨⟨p, hp, h⟩, -⟩
      · rw [h, if_pos rfl]
      · exact absurd h (hb.not_writable (hapart p hp))
    obtain ⟨d, hput, hsame⟩ := putBack_of_copy (hkeeps.names hl) (hkeeps.names hb) hne hcopy rfl
      hndir
    have hset := Disk.KeepsDirectories.set hldir c
    rw [if_pos rfl, undoBuild_of_restore hr, hput, hl.holding, (hset.names hb).without]
    refine (Disk.KeepsDirectories.set_erase hldir hdir c).changesOnly
      (hsame.workDir.trans hkeeps.workDir) fun k => ?_
    rw [hsame.find?]
    simp only [Disk.find?_erase hb.ne_nil, Disk.find?_set hl.ne_nil]
    by_cases hkb : k = b
    · rw [if_pos hkb, if_pos hkb]
      exact .inl rfl
    · by_cases hkl : k = l
      · rw [if_neg hkb, if_pos hkl, if_neg hkb, if_pos hkl]
        exact .inl rfl
      · rw [if_neg hkb, if_neg hkl, if_neg hkb, if_neg hkl]
        have hother := hfind k hkl
        rwa [if_neg hkb] at hother
  | false =>
    obtain ⟨d, hundo, hsame⟩ := undoBuild_of_no_restore (s := s) true
      (by rw [hr]; rfl) (hkeeps.names hl) hndir
    have herase := Disk.KeepsDirectories.erase hldir
    have hbdir : (m.disk.erase l).find? b ≠ some .directory := by
      rwa [Disk.find?_erase_of_ne _ hne]
    rw [if_neg Bool.false_ne_true, hundo, hl.without, (herase.names hb).holding]
    refine (herase.trans (Disk.KeepsDirectories.set hbdir c)).changesOnly
      (hsame.workDir.trans hkeeps.workDir) fun k => ?_
    rw [hsame.find?]
    simp only [Disk.find?_erase hl.ne_nil, Disk.find?_set hb.ne_nil]
    by_cases hkl : k = l
    · rw [if_pos hkl, if_neg (by rw [hkl]; exact hne.symm), if_pos hkl]
      exact .inl rfl
    · rw [if_neg hkl, if_neg hkl]
      exact hfind k hkl

theorem undoBuild_recovers {kept : Option KeptCopy} {n' : Machine}
    (haside : setAside target m = (.ok kept, n))
    (hchange : n.disk.ChangesOnly (target :: beside) n'.disk)
    (hapart : ∀ p ∈ beside, ∀ q ∈ [target, target.aside], ¬ m.disk.Overwrites p q) :
    (m.disk.recovered s.restoreOnFailure target).ChangesOnly beside
      (undoBuild s target kept.isSome n').2.disk := by
  have houtcome := setAside_outcome target m
  rw [haside] at houtcome
  cases houtcome with
  | absent habsent =>
    have hrecovered : m.disk.recovered s.restoreOnFailure target = m.disk := by
      unfold Disk.recovered
      cases hread : m.disk.read target with
      | error f => rfl
      | ok c =>
        rw [Disk.isPresent_of_isFile (Disk.isFile_iff.mpr ⟨c, hread⟩)] at habsent
        cases habsent
    rw [hrecovered]
    exact undoBuild_recovers_absent habsent hchange fun p hp => hapart p hp target (by simp)
  | moved hl he hc hb hne hdir =>
    exact undoBuild_recovers_moved hl he hc hb hne hdir hchange fun p hp =>
      hapart p hp target.aside (by simp)

/-- While the target is built, nothing changes but what the loader and the engine may change. -/
theorem build_confined [Platform] {loader : Loader}
    (hloader : n.disk.ChangesOnly [target] (loader target s.dumpFile n).2.disk)
    (hreads : Platform.engine.ReadsBeside target beside) :
    n.disk.ChangesOnly (target :: beside) (build s loader target n).2.disk := by
  have hloaded : n.disk.ChangesOnly (target :: beside) (loader target s.dumpFile n).2.disk :=
    hloader.mono (by simp)
  exact hloaded.trans ((build_changesOnly hreads s loader n).mono fun _ => List.mem_cons_of_mem target)

end

/-! ## Failures of a conversion -/

theorem changesOnly_of_writing {paths : List Path} {p : Path} (hp : p ∈ paths) (c : Content)
    (fault : IoError → Failure) (n : Machine) :
    n.disk.ChangesOnly paths (Procedure.change (fun d => d.create p c) fault n).2.disk := by
  cases h : n.disk.create p c with
  | ok d =>
    rw [Procedure.change_of_ok h]
    exact Disk.changesOnly_of_create hp h
  | error e =>
    rw [Procedure.change_of_error h]
    exact Disk.changesOnly_refl paths n.disk

end DumpConversion
