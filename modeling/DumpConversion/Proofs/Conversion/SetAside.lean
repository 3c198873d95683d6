import DumpConversion.Conversion.Previous
import DumpConversion.Proofs.Disk.Aside

/-! # Setting a file aside and putting it back

What the two steps do is told by three facts: whether something is at the target, what it holds, and
where its copy goes.

* `setAside_of_file`: the file is gone and its copy holds what it held.
* `SetAsideOutcome`, `setAside_outcome`: everything that setting aside can come to. When it fails,
  nothing has been changed.
* `putBack_of_copy`: the copy is gone and the file holds what the copy held, whatever file stood
  there.
* `putBack_of_directory`: a directory in the place of the file stays, and so does the copy.
-/

namespace DumpConversion

set_option autoImplicit false

open Procedure (disk_apply bind_of_ok bind_of_error check_of_ok change_of_ok
  change_of_error)

/-! ## Setting aside -/

section

variable {target : Path} {m : Machine} {l b : Location} {e : Entry} {c : Content}

theorem setAside_of_no_file (hpresent : m.disk.isPresent target = true)
    (hfile : m.disk.isFile target = false) :
    setAside target m = (.error (.aside target .notFile), m) := by
  rw [setAside, bind_of_ok (disk_apply m), hpresent, hfile]
  rfl

theorem setAside_of_copy_error {f : IoError} (hfile : m.disk.isFile target = true)
    (hcopy : m.disk.copy target target.aside = .error f) :
    setAside target m = (.error (.aside target (.copyFailed target.aside f)), m) := by
  rw [setAside, bind_of_ok (disk_apply m), Disk.isPresent_of_isFile hfile, hfile]
  simp only [Bool.not_true, Bool.false_eq_true, if_false]
  rw [bind_of_error (change_of_error hcopy)]

theorem fingerprint_of_read {d : Disk} {p : Path} (h : d.read p = .ok c)
    (fault : IoError → Failure) :
    (fingerprint d p).mapError fault = .ok (c.image.length, Sha256.hexDigest c.image) := by
  rw [fingerprint, h]
  rfl

/-- The disk after the file at `l` has been set aside at `b`. -/
theorem setAside_of_file (hl : m.disk.Names target l) (he : m.disk.find? l = some e)
    (hc : e.content? = some c) (hb : m.disk.Names target.aside b) (hne : b ≠ l)
    (hdir : m.disk.find? b ≠ some .directory) :
    setAside target m =
      (.ok (some ⟨target.aside, c.image.length, Sha256.hexDigest c.image⟩),
        { m with disk := (m.disk.set b (.file c)).erase l }) := by
  have hread := hl.read he hc
  have hfile : m.disk.isFile target = true := Disk.isFile_iff.mpr ⟨c, hread⟩
  have hcopy : m.disk.copy target target.aside = .ok (m.disk.set b (.file c)) := by
    rw [Disk.copy, hread]
    exact hb.create hdir c
  -- after the copy, the file and the copy hold the same
  have hkeeps := Disk.KeepsDirectories.set hdir c
  have hfound : (m.disk.set b (.file c)).find? l = some e := by
    rw [Disk.find?_set_of_ne _ _ hne.symm, he]
  have hpresent := fingerprint_of_read ((hkeeps.names hl).read hfound hc)
  have hcopied := fingerprint_of_read
    ((hkeeps.names hb).read (Disk.find?_set_self _ b (.file c) hb.ne_nil) rfl)
  have hremove : (m.disk.set b (.file c)).remove target =
      .ok ((m.disk.set b (.file c)).erase l) := by
    refine (hkeeps.names hl).remove hfound ?_
    rintro rfl
    cases hc
  rw [setAside, bind_of_ok (disk_apply m), Disk.isPresent_of_isFile hfile, hfile]
  simp only [Bool.not_true, Bool.false_eq_true, if_false]
  rw [bind_of_ok (change_of_ok hcopy), bind_of_ok (disk_apply _),
    bind_of_ok (check_of_ok (hpresent _) _), bind_of_ok (check_of_ok (hcopied _) _),
    if_neg (not_not_intro rfl), bind_of_ok (change_of_ok hremove)]
  rfl

/-- What setting a file aside can come to. -/
inductive SetAsideOutcome (target : Path) (m : Machine) :
    Except Failure (Option KeptCopy) × Machine → Prop where
  | absent (h : m.disk.isPresent target = false) : SetAsideOutcome target m (.ok none, m)
  | moved {l b : Location} {e : Entry} {c : Content} (hl : m.disk.Names target l)
      (he : m.disk.find? l = some e) (hc : e.content? = some c)
      (hb : m.disk.Names target.aside b) (hne : b ≠ l) (hdir : m.disk.find? b ≠ some .directory) :
      SetAsideOutcome target m
        (.ok (some ⟨target.aside, c.image.length, Sha256.hexDigest c.image⟩),
          { m with disk := (m.disk.set b (.file c)).erase l })
  | refused (h : m.disk.isPresent target = true) (e : Failure) :
      SetAsideOutcome target m (.error e, m)

/-- A file that can be copied has a name, and its copy has a place of its own. -/
theorem names_of_copy {d d' : Disk} (hread : d.read target = .ok c)
    (hcopy : d.copy target target.aside = .ok d') :
    ∃ l b e, d.Names target l ∧ d.find? l = some e ∧ e.content? = some c ∧
      d.Names target.aside b ∧ b ≠ l ∧ d.find? b ≠ some .directory := by
  obtain ⟨t, e, ht, hslash, he, hc⟩ := Disk.exists_of_read hread
  obtain ⟨b, hb⟩ : ∃ b, d.writable target.aside = .ok b := by
    rw [Disk.copy, hread] at hcopy
    cases hw : d.writable target.aside with
    | error f => simp [Disk.create, hw, Except.map] at hcopy
    | ok b => exact ⟨b, rfl⟩
  obtain ⟨hb, hdir⟩ := Disk.writable_eq_ok_iff.mp hb
  have hname : t.name?.isSome = true := by
    rw [Option.isSome_iff_ne_none]
    intro hnone
    obtain ⟨f, hf⟩ := Disk.locate_aside_of_no_name ht hslash hnone
      (Disk.not_directory_of_content he hc)
    obtain ⟨u, hu, -⟩ := hb
    rw [hf] at hu
    cases hu
  have hl : d.Names target t.location := ⟨t, ht, hname, hslash, rfl⟩
  obtain ⟨b', hb', hne⟩ := hl.aside
  obtain rfl := hb.unique hb'
  exact ⟨t.location, b, e, hl, he, hc, hb, hne, hdir⟩

theorem setAside_outcome (target : Path) (m : Machine) :
    SetAsideOutcome target m (setAside target m) := by
  cases hpresent : m.disk.isPresent target with
  | false =>
    rw [setAside_of_absent hpresent]
    exact .absent hpresent
  | true =>
    cases hfile : m.disk.isFile target with
    | false =>
      rw [setAside_of_no_file hpresent hfile]
      exact .refused hpresent _
    | true =>
      cases hcopy : m.disk.copy target target.aside with
      | error f =>
        rw [setAside_of_copy_error hfile hcopy]
        exact .refused hpresent _
      | ok d =>
        obtain ⟨c, hread⟩ := Disk.isFile_iff.mp hfile
        obtain ⟨l, b, e, hl, he, hc, hb, hne, hdir⟩ := names_of_copy hread hcopy
        rw [setAside_of_file hl he hc hb hne hdir]
        exact .moved hl he hc hb hne hdir

/-- Setting a target aside changes the target and its copy, however it ends. -/
theorem setAside_changesOnly (target : Path) (m : Machine) :
    m.disk.ChangesOnly [target, target.aside] (setAside target m).2.disk := by
  have houtcome := setAside_outcome target m
  generalize setAside target m = r at houtcome
  cases houtcome with
  | absent => exact Disk.changesOnly_refl _ _
  | refused => exact Disk.changesOnly_refl _ _
  | @moved l b e c hl he hc hb hne hdir =>
    have hset : m.disk.ChangesOnly [target, target.aside] (m.disk.set b (.file c)) :=
      Disk.changesOnly_of_create (by simp) (hb.create hdir c)
    have hldir := Disk.not_directory_of_content he hc
    refine hset.trans ⟨rfl, fun k => ?_⟩
    by_cases hk : k = l
    · subst hk
      refine .inr ⟨⟨target, by simp, hset.keepsDirectories.writable_iff.mpr (hl.writable hldir)⟩,
        .inl (Disk.find?_erase_self _ k hl.ne_nil)⟩
    · exact .inl (Disk.find?_erase_of_ne _ hk)

/-- What holds once the target has been set aside or there was none. -/
structure IsSetAside (target : Path) (m n : Machine) (kept : Option KeptCopy) : Prop where
  keepsDirectories : m.disk.KeepsDirectories n.disk
  absent : n.disk.isPresent target = false
  kept_isSome : kept.isSome = m.disk.isFile target
  copy : ∀ c, m.disk.read target = .ok c →
    ∃ b, n.disk.Names target.aside b ∧ n.disk.find? b = some (.file c)
  others : ∀ k, ¬ m.disk.Names target k → ¬ m.disk.Names target.aside k →
    n.disk.find? k = m.disk.find? k

theorem isSetAside_of_ok {n : Machine} {kept : Option KeptCopy}
    (h : setAside target m = (.ok kept, n)) : IsSetAside target m n kept := by
  have houtcome := setAside_outcome target m
  rw [h] at houtcome
  cases houtcome with
  | absent habsent =>
    have hfile : m.disk.isFile target = false := by
      rw [Bool.eq_false_iff]
      intro hfile
      rw [Disk.isPresent_of_isFile hfile] at habsent
      cases habsent
    refine ⟨⟨rfl, fun _ => Iff.rfl⟩, habsent, hfile.symm, fun c hc => ?_, fun _ _ _ => rfl⟩
    rw [Disk.isFile_iff.mpr ⟨c, hc⟩] at hfile
    cases hfile
  | @moved l b e c hl he hc hb hne hdir =>
    have hmoved := Disk.KeepsDirectories.set_erase hdir (Disk.not_directory_of_content he hc) c
    refine ⟨hmoved, ?_, ?_, fun c' hc' => ⟨b, hmoved.names hb, ?_⟩, fun k hk hk' => ?_⟩
    · rw [(hmoved.names hl).isPresent, Disk.find?_erase_self _ l hl.ne_nil]
      rfl
    · rw [hl.isFile, he]
      simp only [Option.bind_some, hc]
      rfl
    · rw [hl.read he hc] at hc'
      cases hc'
      rw [Disk.find?_erase_of_ne _ hne, Disk.find?_set_self _ b _ hb.ne_nil]
    · have hkl : k ≠ l := by
        rintro rfl
        exact hk hl
      have hkb : k ≠ b := by
        rintro rfl
        exact hk' hb
      rw [Disk.find?_erase_of_ne _ hkl, Disk.find?_set_of_ne _ _ hkb]

/-! ## Putting back -/

theorem putBack_of_copy (hl : m.disk.Names target l) (hb : m.disk.Names target.aside b)
    (hne : b ≠ l) (hcopy : m.disk.find? b = some e) (hc : e.content? = some c)
    (hdir : m.disk.find? l ≠ some .directory) :
    ∃ d, putBack target m = (.ok true, { m with disk := d }) ∧
      ((m.disk.set l e).erase b).Same d := by
  have hisFile : m.disk.isFile target.aside = true := by
    rw [hb.isFile, hcopy, Option.bind_some, hc]
    rfl
  rw [putBack, bind_of_ok (disk_apply m)]
  simp only [hisFile, Bool.not_true, Bool.false_eq_true, if_false]
  cases hf : m.disk.find? l with
  | none =>
    have hrename := hb.rename hl hcopy hdir
    rw [hl.isPresent, hf]
    simp only [Option.isSome_none, Bool.false_eq_true, if_false]
    refine ⟨(m.disk.erase b).set l e, ?_, rfl, fun k => ?_⟩
    · rw [bind_of_ok (change_of_ok hrename)]
      rfl
    · simp only [Disk.find?_set hl.ne_nil, Disk.find?_erase hb.ne_nil]
      by_cases hk : k = l
      · rw [if_pos hk, if_neg (by rw [hk]; exact hne.symm), if_pos hk]
      · rw [if_neg hk, if_neg hk]
  | some f =>
    -- what stands in the place is removed first
    have hfdir : f ≠ .directory := by
      rintro rfl
      exact hdir hf
    have hremove := hl.remove hf hfdir
    have hkeeps := Disk.KeepsDirectories.erase hdir
    have hcopy' : (m.disk.erase l).find? b = some e := by
      rw [Disk.find?_erase_of_ne _ hne, hcopy]
    have hrename := (hkeeps.names hb).rename (hkeeps.names hl) hcopy' (by
      rw [Disk.find?_erase_self _ _ hl.ne_nil]
      exact Option.some_ne_none _ |>.symm)
    rw [hl.isPresent, hf]
    simp only [Option.isSome_some, if_true]
    refine ⟨((m.disk.erase l).erase b).set l e, ?_, rfl, fun k => ?_⟩
    · rw [bind_of_ok (change_of_ok hremove), bind_of_ok (change_of_ok hrename)]
      rfl
    · simp only [Disk.find?_set hl.ne_nil, Disk.find?_erase hb.ne_nil, Disk.find?_erase hl.ne_nil]
      by_cases hk : k = l
      · rw [if_pos hk, if_neg (by rw [hk]; exact hne.symm), if_pos hk]
      · rw [if_neg hk, if_neg hk, if_neg hk]

/-- A directory is not removed to make room for the copy. -/
theorem putBack_of_directory (hl : m.disk.Names target l) (hfile : m.disk.isFile target.aside = true)
    (hdir : m.disk.find? l = some .directory) :
    putBack target m = (.error (.aside target (.removePartialFailed .isDirectory)), m) := by
  have hremove : m.disk.remove target = .error .isDirectory := by
    rw [hl.remove_eq, hdir]
  rw [putBack, bind_of_ok (disk_apply m)]
  simp only [hfile, Bool.not_true, Bool.false_eq_true, if_false]
  rw [hl.isPresent, hdir]
  simp only [Option.isSome_some, if_true]
  rw [bind_of_error (change_of_error hremove)]

end

end DumpConversion
