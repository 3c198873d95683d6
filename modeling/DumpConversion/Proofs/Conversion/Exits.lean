import DumpConversion.Conversion.Stages
import DumpConversion.Proofs.Conversion.ReadOnly
import DumpConversion.Proofs.Conversion.SetAside

/-! # The exits of a conversion

A conversion ends in one of five ways: in each of its first three stages, after a failed build, or
with an account. Each exit is given by the results of the stages up to it.

* `convert_of_sanitize_error`, `convert_of_aside_error`, `convert_of_build_error`,
  `convert_of_build`: the exits after the dump.
* `build_changesOnly`: while the target is built, the loader changes the disk, and after it only an
  engine that keeps files beside the target.
* `undoBuild_of_restore`, `undoBuild_of_no_restore`: what is done after a failed build.
-/

namespace DumpConversion

set_option autoImplicit false

open Procedure (disk_apply bind_of_ok bind_of_error check_of_ok check_of_error change_of_ok
  orUndo_of_ok orUndo_of_error)

variable {s : Settings} {dumper : Dumper} {loader : Loader} {target : Path}
variable {m m1 m2 n n' : Machine} {e : Failure}

/-! ## Building -/

section

variable [Platform]

theorem inspect_of_engine {r : Except Failure Inventory} {d : Disk}
    (h : Platform.engine.inspect target n.disk = (r, d)) :
    inspect target n = (r, { n with disk := d }) := by
  rw [inspect, Procedure.onDisk, h]

theorem build_of_load (h : loader target s.dumpFile n = (.ok (), n')) :
    build s loader target n =
      if s.verify then ((inspect target n').1.map some, (inspect target n').2)
      else (.ok none, n') := by
  rw [build, bind_of_ok h]
  cases hv : s.verify with
  | false => rfl
  | true =>
    simp only [if_true]
    obtain ⟨r, n'', hi⟩ : ∃ r n'', inspect target n' = (r, n'') := ⟨_, _, rfl⟩
    cases r with
    | error e => rw [bind_of_error hi, hi]; rfl
    | ok i => rw [bind_of_ok hi, hi]; rfl

theorem build_of_inspect {i : Inventory} {n'' : Machine} (hv : s.verify = true)
    (h : loader target s.dumpFile n = (.ok (), n')) (hi : inspect target n' = (.ok i, n'')) :
    build s loader target n = (.ok (some i), n'') := by
  rw [build_of_load h, hv, if_pos rfl, hi]
  rfl

theorem build_changesOnly {beside : List Path}
    (hreads : Platform.engine.ReadsBeside target beside) (s : Settings) (loader : Loader)
    (n : Machine) :
    (loader target s.dumpFile n).2.disk.ChangesOnly beside (build s loader target n).2.disk := by
  obtain ⟨r, n', h⟩ : ∃ r n', loader target s.dumpFile n = (r, n') := ⟨_, _, rfl⟩
  cases r with
  | error e =>
    rw [build_of_error h, h]
    exact Disk.changesOnly_refl beside n'.disk
  | ok u =>
    rw [build_of_load h, h]
    split
    · exact hreads.inspect n'.disk
    · exact Disk.changesOnly_refl beside n'.disk

end

/-! ## Undoing -/

theorem undoBuild_of_restore (h : s.restoreOnFailure = true) (target : Path) (m : Machine) :
    (undoBuild s target true m).2 = (putBack target m).2 := by
  obtain ⟨r, n, hput⟩ : ∃ r n, putBack target m = (r, n) := ⟨_, _, rfl⟩
  have hdiscard : (discard (putBack target) m).2 = n := by
    cases r with
    | error e => exact congrArg Prod.snd (bind_of_error hput)
    | ok a => exact congrArg Prod.snd (bind_of_ok hput)
  rw [undoBuild, h, hput]
  exact hdiscard

theorem undoBuild_of_no_restore (wasSetAside : Bool)
    (h : (wasSetAside && s.restoreOnFailure) = false) {l : Location} (hl : m.disk.Names target l)
    (hdir : m.disk.find? l ≠ some .directory) :
    ∃ d, (undoBuild s target wasSetAside m).2 = { m with disk := d } ∧
      (m.disk.erase l).Same d := by
  rw [undoBuild, h]
  simp only [Bool.false_eq_true, if_false]
  rw [bind_of_ok (disk_apply m), hl.isPresent]
  cases he : m.disk.find? l with
  | none =>
    refine ⟨m.disk, rfl, rfl, fun k => ?_⟩
    rw [Disk.find?_erase hl.ne_nil]
    split
    · next hk => rw [hk, he]
    · rfl
  | some f =>
    have hremove := hl.remove he (by
      rintro rfl
      exact hdir he)
    simp only [Option.isSome_some, if_true]
    refine ⟨m.disk.erase l, ?_, Disk.Same.refl _⟩
    rw [Procedure.attempt, change_of_ok hremove]

theorem undoBuild_of_absent (wasSetAside : Bool)
    (h : (wasSetAside && s.restoreOnFailure) = false) (habsent : m.disk.isPresent target = false) :
    (undoBuild s target wasSetAside m).2 = m := by
  rw [undoBuild, h]
  simp only [Bool.false_eq_true, if_false]
  rw [bind_of_ok (disk_apply m), habsent]
  rfl

/-! ## The exits -/

section

variable [Platform]
variable {statistics : Statistics} {kept : Option KeptCopy} {inventory : Option Inventory}

theorem convert_of_sanitize_error (hdump : dumper s.dumpFile m = (.ok (), m1))
    (hsanitize : sanitizeInto s.dumpFile s.dumpFile s.encoding m1 = (.error e, m2)) :
    convert s dumper loader target m = (.error e, m2) := by
  rw [convert, bind_of_ok hdump, bind_of_error hsanitize]

theorem convert_of_aside_error (hdump : dumper s.dumpFile m = (.ok (), m1))
    (hsanitize : sanitizeInto s.dumpFile s.dumpFile s.encoding m1 = (.ok statistics, m2))
    (haside : setAside target m2 = (.error e, n)) :
    convert s dumper loader target m = (.error e, n) := by
  rw [convert, bind_of_ok hdump, bind_of_ok hsanitize, bind_of_error haside]

theorem convert_of_build_error (hdump : dumper s.dumpFile m = (.ok (), m1))
    (hsanitize : sanitizeInto s.dumpFile s.dumpFile s.encoding m1 = (.ok statistics, m2))
    (haside : setAside target m2 = (.ok kept, n))
    (hbuild : build s loader target n = (.error e, n')) :
    convert s dumper loader target m = (.error e, (undoBuild s target kept.isSome n').2) := by
  rw [convert, bind_of_ok hdump, bind_of_ok hsanitize, bind_of_ok haside,
    bind_of_error (orUndo_of_error hbuild)]

theorem convert_of_build (hdump : dumper s.dumpFile m = (.ok (), m1))
    (hsanitize : sanitizeInto s.dumpFile s.dumpFile s.encoding m1 = (.ok statistics, m2))
    (haside : setAside target m2 = (.ok kept, n))
    (hbuild : build s loader target n = (.ok inventory, n')) :
    convert s dumper loader target m =
      (.ok ⟨n'.disk.canonical target, n'.disk.canonical s.dumpFile, statistics, kept, inventory⟩,
        n') := by
  rw [convert, bind_of_ok hdump, bind_of_ok hsanitize, bind_of_ok haside,
    bind_of_ok (orUndo_of_ok hbuild)]
  rfl

end

end DumpConversion
