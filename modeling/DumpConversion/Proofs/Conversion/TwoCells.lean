import DumpConversion.Proofs.Bytes.Streaming
import DumpConversion.Proofs.Conversion.SetAside

/-! # The store of previous files as two cells

A file and its copy are two cells. Setting the file aside moves the content of the first cell to the
second, and putting it back moves it to the first again. Whatever is written and removed between,
nothing else on the disk changes.

* `Cells`, `StoreStep`, `Cells.step`, `Cells.run`: the two cells and what is done with them.
* `StoreStep.perform`, `StoreStep.performAll`: the same steps on a machine.
* `Disk.Holds`: what is at a place, as the content of a cell.
* `HoldsCells.perform`: one step on the machine is one step on the cells.
* `store_refines_cells`: so is every sequence of steps. A step that fails changes nothing.
-/

namespace DumpConversion

set_option autoImplicit false

open Procedure (bind_of_ok bind_of_error change_of_ok change_of_error)

/-! ## Cells -/

/-- The content of a file and that of its copy. -/
structure Cells where
  current : Option Content
  copy : Option Content
  deriving DecidableEq, Repr

/-- What may be done with a file and its copy. -/
inductive StoreStep where
  | setAside
  | putBack
  | write (c : Content)
  | remove
  deriving DecidableEq, Repr

/-- What a step answers. -/
inductive StoreAnswer where
  | kept (copy : Option KeptCopy)
  | found (isCopy : Bool)
  | done
  deriving DecidableEq, Repr

/-- One step on the cells, when the copy goes to the path `aside`. -/
def Cells.step (aside : Path) (cells : Cells) : StoreStep → Except Failure StoreAnswer × Cells
  | .setAside =>
    match cells.current with
    | some x => (.ok (.kept (some ⟨aside, x.image.length, Sha256.hexDigest x.image⟩)), ⟨none, some x⟩)
    | none => (.ok (.kept none), cells)
  | .putBack =>
    match cells.copy with
    | some y => (.ok (.found true), ⟨some y, none⟩)
    | none => (.ok (.found false), cells)
  | .write c => (.ok .done, ⟨some c, cells.copy⟩)
  | .remove =>
    match cells.current with
    | some _ => (.ok .done, ⟨none, cells.copy⟩)
    | none => (.error (.io .notFound), cells)

/-- The answers of consecutive steps, and the cells after them. -/
def Cells.run (aside : Path) : List StoreStep → Cells → List (Except Failure StoreAnswer) × Cells
  | [], cells => ([], cells)
  | step :: rest, cells =>
    let one := cells.step aside step
    let more := Cells.run aside rest one.2
    (one.1 :: more.1, more.2)

/-! ## Steps on a machine -/

/-- One step on the file at the path. -/
def StoreStep.perform (target : Path) : StoreStep → Procedure StoreAnswer
  | .setAside => do return .kept (← DumpConversion.setAside target)
  | .putBack => do return .found (← DumpConversion.putBack target)
  | .write c => do
    Procedure.change (fun d => d.create target c) .io
    return .done
  | .remove => do
    Procedure.change (fun d => d.remove target) .io
    return .done

/-- The answers of consecutive steps, and the machine after them. A step that fails does not keep
the next one from being taken. -/
def StoreStep.performAll (target : Path) :
    List StoreStep → Machine → List (Except Failure StoreAnswer) × Machine
  | [], m => ([], m)
  | step :: rest, m =>
    let one := step.perform target m
    let more := performAll target rest one.2
    (one.1 :: more.1, more.2)

/-! ## Places as cells -/

/-- Nothing is at the place, or a file with this content. -/
def Disk.Holds (d : Disk) (l : Location) (x : Option Content) : Prop :=
  d.find? l ≠ some .directory ∧ (d.find? l).bind Entry.content? = x

theorem Disk.Holds.of_none {d : Disk} {l : Location} (h : d.find? l = none) : d.Holds l none := by
  rw [Disk.Holds, h]
  exact ⟨by simp, rfl⟩

theorem Disk.Holds.of_content {d : Disk} {l : Location} {e : Entry} {c : Content}
    (h : d.find? l = some e) (hc : e.content? = some c) : d.Holds l (some c) :=
  ⟨not_directory_of_content h hc, by rw [h]; exact hc⟩

theorem Disk.Holds.find?_of_none {d : Disk} {l : Location} (h : d.Holds l none) :
    d.find? l = none := by
  obtain ⟨hdir, hx⟩ := h
  cases hf : d.find? l with
  | none => rfl
  | some e =>
    rw [hf] at hdir hx
    cases e with
    | directory => exact absurd rfl hdir
    | file c => cases hx
    | program r => cases hx

theorem Disk.Holds.find?_of_some {d : Disk} {l : Location} {c : Content} (h : d.Holds l (some c)) :
    ∃ e, d.find? l = some e ∧ e.content? = some c := Option.bind_eq_some_iff.mp h.2

theorem Disk.Holds.congr {d e : Disk} {l : Location} {x : Option Content} (h : d.Holds l x)
    (hfind : e.find? l = d.find? l) : e.Holds l x := by
  rw [Disk.Holds, hfind]
  exact h

/-- The path and that of its copy name two places that hold the cells. -/
structure HoldsCells (target : Path) (d : Disk) (l b : Location) (cells : Cells) : Prop where
  names : d.Names target l
  names_copy : d.Names target.aside b
  ne : b ≠ l
  current : d.Holds l cells.current
  copy : d.Holds b cells.copy

/-- The disks differ at two places at most. -/
def Disk.SameBut (l b : Location) (d e : Disk) : Prop :=
  ∀ k, k ≠ l → k ≠ b → e.find? k = d.find? k

section

variable {target : Path} {m n : Machine} {d e : Disk} {l b : Location} {cells cells' : Cells}

theorem HoldsCells.after (h : HoldsCells target d l b cells) (hdir : e.workDir = d.workDir)
    (hsame : d.SameBut l b e) (hl : e.Holds l cells'.current) (hb : e.Holds b cells'.copy) :
    HoldsCells target e l b cells' := by
  have hkeeps : d.KeepsDirectories e := by
    refine ⟨hdir, fun k => ?_⟩
    by_cases hkl : k = l
    · rw [hkl]
      exact iff_of_false hl.1 h.current.1
    · by_cases hkb : k = b
      · rw [hkb]
        exact iff_of_false hb.1 h.copy.1
      · rw [hsame k hkl hkb]
  exact ⟨hkeeps.names h.names, hkeeps.names h.names_copy, h.ne, hl, hb⟩

/-! ## One step -/

/-- The machine takes the step as the cells do, and changes nothing else. -/
structure StepsAlike (target : Path) (m : Machine) (l b : Location) (cells : Cells)
    (step : StoreStep) : Prop where
  answer : (step.perform target m).1 = (cells.step target.aside step).1
  holds : HoldsCells target (step.perform target m).2.disk l b (cells.step target.aside step).2
  others : m.disk.SameBut l b (step.perform target m).2.disk

theorem StepsAlike.of_perform {step : StoreStep} {answer : Except Failure StoreAnswer}
    (hperform : step.perform target m = (answer, n))
    (hstep : cells.step target.aside step = (answer, cells'))
    (hholds : HoldsCells target n.disk l b cells') (hothers : m.disk.SameBut l b n.disk) :
    StepsAlike target m l b cells step := by
  refine ⟨?_, ?_, ?_⟩
  · rw [hperform, hstep]
  · rw [hperform, hstep]
    exact hholds
  · rw [hperform]
    exact hothers

theorem HoldsCells.unchanged (h : HoldsCells target m.disk l b cells) {step : StoreStep}
    {answer : Except Failure StoreAnswer} (hperform : step.perform target m = (answer, m))
    (hstep : cells.step target.aside step = (answer, cells)) : StepsAlike target m l b cells step :=
  .of_perform hperform hstep h fun _ _ _ => rfl

theorem HoldsCells.setAside (h : HoldsCells target m.disk l b cells) :
    StepsAlike target m l b cells .setAside := by
  obtain ⟨current, copy⟩ := cells
  cases current with
  | none =>
    have habsent : m.disk.isPresent target = false := by
      rw [h.names.isPresent, h.current.find?_of_none]
      rfl
    have hperform : StoreStep.setAside.perform target m = (.ok (.kept none), m) := by
      rw [StoreStep.perform, bind_of_ok (setAside_of_absent habsent)]
      rfl
    exact h.unchanged hperform rfl
  | some x =>
    obtain ⟨e, he, hx⟩ := h.current.find?_of_some
    have hmoved := setAside_of_file h.names he hx h.names_copy h.ne h.copy.1
    have hperform : StoreStep.setAside.perform target m =
        (.ok (.kept (some ⟨target.aside, x.image.length, Sha256.hexDigest x.image⟩)),
          { m with disk := (m.disk.set b (.file x)).erase l }) := by
      rw [StoreStep.perform, bind_of_ok hmoved]
      rfl
    have hothers : m.disk.SameBut l b ((m.disk.set b (.file x)).erase l) := by
      intro k hkl hkb
      rw [Disk.find?_erase_of_ne _ hkl, Disk.find?_set_of_ne _ _ hkb]
    have hcopy : Disk.Holds ((m.disk.set b (.file x)).erase l) b (some x) := by
      refine .of_content (e := .file x) ?_ rfl
      rw [Disk.find?_erase_of_ne _ h.ne, Disk.find?_set_self _ b _ h.names_copy.ne_nil]
    have hcurrent := Disk.Holds.of_none
      (Disk.find?_erase_self (m.disk.set b (.file x)) l h.names.ne_nil)
    exact .of_perform hperform rfl (h.after rfl hothers hcurrent hcopy) hothers

theorem HoldsCells.putBack (h : HoldsCells target m.disk l b cells) :
    StepsAlike target m l b cells .putBack := by
  obtain ⟨current, copy⟩ := cells
  cases copy with
  | none =>
    have habsent : m.disk.isFile target.aside = false := by
      rw [h.names_copy.isFile, h.copy.find?_of_none]
      rfl
    have hperform : StoreStep.putBack.perform target m = (.ok (.found false), m) := by
      rw [StoreStep.perform, bind_of_ok (putBack_of_absent habsent)]
      rfl
    exact h.unchanged hperform rfl
  | some y =>
    obtain ⟨e, he, hy⟩ := h.copy.find?_of_some
    obtain ⟨d, hput, hsame⟩ := putBack_of_copy h.names h.names_copy h.ne he hy h.current.1
    have hperform : StoreStep.putBack.perform target m =
        (.ok (.found true), { m with disk := d }) := by
      rw [StoreStep.perform, bind_of_ok hput]
      rfl
    have hothers : m.disk.SameBut l b d := by
      intro k hkl hkb
      rw [hsame.find?, Disk.find?_erase_of_ne _ hkb, Disk.find?_set_of_ne _ _ hkl]
    have hcurrent : d.Holds l (some y) := by
      refine .of_content (e := e) ?_ hy
      rw [hsame.find?, Disk.find?_erase_of_ne _ h.ne.symm, Disk.find?_set_self _ l _ h.names.ne_nil]
    have hcopy : d.Holds b none := by
      refine .of_none ?_
      rw [hsame.find?, Disk.find?_erase_self _ b h.names_copy.ne_nil]
    exact .of_perform hperform rfl (h.after hsame.workDir hothers hcurrent hcopy) hothers

theorem HoldsCells.write (h : HoldsCells target m.disk l b cells) (c : Content) :
    StepsAlike target m l b cells (.write c) := by
  have hcreate := h.names.create h.current.1 c
  have hperform : (StoreStep.write c).perform target m =
      (.ok .done, { m with disk := m.disk.set l (.file c) }) := by
    rw [StoreStep.perform, bind_of_ok (change_of_ok hcreate)]
    rfl
  have hothers : m.disk.SameBut l b (m.disk.set l (.file c)) :=
    fun k hkl _ => Disk.find?_set_of_ne _ _ hkl
  have hcurrent : Disk.Holds (m.disk.set l (.file c)) l (some c) :=
    .of_content (Disk.find?_set_self _ l (.file c) h.names.ne_nil) rfl
  have hcopy := h.copy.congr (Disk.find?_set_of_ne m.disk (.file c) h.ne)
  exact .of_perform hperform rfl (h.after rfl hothers hcurrent hcopy) hothers

theorem HoldsCells.remove (h : HoldsCells target m.disk l b cells) :
    StepsAlike target m l b cells .remove := by
  obtain ⟨current, copy⟩ := cells
  cases current with
  | none =>
    have hremove : m.disk.remove target = .error .notFound := by
      rw [h.names.remove_eq, h.current.find?_of_none]
    have hperform : StoreStep.remove.perform target m = (.error (.io .notFound), m) := by
      rw [StoreStep.perform, bind_of_error (change_of_error hremove)]
    exact h.unchanged hperform rfl
  | some x =>
    obtain ⟨e, he, -⟩ := h.current.find?_of_some
    have hremove := h.names.remove he fun hdir => h.current.1 (hdir ▸ he)
    have hperform : StoreStep.remove.perform target m =
        (.ok .done, { m with disk := m.disk.erase l }) := by
      rw [StoreStep.perform, bind_of_ok (change_of_ok hremove)]
      rfl
    have hothers : m.disk.SameBut l b (m.disk.erase l) :=
      fun k hkl _ => Disk.find?_erase_of_ne _ hkl
    have hcurrent := Disk.Holds.of_none (Disk.find?_erase_self m.disk l h.names.ne_nil)
    have hcopy := h.copy.congr (Disk.find?_erase_of_ne m.disk h.ne)
    exact .of_perform hperform rfl (h.after rfl hothers hcurrent hcopy) hothers

theorem HoldsCells.perform (h : HoldsCells target m.disk l b cells) (step : StoreStep) :
    StepsAlike target m l b cells step := by
  cases step with
  | setAside => exact h.setAside
  | putBack => exact h.putBack
  | write c => exact h.write c
  | remove => exact h.remove

/-! ## A sequence of steps -/

theorem HoldsCells.performAll (h : HoldsCells target m.disk l b cells) (steps : List StoreStep) :
    (StoreStep.performAll target steps m).1 = (Cells.run target.aside steps cells).1 ∧
      HoldsCells target (StoreStep.performAll target steps m).2.disk l b
        (Cells.run target.aside steps cells).2 ∧
      m.disk.SameBut l b (StoreStep.performAll target steps m).2.disk := by
  induction steps generalizing m cells with
  | nil => exact ⟨rfl, h, fun _ _ _ => rfl⟩
  | cons step rest ih =>
    have hone := h.perform step
    obtain ⟨hanswers, hholds, hothers⟩ := ih hone.holds
    refine ⟨?_, hholds, fun k hkl hkb => ?_⟩
    · rw [StoreStep.performAll, Cells.run]
      simp only
      rw [hone.answer, hanswers]
    · exact (hothers k hkl hkb).trans (hone.others k hkl hkb)

/-! ## Steps that fail -/

theorem eq_of_change_error {operation : Disk → Except IoError Disk} {fault : IoError → Failure}
    {failure : Failure} (h : (Procedure.change operation fault >>= fun _ =>
      (pure StoreAnswer.done : Procedure StoreAnswer)) m = (.error failure, n)) : n = m := by
  cases hop : operation m.disk with
  | ok d =>
    rw [bind_of_ok (change_of_ok hop)] at h
    cases h
  | error e =>
    rw [bind_of_error (change_of_error hop)] at h
    exact (Prod.ext_iff.mp h).2.symm

theorem putBack_of_error {failure : Failure} (hl : m.disk.Names target l)
    (h : putBack target m = (.error failure, n)) : n = m := by
  obtain ⟨b, hb, hne⟩ := hl.aside
  cases hfile : m.disk.isFile target.aside with
  | false =>
    rw [putBack_of_absent hfile] at h
    cases h
  | true =>
    by_cases hdir : m.disk.find? l = some .directory
    · rw [putBack_of_directory hl hfile hdir] at h
      exact (Prod.ext_iff.mp h).2.symm
    · rw [hb.isFile, Option.isSome_iff_exists] at hfile
      obtain ⟨c, hc⟩ := hfile
      obtain ⟨e, he, hc⟩ := Option.bind_eq_some_iff.mp hc
      obtain ⟨d, hput, -⟩ := putBack_of_copy hl hb hne he hc hdir
      rw [hput] at h
      cases h

/-- A step that fails leaves the machine as it was, whatever stands in the two places. -/
theorem StoreStep.eq_of_perform_error {failure : Failure} (hl : m.disk.Names target l)
    (step : StoreStep) (h : step.perform target m = (.error failure, n)) : n = m := by
  cases step with
  | setAside =>
    have houtcome := setAside_outcome target m
    cases hr : DumpConversion.setAside target m with
    | mk answer n' =>
      rw [hr] at houtcome
      cases answer with
      | ok kept =>
        rw [StoreStep.perform, bind_of_ok hr] at h
        cases h
      | error e =>
        rw [StoreStep.perform, bind_of_error hr] at h
        cases houtcome with
        | refused _ _ => exact (Prod.ext_iff.mp h).2.symm
  | putBack =>
    cases hr : DumpConversion.putBack target m with
    | mk answer n' =>
      cases answer with
      | ok isCopy =>
        rw [StoreStep.perform, bind_of_ok hr] at h
        cases h
      | error e =>
        rw [StoreStep.perform, bind_of_error hr] at h
        have hn : n' = n := (Prod.ext_iff.mp h).2
        rw [← hn]
        exact putBack_of_error hl hr
  | write c => exact eq_of_change_error h
  | remove => exact eq_of_change_error h

/-- A path that names a place names another one for the copy. Where each of the two holds nothing or a
file, every sequence of steps gives the answers of the two cells, leaves in the two places what the
cells hold, and changes no other place. A step that fails changes nothing, also where a directory
stands in one of the places. The digest in an answer is the same for every way of reading the file in
pieces. -/
theorem store_refines_cells (hl : m.disk.Names target l) :
    (∃ b, m.disk.Names target.aside b ∧ b ≠ l ∧
      ∀ (cells : Cells) (steps : List StoreStep),
        m.disk.Holds l cells.current → m.disk.Holds b cells.copy →
        (StoreStep.performAll target steps m).1 = (Cells.run target.aside steps cells).1 ∧
        (StoreStep.performAll target steps m).2.disk.Holds l
          (Cells.run target.aside steps cells).2.current ∧
        (StoreStep.performAll target steps m).2.disk.Holds b
          (Cells.run target.aside steps cells).2.copy ∧
        m.disk.SameBut l b (StoreStep.performAll target steps m).2.disk) ∧
    (∀ (step : StoreStep) (failure : Failure) (n : Machine),
      step.perform target m = (.error failure, n) → n = m) ∧
    ∀ pieces : List Bytes, Sha256.hexDigest pieces.flatten =
      (pieces.foldl Sha256.Hasher.absorb Sha256.Hasher.initial).finish.flatMap Sha256.hexByte := by
  refine ⟨?_, fun step failure n h => step.eq_of_perform_error hl h, fun pieces => ?_⟩
  · obtain ⟨b, hb, hne⟩ := hl.aside
    refine ⟨b, hb, hne, fun cells steps hcurrent hcopy => ?_⟩
    have hholds : HoldsCells target m.disk l b cells := ⟨hl, hb, hne, hcurrent, hcopy⟩
    obtain ⟨hanswers, hafter, hothers⟩ := hholds.performAll steps
    exact ⟨hanswers, hafter.current, hafter.copy, hothers⟩
  · rw [Sha256.finish_foldl_absorb]
    rfl

end

/-- An older copy is overwritten, and what is written in the meantime gives way to the file that was
set aside. -/
theorem store_refines_cells_of_shop :
    let target := Path.ofString "shop"
    let shop : Location := ["shop".toList]
    let copy : Location := ["shop.bk".toList]
    let m : Machine :=
      ⟨⟨[(shop, .file (.bytes [7])), (copy, .file (.bytes [1]))], []⟩, [], []⟩
    let steps : List StoreStep := [.setAside, .write (.bytes [2]), .putBack]
    let final := (StoreStep.performAll target steps m).2.disk
    m.disk.Names target shop ∧ m.disk.Holds shop (some (.bytes [7])) ∧
      m.disk.Holds copy (some (.bytes [1])) ∧ final.Holds shop (some (.bytes [7])) ∧
      final.Holds copy none := by
  intro target shop copy m steps final
  have hl : m.disk.Names target shop := ⟨_, rfl, rfl, rfl, rfl⟩
  have haside : target.aside = Path.ofString "shop.bk" := rfl
  have hcopy : m.disk.Names target.aside copy := haside ▸ ⟨_, rfl, rfl, rfl, rfl⟩
  have hshop : m.disk.Holds shop (some (.bytes [7])) := .of_content (e := .file (.bytes [7])) rfl rfl
  have hold : m.disk.Holds copy (some (.bytes [1])) := .of_content (e := .file (.bytes [1])) rfl rfl
  obtain ⟨⟨b, hb, -, hrun⟩, -, -⟩ := store_refines_cells hl
  obtain rfl := hb.unique hcopy
  obtain ⟨-, hfinal, hgone, -⟩ := hrun ⟨some (.bytes [7]), some (.bytes [1])⟩ steps hshop hold
  exact ⟨hl, hshop, hold, hfinal, hgone⟩

end DumpConversion
