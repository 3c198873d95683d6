import DumpConversion.Proofs.Disk.Places
import DumpConversion.Proofs.Text.Joining

/-! # The place beside a file

The path that keeps the previous content of a file is made by text surgery on the path of the file.
On every disk it leads to the same directory, and there to the name with the ending.

* `Path.steps`: the pieces of a path that are followed on a disk.
* `Path.steps_inside`, `Path.steps_written`: the steps of the texts that `Path.aside` puts together.
* `Disk.Names.aside`: the copy of a file has a place of its own.
-/

namespace DumpConversion

set_option autoImplicit false

namespace Path

/-! ## Steps -/

/-- The pieces of a written path that are followed. -/
def steps (s : Text) : List Text := (Text.splitOn '/' s).filter fun piece => !piece.isEmpty

@[simp] theorem steps_nil : steps [] = [] := rfl

theorem steps_append_slash (a b : Text) : steps (a ++ '/' :: b) = steps a ++ steps b := by
  rw [steps, Text.splitOn_append_sep, List.filter_append]
  rfl

theorem steps_piece {n : Text} (hne : n ≠ []) (hn : '/' ∉ n) : steps n = [n] := by
  rw [steps, Text.splitOn_of_not_mem hn, List.filter_cons_of_pos (by simp [hne])]
  rfl

theorem steps_joinWith {pieces : List Text} (h : ∀ piece ∈ pieces, '/' ∉ piece) :
    steps (Text.joinWith ['/'] pieces) = pieces.filter fun piece => !piece.isEmpty := by
  by_cases hne : pieces = []
  · subst hne
    rfl
  · rw [steps, Text.splitOn_joinWith hne h]

/-! ## How a path begins -/

/-- The pieces that a start stands for. -/
def Start.pieces : Start → List Text
  | root => [[]]
  | here => [dot]
  | plain => []

/-- A path with at least one character begins as its first piece says. -/
theorem parts_of_splitOn {p : Path} {x : Text} {xs : List Text}
    (h : Text.splitOn '/' p.text = x :: xs) (hp : p.text ≠ []) :
    p.parts = if x = [] then (.root, xs) else if x = dot then (.here, xs) else (.plain, x :: xs) := by
  have hne : x :: xs ≠ [[]] := fun hs => hp (Text.splitOn_eq_blank_iff.mp (h.trans hs))
  unfold parts
  rw [h]
  cases x with
  | nil =>
    cases xs with
    | nil => exact absurd rfl hne
    | cons y ys => rfl
  | cons c x => rfl

theorem splitOn_eq_parts {p : Path} (h : p.text ≠ []) :
    Text.splitOn '/' p.text = p.parts.1.pieces ++ p.parts.2 := by
  obtain ⟨x, xs, hx⟩ := List.exists_cons_of_ne_nil (Text.splitOn_ne_nil '/' p.text)
  rw [hx, parts_of_splitOn hx h]
  split
  · next hnil => rw [hnil]; rfl
  · split
    · next hdot => rw [hdot]; rfl
    · rfl

/-- A path begins at the root when its start says so, and a plain one begins with a piece. -/
theorem start_cases {p : Path} (h : p.text ≠ []) :
    (p.isAbsolute = true ∧ p.parts.1 = .root) ∨ (p.isAbsolute = false ∧ p.parts.1 = .here) ∨
      p.isAbsolute = false ∧ p.parts.1 = .plain ∧ ∃ x xs, p.parts.2 = x :: xs ∧ x ≠ [] := by
  obtain ⟨c, s, hp⟩ := List.exists_cons_of_ne_nil h
  by_cases hc : c = '/'
  · left
    have hsplit : Text.splitOn '/' p.text = [] :: Text.splitOn '/' s := by
      rw [hp, Text.splitOn, if_pos hc]
    refine ⟨by rw [isAbsolute, hp, hc]; rfl, ?_⟩
    rw [parts_of_splitOn hsplit h, if_pos rfl]
  · right
    have habs : p.isAbsolute = false := by
      simp [isAbsolute, hp, hc]
    obtain ⟨piece, rest, hsplit⟩ :
        ∃ piece rest, Text.splitOn '/' p.text = (c :: piece) :: rest := by
      rw [hp, Text.splitOn, if_neg hc]
      cases Text.splitOn '/' s with
      | nil => exact ⟨[], [], rfl⟩
      | cons piece rest => exact ⟨piece, rest, rfl⟩
    have hne : c :: piece ≠ [] := List.cons_ne_nil c piece
    rw [parts_of_splitOn hsplit h, if_neg hne]
    by_cases hdot : c :: piece = dot
    · rw [if_pos hdot]
      exact .inl ⟨habs, rfl⟩
    · rw [if_neg hdot]
      exact .inr ⟨habs, rfl, c :: piece, rest, rfl, hne⟩

/-! ## Texts that are put together -/

theorem steps_inside (a : Text) {n : Text} (hne : n ≠ []) (hn : '/' ∉ n) :
    steps (inside a n) = steps a ++ [n] := by
  unfold inside
  by_cases ha : a = []
  · subst ha
    exact steps_piece hne hn
  · by_cases hslash : a.getLast? = some '/'
    · obtain ⟨a, rfl⟩ := List.getLast?_eq_some_iff.mp hslash
      rw [if_pos (by simp), List.append_assoc, List.singleton_append, steps_append_slash,
        steps_append_slash, steps_piece hne hn, steps_nil, List.append_nil]
    · rw [if_neg (by simp [ha, hslash]), steps_append_slash, steps_piece hne hn]

theorem steps_written (start : Start) {pieces : List Text} (h : ∀ piece ∈ pieces, '/' ∉ piece) :
    steps (written start pieces) =
      (start.pieces ++ pieces).filter fun piece => !piece.isEmpty := by
  have hjoin := steps_joinWith h
  cases start with
  | root =>
    have hroot := steps_append_slash [] (Text.joinWith ['/'] pieces)
    rw [hjoin] at hroot
    exact hroot
  | plain => exact hjoin
  | here =>
    cases pieces with
    | nil => rfl
    | cons piece rest =>
      have hhere := steps_append_slash dot (Text.joinWith ['/'] (piece :: rest))
      rw [hjoin] at hhere
      exact hhere

theorem head?_inside (a n : Text) : (inside a n).head? = a.head?.or n.head? := by
  unfold inside
  split
  · exact List.head?_append
  · next h =>
    have ha : a ≠ [] := by
      rintro rfl
      exact h rfl
    obtain ⟨c, a, rfl⟩ := List.exists_cons_of_ne_nil ha
    rfl

theorem getLast?_inside (a : Text) {n : Text} (hn : n ≠ []) :
    (inside a n).getLast? = n.getLast? := by
  unfold inside
  split
  · exact List.getLast?_append_of_ne_nil a hn
  · rw [List.getLast?_append_of_ne_nil a (List.cons_ne_nil '/' n)]
    obtain ⟨c, n, rfl⟩ := List.exists_cons_of_ne_nil hn
    rfl

theorem head?_ne_slash {s : Text} (h : '/' ∉ s) : s.head? ≠ some '/' := by
  intro hs
  obtain ⟨t, rfl⟩ := List.head?_eq_some_iff.mp hs
  exact h List.mem_cons_self

theorem isAbsolute_inside_written {start : Start} {pieces : List Text} {n : Text}
    (h : ∀ piece ∈ pieces, '/' ∉ piece) (hn : '/' ∉ n)
    (hplain : start = .plain → ∀ x xs, pieces = x :: xs → x ≠ []) :
    (Path.mk (inside (written start pieces) n)).isAbsolute = decide (start = .root) := by
  rw [isAbsolute, head?_inside]
  cases start with
  | root => rfl
  | here => cases pieces <;> rfl
  | plain =>
    cases pieces with
    | nil => simpa [written, Start.text, Text.joinWith] using head?_ne_slash hn
    | cons x xs =>
      obtain ⟨c, x, rfl⟩ := List.exists_cons_of_ne_nil (hplain rfl x xs rfl)
      have hc : c ≠ '/' := by
        rintro rfl
        exact h _ List.mem_cons_self List.mem_cons_self
      have hhead : (written .plain ((c :: x) :: xs)).head? = some c := by
        cases xs <;> rfl
      rw [hhead]
      simpa using hc

/-! ## Idle pieces -/

theorem not_idle_iff {piece : Text} : isIdle piece = false ↔ piece ≠ [] ∧ piece ≠ dot := by
  rw [isIdle, Bool.or_eq_false_iff, List.isEmpty_eq_false_iff, beq_eq_false_iff_ne]

theorem dropIdleEnd_concat {pieces : List Text} {n : Text} (h : isIdle n = false) :
    dropIdleEnd (pieces ++ [n]) = pieces ++ [n] := by
  simp [dropIdleEnd, h]

theorem exists_idle_dropIdleEnd (pieces : List Text) :
    ∃ idle, pieces = dropIdleEnd pieces ++ idle ∧ ∀ piece ∈ idle, isIdle piece = true := by
  refine ⟨(pieces.reverse.takeWhile isIdle).reverse, ?_, fun piece hpiece => ?_⟩
  · rw [dropIdleEnd, ← List.reverse_append, List.takeWhile_append_dropWhile, List.reverse_reverse]
  · have h := List.all_eq_true.mp (List.all_takeWhile (p := isIdle) (l := pieces.reverse))
    exact h piece (List.mem_reverse.mp hpiece)

theorem exists_parts_concat {p : Path} {n : Text} (hp : p.text ≠ [])
    (hslash : p.text.getLast? ≠ some '/') (hlast : (steps p.text).getLast? = some n)
    (hdot : n ≠ dot) : n ≠ [] ∧ '/' ∉ n ∧ ∃ pieces, p.parts.2 = pieces ++ [n] := by
  obtain ⟨front, last, hs⟩ : ∃ front last, Text.splitOn '/' p.text = front ++ [last] := by
    have h := List.dropLast_append_getLast (Text.splitOn_ne_nil '/' p.text)
    exact ⟨_, _, h.symm⟩
  have hne : last ≠ [] := by
    rintro rfl
    rcases Text.getLast?_of_splitOn (by rw [hs, List.getLast?_concat]) with h | h
    · exact hp h
    · exact hslash h
  have hn : last = n := by
    rw [steps, hs, List.filter_append, List.filter_cons_of_pos (by simp [hne])] at hlast
    simpa using hlast
  subst hn
  refine ⟨hne, Text.not_mem_of_mem_splitOn (s := p.text) (by rw [hs]; simp), ?_⟩
  have hparts := congrArg List.getLast? hs
  rw [splitOn_eq_parts hp, List.getLast?_concat] at hparts
  rcases List.eq_nil_or_concat p.parts.2 with hnil | ⟨pieces, x, hx⟩
  · -- the start alone does not end in such a piece
    rw [hnil, List.append_nil] at hparts
    cases hstart : p.parts.1 with
    | root =>
      rw [hstart] at hparts
      exact absurd (Option.some.inj hparts).symm hne
    | here =>
      rw [hstart] at hparts
      exact absurd (Option.some.inj hparts).symm hdot
    | plain =>
      rw [hstart] at hparts
      cases hparts
  · rw [List.concat_eq_append] at hx
    rw [hx, ← List.append_assoc, List.getLast?_concat, Option.some_inj] at hparts
    exact ⟨pieces, by rw [hx, hparts]⟩

/-! ## The name of the copy -/

theorem append_asideEnding_ne {n x : Text} (h : x.getLast? ≠ some 'k') : n ++ asideEnding ≠ x := by
  rintro rfl
  exact h List.getLast?_append

theorem append_asideEnding_ne_self (n : Text) : n ++ asideEnding ≠ n := fun h =>
  absurd (List.append_right_eq_self.mp h) (by decide)

theorem slash_not_mem_append_asideEnding {n : Text} (h : '/' ∉ n) : '/' ∉ n ++ asideEnding := by
  rw [List.mem_append]
  exact fun hm => hm.elim h (by decide)

/-! ## The path of the copy -/

theorem aside_of_kept {p : Path} {front : List Text} {n : Text}
    (h : dropIdleEnd p.parts.2 = front ++ [n]) (hdots : n ≠ dots) :
    p.aside = ⟨inside (written p.parts.1 (dropIdleEnd front)) (n ++ asideEnding)⟩ := by
  unfold aside
  simp only [h, List.dropLast_concat, List.getLast?_concat]
  rw [if_neg hdots]

theorem aside_of_dots {p : Path} {front : List Text} (h : dropIdleEnd p.parts.2 = front ++ [dots]) :
    p.aside = ⟨inside p.text asideEnding⟩ := by
  unfold aside
  simp only [h, List.getLast?_concat, if_true]

/-- A path and that of its copy are followed by the same steps up to dots, and then by their
names. -/
theorem exists_steps_aside {p : Path} {n : Text} (hp : p.text ≠ [])
    (hslash : p.text.getLast? ≠ some '/') (hlast : (steps p.text).getLast? = some n)
    (hdot : n ≠ dot) (hdots : n ≠ dots) :
    ∃ front idle, (∀ piece ∈ idle, piece = dot) ∧ steps p.text = front ++ idle ++ [n] ∧
      steps p.aside.text = front ++ [n ++ asideEnding] ∧ p.aside.isAbsolute = p.isAbsolute ∧
      p.aside.text.getLast? = some 'k' := by
  obtain ⟨hne, hn, pieces, hpieces⟩ := exists_parts_concat hp hslash hlast hdot
  obtain ⟨idle, hkept, hidle⟩ := exists_idle_dropIdleEnd pieces
  have hidleN : isIdle n = false := not_idle_iff.mpr ⟨hne, hdot⟩
  have haside := aside_of_kept (by rw [hpieces, dropIdleEnd_concat hidleN]) hdots
  generalize dropIdleEnd pieces = kept at hkept haside
  have hsplit := splitOn_eq_parts hp
  rw [hpieces, hkept] at hsplit
  have hmem : ∀ piece ∈ kept, '/' ∉ piece := fun piece hpiece =>
    Text.not_mem_of_mem_splitOn (s := p.text) (by rw [hsplit]; simp [hpiece])
  have hending := slash_not_mem_append_asideEnding hn
  have hendingNe : n ++ asideEnding ≠ [] := List.append_ne_nil_of_left_ne_nil hne _
  refine ⟨(p.parts.1.pieces ++ kept).filter fun piece => !piece.isEmpty,
    idle.filter fun piece => !piece.isEmpty, ?_, ?_, ?_, ?_, ?_⟩
  · intro piece hpiece
    rw [List.mem_filter] at hpiece
    obtain ⟨hmem, hpieceNe⟩ := hpiece
    have hboth := hidle piece hmem
    rw [isIdle, Bool.or_eq_true, beq_iff_eq] at hboth
    exact hboth.resolve_left (by simpa using hpieceNe)
  · rw [steps, hsplit, ← List.append_assoc, ← List.append_assoc, List.filter_append,
      List.filter_append, List.filter_cons_of_pos (by simp [hne])]
    rfl
  · rw [haside, steps_inside _ hendingNe hending, steps_written _ hmem]
  · have hplain : p.parts.1 = .plain → ∀ x xs, kept = x :: xs → x ≠ [] := by
      rintro hstart x xs rfl
      rcases start_cases hp with ⟨-, h⟩ | ⟨-, h⟩ | ⟨-, -, y, ys, hy, hyne⟩
      · rw [h] at hstart; cases hstart
      · rw [h] at hstart; cases hstart
      · rw [hpieces, hkept, List.cons_append, List.cons_append, List.cons.injEq] at hy
        rw [hy.1]
        exact hyne
    rw [haside, isAbsolute_inside_written hmem hending hplain]
    rcases start_cases hp with ⟨habs, h⟩ | ⟨habs, h⟩ | ⟨habs, h, -⟩
    · rw [habs, h]; rfl
    · rw [habs, h]; rfl
    · rw [habs, h]; rfl
  · rw [haside, getLast?_inside _ hendingNe, List.getLast?_append]
    rfl

end Path

/-! ## The place of the copy -/

namespace Disk

theorem locate_eq_ok_iff {d : Disk} {p : Path} {t : Destination} :
    d.locate p = .ok t ↔ p.text ≠ [] ∧ ∃ directory,
      d.follow (if p.isAbsolute then [] else d.workDir) (Path.steps p.text).dropLast =
        .ok directory ∧
      t = ⟨directory, (Path.steps p.text).getLast?, p.text.getLast? == some '/'⟩ := by
  unfold locate Path.steps
  by_cases hp : p.text = []
  · simp [hp]
  · rw [if_neg hp]
    simp only
    split
    · next directory hdir =>
      rw [hdir]
      constructor
      · intro h
        cases h
        exact ⟨hp, directory, rfl, rfl⟩
      · rintro ⟨-, directory', h, rfl⟩
        cases h
        rfl
    · next f hdir =>
      rw [hdir]
      constructor
      · intro h
        cases h
      · rintro ⟨-, directory', h, -⟩
        cases h

theorem follow_append (d : Disk) (l : Location) (xs ys : List Text) :
    d.follow l (xs ++ ys) =
      match d.follow l xs with
      | .ok k => d.follow k ys
      | .error e => .error e := by
  induction xs generalizing l with
  | nil =>
    rw [List.nil_append, follow]
    cases hl : d.enter l with
    | ok k =>
      obtain ⟨rfl, -⟩ := enter_eq_ok_iff.mp hl
      rfl
    | error e =>
      cases ys with
      | nil => rw [follow, hl]
      | cons y ys => rw [follow, hl]
  | cons x xs ih =>
    rw [List.cons_append, follow, follow]
    cases d.enter l with
    | ok k => exact ih (step k x)
    | error e => rfl

theorem directory_of_follow {d : Disk} {l k : Location} {pieces : List Text}
    (h : d.follow l pieces = .ok k) : d.find? k = some .directory := by
  induction pieces generalizing l with
  | nil =>
    obtain ⟨rfl, hdir⟩ := enter_eq_ok_iff.mp h
    exact hdir
  | cons piece rest ih =>
    rw [follow] at h
    cases hl : d.enter l with
    | ok l' => rw [hl] at h; exact ih h
    | error e => rw [hl] at h; cases h

theorem follow_dots {d : Disk} {l : Location} (hl : d.find? l = some .directory) {dots : List Text}
    (h : ∀ piece ∈ dots, piece = Path.dot) : d.follow l dots = .ok l := by
  have henter : d.enter l = .ok l := enter_eq_ok_iff.mpr ⟨rfl, hl⟩
  induction dots with
  | nil => exact henter
  | cons piece rest ih =>
    obtain ⟨rfl, hrest⟩ := List.forall_mem_cons.mp h
    rw [follow, henter]
    simp only [step, if_true]
    exact ih hrest

/-- The copy of a file stands in the directory of the file, under a name of its own. -/
theorem locate_aside {d : Disk} {p : Path} {t : Destination} {n : Text} (ht : d.locate p = .ok t)
    (hslash : t.slash = false) (hname : t.name? = some n) :
    d.locate p.aside = .ok ⟨t.directory, some (n ++ Path.asideEnding), false⟩ := by
  obtain ⟨hlast, hdot, hdots, -⟩ := Destination.location_of_name hname
  obtain ⟨hp, directory, hfollow, rfl⟩ := locate_eq_ok_iff.mp ht
  obtain ⟨front, idle, hidle, hsteps, haside, habs, hend⟩ :=
    Path.exists_steps_aside hp (by simpa using hslash) hlast hdot hdots
  rw [hsteps, List.dropLast_concat, follow_append] at hfollow
  refine locate_eq_ok_iff.mpr ⟨?_, directory, ?_, ?_⟩
  · intro hnil
    rw [hnil] at hend
    cases hend
  · rw [haside, List.dropLast_concat, habs]
    cases hk : d.follow (if p.isAbsolute then [] else d.workDir) front with
    | error e => rw [hk] at hfollow; cases hfollow
    | ok k =>
      rw [hk] at hfollow
      simp only at hfollow
      rw [follow_dots (directory_of_follow hk) hidle] at hfollow
      exact hfollow
  · rw [haside, List.getLast?_concat, hend]
    rfl

/-- The copy of a file has a place of its own. -/
theorem Names.aside {d : Disk} {p : Path} {l : Location} (h : d.Names p l) :
    ∃ b, d.Names p.aside b ∧ b ≠ l := by
  obtain ⟨t, ht, hname, hslash, rfl⟩ := h
  obtain ⟨n, hn⟩ := Option.isSome_iff_exists.mp hname
  have hdot : n ++ Path.asideEnding ≠ Path.dot := Path.append_asideEnding_ne (by decide)
  have hdots : n ++ Path.asideEnding ≠ Path.dots := Path.append_asideEnding_ne (by decide)
  have hasideName : (Destination.mk t.directory (some (n ++ Path.asideEnding)) false).name? =
      some (n ++ Path.asideEnding) :=
    Option.filter_eq_some_iff.mpr ⟨rfl, by simp [hdot, hdots]⟩
  refine ⟨_, ⟨_, locate_aside ht hslash hn, by rw [hasideName]; rfl, rfl, rfl⟩, ?_⟩
  rw [(Destination.location_of_name hasideName).2.2.2, (Destination.location_of_name hn).2.2.2]
  intro h
  exact Path.append_asideEnding_ne_self n (List.append_singleton_inj.mp h).2

/-- What is done with a file, and with others that do not take the place of its copy, leaves its copy
alone. -/
theorem ChangesOnly.read_aside {paths : List Path} {d e : Disk} {p : Path} {b : Location}
    {c : Content} (h : d.ChangesOnly (p :: paths) e)
    (hapart : ∀ q ∈ paths, ¬ d.Overwrites q p.aside) (hb : d.Names p.aside b)
    (hc : d.find? b = some (.file c)) : e.read p.aside = .ok c := by
  have hsame : e.find? b = d.find? b := by
    refine h.find?_of_not_writable (List.forall_mem_cons.mpr ⟨fun hp => ?_, fun q hq =>
      hb.not_writable (hapart q hq)⟩)
    obtain ⟨b', hb', hne⟩ := (writable_eq_ok_iff.mp hp).1.aside
    exact hne (hb'.unique hb)
  exact (h.keepsDirectories.names hb).read (hsame.trans hc) rfl

/-- A path without a name at its end can lead to something other than a directory only by going up,
and then it has no copy. -/
theorem locate_aside_of_no_name {d : Disk} {p : Path} {t : Destination} (ht : d.locate p = .ok t)
    (hslash : t.slash = false) (hname : t.name? = none)
    (hdir : d.find? t.location ≠ some .directory) :
    ∃ e, d.locate p.aside = .error e := by
  obtain ⟨hp, directory, hfollow, rfl⟩ := locate_eq_ok_iff.mp ht
  have hfound := directory_of_follow hfollow
  have hlast : (Path.steps p.text).getLast? = some Path.dots := by
    cases hl : (Path.steps p.text).getLast? with
    | none =>
      rw [Destination.location, hl] at hdir
      exact absurd hfound hdir
    | some n =>
      by_cases hdot : n = Path.dot
      · rw [Destination.location, hl, hdot] at hdir
        exact absurd hfound hdir
      · by_cases hdots : n = Path.dots
        · rw [hdots]
        · rw [Destination.name?, hl] at hname
          simp [hdot, hdots] at hname
  obtain ⟨-, -, pieces, hpieces⟩ :=
    Path.exists_parts_concat hp (by simpa using hslash) hlast (by decide)
  have haside := Path.aside_of_dots (by
    rw [hpieces, Path.dropIdleEnd_concat (show Path.isIdle Path.dots = false by decide)])
  have hsteps : Path.steps p.aside.text = Path.steps p.text ++ [Path.asideEnding] := by
    rw [haside, Path.steps_inside _ (by decide) (by decide)]
  have habs : p.aside.isAbsolute = p.isAbsolute := by
    obtain ⟨c, s, hs⟩ := List.exists_cons_of_ne_nil hp
    rw [Path.isAbsolute, Path.isAbsolute, haside, Path.head?_inside, hs]
    rfl
  have htarget : Path.steps p.text = (Path.steps p.text).dropLast ++ [Path.dots] := by
    obtain ⟨front, hfront⟩ := List.getLast?_eq_some_iff.mp hlast
    rw [hfront, List.dropLast_concat]
  cases hlocate : d.locate p.aside with
  | error e => exact ⟨e, rfl⟩
  | ok u =>
    -- the file itself would be a directory on the way
    obtain ⟨-, k, hk, -⟩ := locate_eq_ok_iff.mp hlocate
    rw [hsteps, List.dropLast_concat, habs, htarget, follow_append, hfollow] at hk
    rw [Destination.location, hlast] at hdir
    simp only [follow, enter_eq_ok_iff.mpr ⟨rfl, hfound⟩] at hk
    exact absurd (enter_eq_ok_iff.mp hk).2 hdir

end Disk

end DumpConversion
