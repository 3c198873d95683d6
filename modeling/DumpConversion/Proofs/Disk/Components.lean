import DumpConversion.Proofs.Disk.Aside

/-! # The components of the place beside

The path that keeps the previous content of a file is put together from the text of its path. What
it says is what the path says, with the ending at the name of the file, and with the ending for a
name where the path has none. How the path is written makes no difference: slashes in a row, slashes
at the end and pieces of a single dot come and go.

* `Path.said`: the components of a list of pieces.
* `Path.Follows`: the pieces that can follow a start. What is written from them is read as the same
  components (`Path.components_written`).
* `Path.parent?`: the path without its last component.
* `Path.directory`, `Path.lastName`: where a path has its file, and under which name
  (`Path.components_split`, `Path.components_aside`).
* `Path.aside_keeps_apart`: where the copies of files are.
-/

namespace DumpConversion

set_option autoImplicit false

namespace Path

/-! ## Pieces -/

/-- The components of the pieces that say something. -/
def said (pieces : List Text) : List Component :=
  (pieces.filter fun piece => !isIdle piece).map componentOf

theorem components_eq (p : Path) : p.components = p.parts.1.component ++ said p.parts.2 := rfl

theorem said_append (xs ys : List Text) : said (xs ++ ys) = said xs ++ said ys := by
  rw [said, List.filter_append, List.map_append]
  rfl

theorem said_of_idle {pieces : List Text} (h : ∀ piece ∈ pieces, isIdle piece = true) :
    said pieces = [] := by
  have hnone : (pieces.filter fun piece => !isIdle piece) = [] :=
    List.filter_eq_nil_iff.mpr fun piece hpiece => by simp [h piece hpiece]
  rw [said, hnone]
  rfl

theorem said_piece {n : Text} (h : isIdle n = false) : said [n] = [componentOf n] := by
  rw [said, List.filter_cons_of_pos (by simp [h])]
  rfl

theorem said_dropIdleEnd (pieces : List Text) : said (dropIdleEnd pieces) = said pieces := by
  obtain ⟨idle, hpieces, hidle⟩ := exists_idle_dropIdleEnd pieces
  conv_rhs => rw [hpieces, said_append, said_of_idle hidle, List.append_nil]

theorem not_idle_of_dropIdleEnd {pieces front : List Text} {n : Text}
    (h : dropIdleEnd pieces = front ++ [n]) : isIdle n = false := by
  have hreverse : pieces.reverse.dropWhile isIdle = n :: front.reverse := by
    rw [← List.reverse_reverse (pieces.reverse.dropWhile isIdle)]
    exact (congrArg List.reverse h).trans List.reverse_concat
  have hhead := List.head?_dropWhile_not isIdle pieces.reverse
  rw [hreverse] at hhead
  exact hhead

theorem componentOf_of_ne_dots {n : Text} (h : n ≠ dots) : componentOf n = .name n := if_neg h

/-! ## Texts -/

theorem parts_slash (s : Text) : parts ⟨'/' :: s⟩ = (.root, Text.splitOn '/' s) :=
  have hsplit : Text.splitOn '/' ('/' :: s) = [] :: Text.splitOn '/' s := if_pos rfl
  parts_of_splitOn hsplit (List.cons_ne_nil '/' s)

theorem parts_append_slash {a : Text} (ha : a ≠ []) (s : Text) :
    parts ⟨a ++ '/' :: s⟩ = ((parts ⟨a⟩).1, (parts ⟨a⟩).2 ++ Text.splitOn '/' s) := by
  obtain ⟨x, xs, hx⟩ := List.exists_cons_of_ne_nil (Text.splitOn_ne_nil '/' a)
  have hsplit : Text.splitOn '/' (a ++ '/' :: s) = x :: (xs ++ Text.splitOn '/' s) := by
    rw [Text.splitOn_append_sep, hx, List.cons_append]
  rw [parts_of_splitOn hx ha, parts_of_splitOn hsplit (List.append_ne_nil_of_left_ne_nil ha _)]
  split
  · rfl
  · split
    · rfl
    · rfl

theorem components_slash (s : Text) :
    components ⟨'/' :: s⟩ = .root :: said (Text.splitOn '/' s) := by
  rw [components_eq, parts_slash]
  rfl

theorem components_append_slash {a : Text} (ha : a ≠ []) (s : Text) :
    components ⟨a ++ '/' :: s⟩ = components ⟨a⟩ ++ said (Text.splitOn '/' s) := by
  rw [components_eq, components_eq, parts_append_slash ha, said_append, List.append_assoc]

theorem components_piece {n : Text} (hn : '/' ∉ n) (hidle : isIdle n = false) :
    components ⟨n⟩ = [componentOf n] := by
  obtain ⟨hne, hdot⟩ := not_idle_iff.mp hidle
  rw [components_eq, parts_of_splitOn (Text.splitOn_of_not_mem hn) hne, if_neg hne, if_neg hdot]
  exact said_piece hidle

/-- A name that is put inside a directory is one more component. -/
theorem components_inside (a : Text) {n : Text} (hn : '/' ∉ n) (hidle : isIdle n = false) :
    components ⟨inside a n⟩ = components ⟨a⟩ ++ [componentOf n] := by
  have hsaid : said (Text.splitOn '/' n) = [componentOf n] := by
    rw [Text.splitOn_of_not_mem hn, said_piece hidle]
  unfold inside
  by_cases ha : a = []
  · subst ha
    exact components_piece hn hidle
  · by_cases hslash : a.getLast? = some '/'
    · obtain ⟨b, rfl⟩ := List.getLast?_eq_some_iff.mp hslash
      rw [if_pos (by simp), List.append_assoc, List.singleton_append]
      -- the slash at the end says nothing, unless it is the root
      cases b with
      | nil => exact (components_slash n).trans (by rw [hsaid]; rfl)
      | cons c b =>
        have hb : c :: b ≠ [] := List.cons_ne_nil c b
        rw [components_append_slash hb, components_append_slash hb, hsaid]
        exact congrArg (· ++ [componentOf n]) (List.append_nil _).symm
    · rw [if_neg (by simp [ha, hslash]), components_append_slash ha, hsaid]

/-! ## Starts and pieces -/

/-- The pieces can follow the start in a path: no slash stands in them, and a path that begins with
neither the root nor a dot begins with a piece that says something. -/
structure Follows (start : Start) (pieces : List Text) : Prop where
  slashFree : ∀ piece ∈ pieces, '/' ∉ piece
  first : start = .plain → ∀ piece ∈ pieces.head?, isIdle piece = false

theorem follows_parts (p : Path) : Follows p.parts.1 p.parts.2 := by
  by_cases hp : p.text = []
  · have hparts : p.parts = (.plain, []) := by
      rw [parts, hp]
      rfl
    rw [hparts]
    exact ⟨fun piece hpiece => absurd hpiece List.not_mem_nil, fun _ piece hpiece => by cases hpiece⟩
  · obtain ⟨x, xs, hx⟩ := List.exists_cons_of_ne_nil (Text.splitOn_ne_nil '/' p.text)
    have hfree : ∀ piece ∈ x :: xs, '/' ∉ piece := fun piece hpiece =>
      Text.not_mem_of_mem_splitOn (hx ▸ hpiece)
    rw [parts_of_splitOn hx hp]
    split
    · exact ⟨(List.forall_mem_cons.mp hfree).2, fun h => by cases h⟩
    · next hne =>
      split
      · exact ⟨(List.forall_mem_cons.mp hfree).2, fun h => by cases h⟩
      · next hdot => exact ⟨hfree, fun _ piece hpiece => by
          cases hpiece
          exact not_idle_iff.mpr ⟨hne, hdot⟩⟩

theorem Follows.of_append {start : Start} {front tail : List Text}
    (h : Follows start (front ++ tail)) : Follows start front where
  slashFree := fun piece hpiece => h.slashFree piece (List.mem_append_left tail hpiece)
  first := fun hstart piece hpiece => h.first hstart piece (by
    rw [List.head?_append, Option.mem_def.mp hpiece]
    rfl)

theorem Follows.dropIdleEnd {start : Start} {pieces : List Text} (h : Follows start pieces) :
    Follows start (Path.dropIdleEnd pieces) := by
  obtain ⟨idle, hpieces, -⟩ := exists_idle_dropIdleEnd pieces
  rw [hpieces] at h
  exact h.of_append

/-- What is written is read again. -/
theorem components_written {start : Start} {pieces : List Text} (h : Follows start pieces) :
    components ⟨written start pieces⟩ = start.component ++ said pieces := by
  cases pieces with
  | nil => cases start <;> rfl
  | cons x xs =>
    have hsplit : Text.splitOn '/' (Text.joinWith ['/'] (x :: xs)) = x :: xs :=
      Text.splitOn_joinWith (List.cons_ne_nil x xs) h.slashFree
    cases start with
    | root =>
      have hroot := components_slash (Text.joinWith ['/'] (x :: xs))
      rw [hsplit] at hroot
      exact hroot
    | here =>
      have hhere := components_append_slash (List.cons_ne_nil '.' [])
        (Text.joinWith ['/'] (x :: xs))
      rw [hsplit] at hhere
      exact hhere
    | plain =>
      -- an idle first piece would be read as another start
      obtain ⟨hx, hdot⟩ := not_idle_iff.mp (h.first rfl x rfl)
      have hne : Text.joinWith ['/'] (x :: xs) ≠ [] := by
        intro hnil
        rw [hnil] at hsplit
        exact hx (List.cons.inj hsplit).1.symm
      rw [components_eq, parts_of_splitOn (p := ⟨written .plain (x :: xs)⟩) hsplit hne, if_neg hx,
        if_neg hdot]

/-! ## The end of a path -/

/-- The path without its last component. The root and the empty path have none. -/
def parent? (p : Path) : Option Path :=
  match dropIdleEnd p.parts.2 with
  | [] => if p.parts.1 = .here then some ⟨[]⟩ else none
  | piece :: rest => some ⟨written p.parts.1 (dropIdleEnd (piece :: rest).dropLast)⟩

/-- The directory in which a path has its file: the parent, or all of a path that ends in no name. -/
def directory (p : Path) : Path := if p.fileName?.isSome then p.parent?.getD p else p

/-- The name in which a path ends, empty when it ends in none. -/
def lastName (p : Path) : Text := p.fileName?.getD []

/-- The component of a name. Without characters it is none. -/
def Component.ofName (n : Text) : List Component := if n = [] then [] else [.name n]

section

variable {p : Path} {front : List Text} {n : Text}

theorem components_of_kept (h : dropIdleEnd p.parts.2 = front ++ [n]) :
    p.components =
      components ⟨written p.parts.1 (dropIdleEnd front)⟩ ++ [componentOf n] := by
  have hfollows := (follows_parts p).dropIdleEnd
  rw [h] at hfollows
  rw [components_eq, ← said_dropIdleEnd, h, said_append, said_piece (not_idle_of_dropIdleEnd h),
    components_written hfollows.of_append.dropIdleEnd, said_dropIdleEnd, List.append_assoc]

theorem parent?_of_kept (h : dropIdleEnd p.parts.2 = front ++ [n]) :
    p.parent? = some ⟨written p.parts.1 (dropIdleEnd front)⟩ := by
  obtain ⟨piece, rest, hkept⟩ :=
    List.exists_cons_of_ne_nil (List.append_ne_nil_of_right_ne_nil front (List.cons_ne_nil n []))
  rw [parent?, h, hkept]
  simp only
  rw [← hkept, List.dropLast_concat]

theorem fileName?_of_nil (h : dropIdleEnd p.parts.2 = []) : p.fileName? = none := by
  have hstart : p.components = p.parts.1.component := by
    rw [components_eq, ← said_dropIdleEnd, h]
    exact List.append_nil _
  rw [fileName?, hstart]
  cases p.parts.1 <;> rfl

theorem fileName?_of_kept (h : dropIdleEnd p.parts.2 = front ++ [n]) :
    p.fileName? = if n = dots then none else some n := by
  rw [fileName?, components_of_kept h, List.getLast?_concat]
  by_cases hdots : n = dots
  · rw [componentOf, if_pos hdots, if_pos hdots]
  · rw [componentOf, if_neg hdots, if_neg hdots]

theorem exists_kept_of_name (h : p.fileName? = some n) :
    n ≠ dots ∧ ∃ front, dropIdleEnd p.parts.2 = front ++ [n] := by
  rcases List.eq_nil_or_concat' (dropIdleEnd p.parts.2) with hkept | ⟨front, m, hkept⟩
  · rw [fileName?_of_nil hkept] at h
    cases h
  · rw [fileName?_of_kept hkept] at h
    by_cases hdots : m = dots
    · rw [if_pos hdots] at h
      cases h
    · rw [if_neg hdots] at h
      cases h
      exact ⟨hdots, front, hkept⟩

theorem directory_of_name (h : p.fileName? = some n) : p.parent? = some p.directory := by
  obtain ⟨-, front, hkept⟩ := exists_kept_of_name h
  rw [directory, h, parent?_of_kept hkept]
  rfl

theorem directory_of_no_name (h : p.fileName? = none) : p.directory = p := by
  rw [directory, h]
  rfl

theorem lastName_of_name (h : p.fileName? = some n) : p.lastName = n := by
  rw [lastName, h]
  rfl

theorem lastName_of_no_name (h : p.fileName? = none) : p.lastName = [] := by
  rw [lastName, h]
  rfl

theorem ofName_of_name (h : p.fileName? = some n) : Component.ofName n = [.name n] := by
  obtain ⟨-, front, hkept⟩ := exists_kept_of_name h
  exact if_neg (not_idle_iff.mp (not_idle_of_dropIdleEnd hkept)).1

theorem aside_of_no_name (h : p.fileName? = none) : p.aside = ⟨inside p.text asideEnding⟩ := by
  rcases List.eq_nil_or_concat' (dropIdleEnd p.parts.2) with hkept | ⟨front, n, hkept⟩
  · unfold aside
    rw [hkept]
    rfl
  · rw [fileName?_of_kept hkept] at h
    by_cases hdots : n = dots
    · subst hdots
      exact aside_of_dots hkept
    · rw [if_neg hdots] at h
      cases h

end

/-- A path is its directory and the name in which it ends. -/
theorem components_split (p : Path) :
    p.components = p.directory.components ++ Component.ofName p.lastName := by
  cases hname : p.fileName? with
  | none =>
    rw [directory_of_no_name hname, lastName_of_no_name hname]
    exact (List.append_nil _).symm
  | some n =>
    obtain ⟨hdots, front, hkept⟩ := exists_kept_of_name hname
    have hdirectory := (directory_of_name hname).symm.trans (parent?_of_kept hkept)
    rw [Option.some.inj hdirectory, lastName_of_name hname, ofName_of_name hname,
      components_of_kept hkept, componentOf_of_ne_dots hdots]

/-! ## The path of the copy -/

/-- The copy is written into the directory, under the name with the ending. -/
theorem aside_eq (p : Path) : p.aside = ⟨inside p.directory.text (p.lastName ++ asideEnding)⟩ := by
  cases hname : p.fileName? with
  | none =>
    rw [aside_of_no_name hname, directory_of_no_name hname, lastName_of_no_name hname]
    rfl
  | some n =>
    obtain ⟨hdots, front, hkept⟩ := exists_kept_of_name hname
    have hdirectory := (directory_of_name hname).symm.trans (parent?_of_kept hkept)
    rw [aside_of_kept hkept hdots, Option.some.inj hdirectory, lastName_of_name hname]

theorem slash_not_mem_lastName (p : Path) : '/' ∉ p.lastName := by
  cases hname : p.fileName? with
  | none =>
    rw [lastName_of_no_name hname]
    exact List.not_mem_nil
  | some n =>
    obtain ⟨-, front, hkept⟩ := exists_kept_of_name hname
    rw [lastName_of_name hname]
    exact (follows_parts p).dropIdleEnd.slashFree n (by simp [hkept])

theorem components_aside (p : Path) :
    p.aside.components = p.directory.components ++ [.name (p.lastName ++ asideEnding)] := by
  have hslash := slash_not_mem_append_asideEnding (slash_not_mem_lastName p)
  have hidle : isIdle (p.lastName ++ asideEnding) = false :=
    not_idle_iff.mpr ⟨append_asideEnding_ne (by decide), append_asideEnding_ne (by decide)⟩
  have hdots : p.lastName ++ asideEnding ≠ dots := append_asideEnding_ne (by decide)
  rw [aside_eq, components_inside _ hslash hidle, componentOf_of_ne_dots hdots]

theorem aside_components_ne (p : Path) : p.aside.components ≠ p.components := by
  rw [components_aside, components_split p, Ne, List.append_right_inj, Component.ofName]
  split
  · exact List.cons_ne_nil _ _
  · intro h
    exact append_asideEnding_ne_self p.lastName (Component.name.inj (List.cons.inj h).1)

/-- Copies are in one place exactly when what they are copies of is in one place. -/
theorem aside_components_iff {p q : Path} :
    p.aside.components = q.aside.components ↔ p.components = q.components := by
  constructor
  · intro h
    -- the ending comes off the last name, and what is left is the name or shows that there is none
    rw [components_aside, components_aside, List.append_singleton_inj] at h
    obtain ⟨hdirectory, hlast⟩ := h
    have hname := List.append_cancel_right (Component.name.inj hlast)
    rw [components_split p, components_split q, hdirectory, hname]
  · intro h
    have hname : p.lastName = q.lastName := by
      rw [lastName, lastName, fileName?, fileName?, h]
    rw [components_split p, components_split q, hname, List.append_left_inj] at h
    rw [components_aside, components_aside, h, hname]

/-! ## Every path -/

/-- The copy of a file is in another place than the file. Of a path that ends in a name it is in the
same directory, under the name with the ending. Two paths have their copies in one place exactly when
they lead to one place themselves. -/
theorem aside_keeps_apart (p : Path) :
    p.aside.components ≠ p.components ∧
      (∀ n, p.fileName? = some n → ∃ directory, p.parent? = some directory ∧
        p.components = directory.components ++ [.name n] ∧
        p.aside.components = directory.components ++ [.name (n ++ asideEnding)]) ∧
      ∀ q : Path, p.aside.components = q.aside.components ↔ p.components = q.components := by
  refine ⟨aside_components_ne p, fun n hname => ⟨p.directory, directory_of_name hname, ?_, ?_⟩,
    fun q => aside_components_iff⟩
  · rw [components_split p, lastName_of_name hname, ofName_of_name hname]
  · rw [components_aside, lastName_of_name hname]

/-- Slashes in a row and a dot at the end are no part of the name. -/
theorem aside_keeps_apart_of_odd_spelling :
    (ofString "/data//shop.db/./").fileName? = some "shop.db".toList ∧
      (∃ directory, (ofString "/data//shop.db/./").parent? = some directory ∧
        (ofString "/data//shop.db/./").components =
          directory.components ++ [.name "shop.db".toList] ∧
        (ofString "/data//shop.db/./").aside.components =
          directory.components ++ [.name "shop.db.bk".toList]) ∧
      (ofString "/data//shop.db/./").components = (ofString "/data/./shop.db").components ∧
      (ofString "/data//shop.db/./").aside.components =
        (ofString "/data/./shop.db").aside.components := by
  have hname : (ofString "/data//shop.db/./").fileName? = some "shop.db".toList := by decide
  have hsame : (ofString "/data//shop.db/./").components =
      (ofString "/data/./shop.db").components := by decide
  obtain ⟨-, hbeside, hplaces⟩ := aside_keeps_apart (ofString "/data//shop.db/./")
  exact ⟨hname, hbeside _ hname, hsame, (hplaces _).mpr hsame⟩

/-- A path that goes up at its end names no file, so that the copy has the ending for its name. -/
example : (ofString "data/../.").aside = ofString "data/.././.bk" := by decide

end Path

end DumpConversion
