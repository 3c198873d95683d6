import DumpConversion.Proofs.Text.Literals

/-! # Occurrences by position

A literal that cannot overlap itself is found by a search from the left wherever it stands. So what
the search takes out and how often can be told from the text alone, position by position.

* `Text.positions`: the positions at which a literal stands.
* `Text.uncovered`: the text without the characters of all occurrences, taken out at once.
* `Text.SelfOverlaps`: the literal begins again inside itself.
* `Text.removeAll_eq_uncovered`: removal from the left is removal at once.
-/

namespace DumpConversion.Text

set_option autoImplicit false

/-! ## Positions -/

/-- The literal `w` stands in the text at position `i`. -/
def standsAt (w s : Text) (i : Nat) : Bool := w.isPrefixOf (s.drop i)

/-- The positions at which the literal `w` stands, in order. -/
def positions (w s : Text) : List Nat := (List.range s.length).filter (standsAt w s)

/-- The character at position `i` belongs to an occurrence of the literal `w`. -/
def covers (w s : Text) (i : Nat) : Bool :=
  (positions w s).any fun j => decide (j ≤ i) && decide (i < j + w.length)

/-- The characters that belong to no occurrence of the literal `w`, in order. -/
def uncovered (w s : Text) : Text :=
  (List.range s.length).filterMap fun i => if covers w s i then none else s[i]?

/-- Some proper end of the literal that is not empty is a front of it, so that two occurrences can
share characters. -/
def SelfOverlaps (w : Text) : Prop := ∃ k, 0 < k ∧ k < w.length ∧ w.drop k <+: w

instance (w : Text) : Decidable (SelfOverlaps w) :=
  decidable_of_iff (∃ k < w.length, 0 < k ∧ w.drop k <+: w)
    ⟨fun ⟨k, hk, hpos, h⟩ => ⟨k, hpos, hk, h⟩, fun ⟨k, hpos, hk, h⟩ => ⟨k, hk, hpos, h⟩⟩

variable {w : Text}

theorem standsAt_iff {s : Text} {i : Nat} : standsAt w s i = true ↔ w <+: s.drop i :=
  List.isPrefixOf_iff_prefix

theorem mem_positions_iff {s : Text} (hw : w ≠ []) {i : Nat} :
    i ∈ positions w s ↔ w <+: s.drop i := by
  rw [positions, List.mem_filter, standsAt_iff, List.mem_range, and_iff_right_iff_imp]
  intro h
  by_contra hi
  rw [List.drop_eq_nil_of_le (Nat.le_of_not_lt hi), List.prefix_nil] at h
  exact hw h

/-- No occurrence begins inside another one. -/
theorem not_prefix_drop (hover : ¬ SelfOverlaps w) {x : Text} (h : w <+: x) {k : Nat} (hk : 0 < k)
    (hlt : k < w.length) : ¬ w <+: x.drop k := by
  obtain ⟨r, rfl⟩ := h
  intro hagain
  rw [List.drop_append_of_le_length (Nat.le_of_lt hlt)] at hagain
  refine hover ⟨k, hk, hlt, ?_⟩
  exact List.prefix_of_prefix_length_le (List.prefix_append (w.drop k) r) hagain (by simp)

theorem positions_apart (hw : w ≠ []) (hover : ¬ SelfOverlaps w) {s : Text} {i j : Nat}
    (hi : i ∈ positions w s) (hj : j ∈ positions w s) (hij : i < j) : i + w.length ≤ j := by
  rw [mem_positions_iff hw] at hi hj
  by_contra hlt
  refine not_prefix_drop hover hi (k := j - i) (by omega) (by omega) ?_
  rwa [List.drop_drop, Nat.add_sub_of_le (Nat.le_of_lt hij)]

/-! ## A text that begins with the literal -/

theorem positions_append (hw : w ≠ []) (hover : ¬ SelfOverlaps w) (s : Text) :
    positions w (w ++ s) = 0 :: (positions w s).map (w.length + ·) := by
  obtain ⟨n, hn⟩ := Nat.exists_eq_succ_of_ne_zero (mt List.length_eq_zero_iff.mp hw)
  have hfront : (List.range w.length).filter (standsAt w (w ++ s)) = [0] := by
    have hinside : (List.map Nat.succ (List.range n)).filter (standsAt w (w ++ s)) = [] := by
      rw [List.filter_eq_nil_iff]
      intro k hk hstands
      obtain ⟨i, hi, rfl⟩ := List.mem_map.mp hk
      rw [List.mem_range] at hi
      exact not_prefix_drop hover (List.prefix_append w s) (Nat.succ_pos i) (by omega)
        (standsAt_iff.mp hstands)
    rw [hn, List.range_succ_eq_map, List.filter_cons_of_pos, hinside]
    exact standsAt_iff.mpr (List.prefix_append w s)
  have hbehind : standsAt w (w ++ s) ∘ (w.length + ·) = standsAt w s := by
    funext i
    rw [Function.comp_apply, standsAt, standsAt, ← List.drop_drop, List.drop_left]
  rw [positions, List.length_append, List.range_add, List.filter_append, hfront, List.filter_map,
    hbehind]
  rfl

theorem uncovered_append (hw : w ≠ []) (hover : ¬ SelfOverlaps w) (s : Text) :
    uncovered w (w ++ s) = uncovered w s := by
  have hpositions := positions_append hw hover s
  have hfront : ∀ i < w.length, covers w (w ++ s) i = true := by
    intro i hi
    rw [covers, hpositions, List.any_cons]
    simp [hi]
  have hbehind : ∀ i, covers w (w ++ s) (w.length + i) = covers w s i := by
    intro i
    rw [covers, hpositions, List.any_cons, List.any_map, covers]
    have hno : ¬ w.length + i < w.length := by omega
    simp [hno, Nat.add_assoc, Function.comp_def]
  rw [uncovered, List.length_append, List.range_add, List.filterMap_append, List.filterMap_map]
  have hnone : (List.range w.length).filterMap
      (fun i => if covers w (w ++ s) i then none else (w ++ s)[i]?) = [] := by
    rw [List.filterMap_eq_nil_iff]
    intro i hi
    rw [if_pos (hfront i (List.mem_range.mp hi))]
  rw [hnone, List.nil_append, uncovered]
  refine congrArg (fun f => List.filterMap f _) (funext fun i => ?_)
  rw [Function.comp_apply, hbehind, List.getElem?_append_right (Nat.le_add_right _ i),
    Nat.add_sub_cancel_left]

/-! ## A text that does not -/

theorem positions_cons {c : Char} {s : Text} (h : w.isPrefixOf (c :: s) = false) :
    positions w (c :: s) = (positions w s).map Nat.succ := by
  have hhere : ¬ standsAt w (c :: s) 0 = true := by
    rw [standsAt, List.drop_zero, h]
    exact Bool.false_ne_true
  rw [positions, List.length_cons, List.range_succ_eq_map, List.filter_cons_of_neg hhere,
    List.filter_map]
  rfl

theorem uncovered_cons {c : Char} {s : Text} (h : w.isPrefixOf (c :: s) = false) :
    uncovered w (c :: s) = c :: uncovered w s := by
  have hpositions := positions_cons h
  have hhere : ¬ covers w (c :: s) 0 = true := by
    rw [covers, hpositions]
    simp
  have hbehind : ∀ i, covers w (c :: s) (i + 1) = covers w s i := by
    intro i
    rw [covers, hpositions, List.any_map, covers]
    simp [Function.comp_def, Nat.succ_add]
  rw [uncovered, List.length_cons, List.range_succ_eq_map,
    List.filterMap_cons_some (b := c) (by rw [if_neg hhere]; rfl), List.filterMap_map, uncovered]
  refine congrArg (fun f => c :: List.filterMap f _) (funext fun i => ?_)
  rw [Function.comp_apply, hbehind]
  rfl

/-! ## Searching from the left -/

/-- As many occurrences are replaced as there are. -/
theorem replaceAll_count (hw : w ≠ []) (hover : ¬ SelfOverlaps w) (q s : Text) :
    (replaceAll w q s).2 = (positions w s).length := by
  induction s using replaceAll_induction hw with
  | nil => rfl
  | found s ih =>
    rw [Text.replaceAll_prefix hw, positions_append hw hover, List.length_cons, List.length_map, ← ih]
  | passed c s hmatch ih =>
    rw [replaceAll_cons_of_no_match hmatch, positions_cons hmatch, List.length_map, ← ih]

/-- Occurrences that are removed one after the other are removed all at once. -/
theorem removeAll_eq_uncovered (hw : w ≠ []) (hover : ¬ SelfOverlaps w) (s : Text) :
    (replaceAll w [] s).1 = uncovered w s := by
  induction s using replaceAll_induction hw with
  | nil => rfl
  | found s ih => rw [Text.replaceAll_prefix hw, List.nil_append, uncovered_append hw hover, ih]
  | passed c s hmatch ih => rw [replaceAll_cons_of_no_match hmatch, uncovered_cons hmatch, ih]

end DumpConversion.Text
