import DumpConversion.Text.Blank

/-! # Occurrences of a literal in a text

* `occursIn p s`: the literal `p` stands somewhere in `s`.
* `replaceAll p q s`: every occurrence of `p` in `s`, from the left and without overlaps, gives
  way to `q`; the second component is their number. Text put in is not searched again.
-/

namespace DumpConversion.Text

set_option autoImplicit false

/-! ## Searching -/

/-- The literal `p` stands somewhere in the text. -/
def occursIn (p : Text) : Text → Bool
  | [] => p.isEmpty
  | c :: s => p.isPrefixOf (c :: s) || occursIn p s

/-! ## Replacing -/

/-- Replaces the occurrences of `p` by `q` after passing over `skip` characters, which belong to an
occurrence already replaced. -/
def replaceFrom (p q : Text) : Nat → Text → Text × Nat
  | _, [] => ([], 0)
  | skip + 1, _ :: s => replaceFrom p q skip s
  | 0, c :: s =>
    if p.isPrefixOf (c :: s) then
      let r := replaceFrom p q (p.length - 1) s
      (q ++ r.1, r.2 + 1)
    else
      let r := replaceFrom p q 0 s
      (c :: r.1, r.2)

/-- The text with the occurrences of `p` replaced by `q`, and how many there were. -/
def replaceAll (p q s : Text) : Text × Nat := replaceFrom p q 0 s

/-! ## Small lemmas -/

theorem occursIn_iff {p s : Text} : occursIn p s = true ↔ p <:+: s := by
  induction s with
  | nil => simp [occursIn]
  | cons c s ih => simp [occursIn, ih, List.infix_cons_iff]

theorem replaceFrom_skip (p q : Text) (k : Nat) (s : Text) :
    replaceFrom p q k s = replaceFrom p q 0 (s.drop k) := by
  induction s generalizing k with
  | nil => cases k <;> simp [replaceFrom]
  | cons c s ih => cases k with
    | zero => simp
    | succ k => simpa [replaceFrom] using ih k

@[simp] theorem replaceAll_nil (p q : Text) : replaceAll p q [] = ([], 0) := rfl

theorem replaceAll_cons_of_match {p q : Text} {c : Char} {s : Text}
    (h : p.isPrefixOf (c :: s) = true) :
    replaceAll p q (c :: s) =
      (q ++ (replaceAll p q (s.drop (p.length - 1))).1,
        (replaceAll p q (s.drop (p.length - 1))).2 + 1) := by
  simp [replaceAll, replaceFrom, h, replaceFrom_skip p q (p.length - 1)]

theorem replaceAll_cons_of_no_match {p q : Text} {c : Char} {s : Text}
    (h : p.isPrefixOf (c :: s) = false) :
    replaceAll p q (c :: s) = (c :: (replaceAll p q s).1, (replaceAll p q s).2) := by
  simp [replaceAll, replaceFrom, h]

/-- A literal of one character is replaced character by character. -/
theorem replaceAll_char_cons (p : Char) (q : Text) (c : Char) (s : Text) :
    (replaceAll [p] q (c :: s)).1 = (if c = p then q else [c]) ++ (replaceAll [p] q s).1 := by
  by_cases hc : c = p
  · have hmatch : [p].isPrefixOf (c :: s) = true := by simp [hc]
    rw [replaceAll_cons_of_match hmatch, if_pos hc]
    rfl
  · have hno : [p].isPrefixOf (c :: s) = false := by
      rw [List.isPrefixOf_cons_cons, beq_false_of_ne (Ne.symm hc), Bool.false_and]
    rw [replaceAll_cons_of_no_match hno, if_neg hc]
    rfl

end DumpConversion.Text
