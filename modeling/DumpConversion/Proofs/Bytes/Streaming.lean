import DumpConversion.Bytes.Sha256
import Mathlib.Data.List.Basic

/-! # Digests of messages read in pieces

A file is read piece by piece, and every piece is handed on to the digest as it comes. The digest
folds the whole blocks that it has and keeps the rest for the next piece, so it is the same for every
way of cutting the message.

* `Sha256.Hasher`: the state between two pieces, with `absorb` and `finish`.
* `Sha256.Hasher.After`: what the state is after a message, however it was cut.
* `Sha256.finish_foldl_absorb`: the digest of the pieces is the digest of the message.
-/

namespace DumpConversion.Sha256

set_option autoImplicit false

/-! ## Folding blocks -/

theorem compressAll_append (m : Nat) (s : State) {x : Bytes} (hx : 64 * m ≤ x.length) (y : Bytes) :
    compressAll m s (x ++ y) = compressAll m s x := by
  induction m generalizing s x with
  | zero => rfl
  | succ m ih =>
    have hblock : 64 ≤ x.length := by omega
    have hrest : 64 * m ≤ (x.drop 64).length := by
      rw [List.length_drop]
      omega
    rw [compressAll, compressAll, List.take_append_of_le_length hblock,
      List.drop_append_of_le_length hblock, ih _ hrest]

theorem compressAll_add (m n : Nat) (s : State) (x : Bytes) :
    compressAll (m + n) s x = compressAll n (compressAll m s x) (x.drop (64 * m)) := by
  induction m generalizing s x with
  | zero => simp [compressAll]
  | succ m ih =>
    have hsum : m + 1 + n = m + n + 1 := by omega
    have hdrop : (x.drop 64).drop (64 * m) = x.drop (64 * (m + 1)) := by
      rw [List.drop_drop]
      congr 1
      omega
    rw [hsum, compressAll, compressAll, ih, hdrop]

/-! ## Pieces -/

/-- What a digest holds between two pieces. -/
structure Hasher where
  state : State
  /-- The bytes that do not fill a block yet. -/
  pending : Bytes
  size : Nat

namespace Hasher

/-- The state before the first piece. -/
def initial : Hasher := ⟨State.initial, [], 0⟩

/-- Takes in one more piece. -/
def absorb (h : Hasher) (piece : Bytes) : Hasher :=
  let waiting := h.pending ++ piece
  let blocks := waiting.length / 64
  ⟨compressAll blocks h.state waiting, waiting.drop (64 * blocks), h.size + piece.length⟩

/-- Fills the last block and gives the digest. -/
def finish (h : Hasher) : Bytes :=
  let last := h.pending ++ 0x80 :: List.replicate (zeroCount h.size) 0 ++ bigEndian 8 (8 * h.size)
  (compressAll (last.length / 64) h.state last).toList.flatMap fun w => bigEndian 4 w.toNat

/-- The state after a message: its whole blocks are folded and the rest is pending. -/
structure After (h : Hasher) (message : Bytes) : Prop where
  state : h.state = compressAll (message.length / 64) State.initial message
  pending : h.pending = message.drop (64 * (message.length / 64))
  size : h.size = message.length

theorem initial_after : initial.After [] := ⟨rfl, rfl, rfl⟩

/-- The blocks that a message has once bytes are appended are those it had and those that its pending
bytes make with the appended ones. -/
theorem After.compressAll_append {h : Hasher} {message : Bytes} (ha : h.After message)
    (more : Bytes) :
    compressAll ((message ++ more).length / 64) State.initial (message ++ more) =
      compressAll ((h.pending ++ more).length / 64) h.state (h.pending ++ more) ∧
    (message ++ more).length / 64 = message.length / 64 + (h.pending ++ more).length / 64 ∧
    (message ++ more).drop (64 * (message.length / 64)) = h.pending ++ more := by
  have hfull : 64 * (message.length / 64) ≤ message.length := Nat.mul_div_le _ _
  have hpending : h.pending.length = message.length - 64 * (message.length / 64) := by
    rw [ha.pending, List.length_drop]
  have hcount : (message ++ more).length / 64 =
      message.length / 64 + (h.pending ++ more).length / 64 := by
    rw [List.length_append, List.length_append, hpending]
    omega
  have hdrop : (message ++ more).drop (64 * (message.length / 64)) = h.pending ++ more := by
    rw [List.drop_append_of_le_length hfull, ha.pending]
  refine ⟨?_, hcount, hdrop⟩
  rw [hcount, compressAll_add, hdrop, Sha256.compressAll_append _ _ hfull, ha.state]

theorem After.absorb {h : Hasher} {message : Bytes} (ha : h.After message) (piece : Bytes) :
    (h.absorb piece).After (message ++ piece) := by
  obtain ⟨hstate, hcount, hdrop⟩ := ha.compressAll_append piece
  refine ⟨hstate.symm, ?_, ?_⟩
  · have hsum : 64 * ((message ++ piece).length / 64) =
        64 * (message.length / 64) + 64 * ((h.pending ++ piece).length / 64) := by
      rw [hcount, Nat.mul_add]
    rw [hsum, ← List.drop_drop, hdrop]
    rfl
  · rw [List.length_append, ← ha.size]
    rfl

theorem After.foldl_absorb {h : Hasher} {message : Bytes} (ha : h.After message)
    (pieces : List Bytes) : (pieces.foldl Hasher.absorb h).After (message ++ pieces.flatten) := by
  induction pieces generalizing h message with
  | nil => simpa using ha
  | cons piece rest ih =>
    rw [List.foldl_cons, List.flatten_cons, ← List.append_assoc]
    exact ih (ha.absorb piece)

theorem After.finish {h : Hasher} {message : Bytes} (ha : h.After message) :
    h.finish = digest message := by
  have hpad : ∀ s : Bytes, s ++ 0x80 :: List.replicate (zeroCount message.length) 0 ++
      bigEndian 8 (8 * message.length) = s ++ (0x80 :: List.replicate (zeroCount message.length) 0 ++
      bigEndian 8 (8 * message.length)) := fun s => List.append_assoc s _ _
  rw [Hasher.finish, digest, pad, ha.size, hpad, hpad, (ha.compressAll_append _).1]

end Hasher

/-- However a message is cut into pieces, the digest of the pieces in order is that of the message. -/
theorem finish_foldl_absorb (pieces : List Bytes) :
    (pieces.foldl Hasher.absorb Hasher.initial).finish = digest pieces.flatten :=
  (Hasher.initial_after.foldl_absorb pieces).finish

end DumpConversion.Sha256
