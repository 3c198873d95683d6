import DumpConversion.Proofs.Yaml.Lines
import DumpConversion.Yaml.Node

/-! # Documents of block mappings

The tree of a document whose lines have names, colons and values.

* `Node.IsEntry`: tokens that stand for an entry of a block mapping.
* `Node.readBlockMapping_entries`: the entries of a block mapping.
* `Node.parse_items`: the tree of a document from its lines.
-/

namespace DumpConversion.Yaml.Node

set_option autoImplicit false

open Scanner (nameTokens blockTokens Item)

/-- Tokens that stand for an entry of a block mapping, whatever follows them. -/
structure IsEntry (ts : List Token) (e : Node × Node) : Prop where
  ne_nil : ts ≠ []
  read : ∀ (fuel : Nat) (rest : List Token), ts.length ≤ fuel →
    readBlockMapping (fuel + 1) (ts ++ rest) =
      (readBlockMapping fuel rest).map fun r => (e :: r.1, r.2)

section Entries

variable {α : Type} {items : List α} {ts : α → List Token} {node : α → Node × Node}

theorem readBlockMapping_entries (h : ∀ a ∈ items, IsEntry (ts a) (node a)) {fuel : Nat}
    (hfuel : (items.flatMap ts).length < fuel) (rest : List Token) :
    readBlockMapping fuel (items.flatMap ts ++ .blockEnd :: rest) = .ok (items.map node, rest) := by
  induction items generalizing fuel with
  | nil => rw [List.flatMap_nil, List.nil_append, readBlockMapping, List.map_nil]
  | cons a items ih =>
    obtain ⟨ha, hitems⟩ := List.forall_mem_cons.mp h
    have hlength := List.length_pos_iff.mpr ha.ne_nil
    rw [List.flatMap_cons, List.length_append] at hfuel
    obtain ⟨fuel, rfl⟩ := Nat.exists_eq_add_one_of_ne_zero (Nat.ne_zero_of_lt hfuel)
    rw [List.flatMap_cons, List.append_assoc, ha.read _ _ (by omega), ih hitems (by omega)]
    rfl

/-- Tokens that stand for the value of an entry. -/
def IsValue (ts : List Token) (n : Node) : Prop :=
  ∀ (fuel : Nat) (rest : List Token), ts.length < fuel →
    readOptional fuel true true [.key, .value, .blockEnd] (ts ++ rest) = .ok (n, rest)

theorem isEntry_of_value (name : Text) {ts : List Token} {n : Node} (h : IsValue ts n) :
    IsEntry (nameTokens name ++ ts) (.scalar name true, n) := by
  refine ⟨by simp [nameTokens], fun fuel rest hfuel => ?_⟩
  have hlength : (nameTokens name ++ ts).length = ts.length + 3 := by simp [nameTokens]
  have hvalue := h fuel rest (by omega)
  obtain ⟨fuel, rfl⟩ : ∃ n, fuel = n + 1 := ⟨fuel - 1, by omega⟩
  have hname : readOptional (fuel + 1) true true [.key, .value, .blockEnd]
      (.scalar name true :: .value :: (ts ++ rest)) =
        .ok (.scalar name true, .value :: (ts ++ rest)) := by
    simp [readOptional, comesNext, readNode]
  have hshape : nameTokens name ++ ts ++ rest =
      .key :: .scalar name true :: .value :: (ts ++ rest) := rfl
  rw [hshape, readBlockMapping, hname]
  simp only [bind, Except.bind, hvalue]
  cases readBlockMapping (fuel + 1) rest <;> rfl

theorem isValue_scalar (content : Text) (plain : Bool) :
    IsValue [.scalar content plain] (.scalar content plain) := by
  intro fuel rest hfuel
  obtain ⟨fuel, rfl⟩ := Nat.exists_eq_add_one_of_ne_zero (Nat.ne_zero_of_lt hfuel)
  simp [readOptional, comesNext, readNode]

theorem length_blockTokens (ts : List Token) : (blockTokens ts).length = ts.length + 2 := by
  simp [blockTokens]

/-- A block mapping, read as a node. -/
theorem readNode_block (h : ∀ a ∈ items, IsEntry (ts a) (node a)) {fuel : Nat}
    (hfuel : (items.flatMap ts).length < fuel) (bare : Bool) (rest : List Token) :
    readNode (fuel + 1) true bare (blockTokens (items.flatMap ts) ++ rest) =
      .ok (.mapping (items.map node), rest) := by
  have hshape : blockTokens (items.flatMap ts) ++ rest =
      .blockMappingStart :: (items.flatMap ts ++ .blockEnd :: rest) := by simp [blockTokens]
  rw [hshape, readNode, readBlockMapping_entries h hfuel]
  rfl

theorem isValue_block (h : ∀ a ∈ items, IsEntry (ts a) (node a)) :
    IsValue (blockTokens (items.flatMap ts)) (.mapping (items.map node)) := by
  intro fuel rest hfuel
  rw [length_blockTokens] at hfuel
  obtain ⟨fuel, rfl⟩ : ∃ n, fuel = n + 2 := ⟨fuel - 2, by omega⟩
  have hnext : comesNext (blockTokens (items.flatMap ts) ++ rest) [.key, .value, .blockEnd] =
      false := rfl
  rw [readOptional, hnext]
  exact readNode_block h (by omega) true rest

theorem ofTokens_block (h : ∀ a ∈ items, IsEntry (ts a) (node a)) :
    ofTokens (blockTokens (items.flatMap ts)) = .ok (some (.mapping (items.map node))) := by
  have hfuel : (items.flatMap ts).length < 3 * (blockTokens (items.flatMap ts)).length + 2 := by
    rw [length_blockTokens]
    omega
  have hread := readNode_block h hfuel false []
  rw [List.append_nil] at hread
  change (readNode _ true false (blockTokens (items.flatMap ts)) >>= _) = _
  rw [hread]
  rfl

end Entries

/-- The tree of a document from its lines. -/
theorem parse_items {α : Type} {items : List α} {text : α → Text} {ts : α → List Token}
    {node : α → Node × Node} (hne : items ≠ []) (hitems : ∀ a ∈ items, Item 0 (text a) (ts a))
    (hentries : ∀ a ∈ items, IsEntry (ts a) (node a)) :
    parse (items.flatMap text) = .ok (some (.mapping (items.map node))) := by
  rw [parse, tokens_block hne hitems]
  exact ofTokens_block hentries

end DumpConversion.Yaml.Node
