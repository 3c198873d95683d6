import DumpConversion.Proofs.Database.Lexing

/-! # Reading statements from tokens

* `SqlToken.Whole`: tokens that no comma divides at their own depth.
* `SqlToken.splitCommas_intercalate`: what was put together with commas comes apart again.
* `Statement.readColumn_eq`, `Statement.read_createTable`, `Statement.read_insert`: the tokens of a
  column and of the two statements.
* `Statement.Spells`: the text of a statement in a script.
-/

namespace DumpConversion

set_option autoImplicit false

theorem mapM_of_forall₂ {α β : Type} {f : α → Option β} {xs : List α} {ys : List β}
    (h : List.Forall₂ (fun x y => f x = some y) xs ys) : xs.mapM f = some ys := by
  induction h with
  | nil => rfl
  | cons hx _ ih =>
    rw [List.mapM_cons, hx, ih]
    rfl

namespace SqlToken

/-! ## Commas -/

/-- Puts tokens in front of the first piece. -/
def intoFirst (p : List SqlToken) : List (List SqlToken) → List (List SqlToken)
  | [] => [p]
  | piece :: rest => (p ++ piece) :: rest

theorem intoFirst_append (p q : List SqlToken) (pieces : List (List SqlToken)) :
    intoFirst (p ++ q) pieces = intoFirst p (intoFirst q pieces) := by
  cases pieces with
  | nil => rfl
  | cons piece rest => rw [intoFirst, intoFirst, intoFirst, List.append_assoc]

variable {t : SqlToken} {ts p q : List SqlToken}

theorem splitCommas_cons (depth : Nat) (h : ¬ (t = .symbol ',' ∧ depth = 0)) (ts : List SqlToken) :
    splitCommas depth (t :: ts) = intoFirst [t] (splitCommas (if t = .symbol '(' then depth + 1
      else if t = .symbol ')' then depth - 1 else depth) ts) := by
  rw [splitCommas, if_neg h]
  simp only
  split <;> simp_all [intoFirst]

theorem splitCommas_open (depth : Nat) (ts : List SqlToken) :
    splitCommas depth (.symbol '(' :: ts) =
      intoFirst [.symbol '('] (splitCommas (depth + 1) ts) :=
  splitCommas_cons depth (fun h => absurd h.1 (by decide)) ts

theorem splitCommas_close (depth : Nat) (ts : List SqlToken) :
    splitCommas (depth + 1) (.symbol ')' :: ts) =
      intoFirst [.symbol ')'] (splitCommas depth ts) :=
  splitCommas_cons (depth + 1) (fun h => absurd h.1 (by decide)) ts

theorem splitCommas_inner (depth : Nat) (ts : List SqlToken) :
    splitCommas (depth + 1) (.symbol ',' :: ts) =
      intoFirst [.symbol ','] (splitCommas (depth + 1) ts) :=
  splitCommas_cons (depth + 1) (fun h => Nat.succ_ne_zero depth h.2) ts

theorem splitCommas_comma (ts : List SqlToken) :
    splitCommas 0 (.symbol ',' :: ts) = [] :: splitCommas 0 ts := by
  rw [splitCommas, if_pos ⟨rfl, rfl⟩]

/-- The tokens stay in one piece at every depth, and leave the depth as it was. -/
def Whole (p : List SqlToken) : Prop :=
  ∀ depth ts, splitCommas depth (p ++ ts) = intoFirst p (splitCommas depth ts)

theorem splitCommas_ne_nil (depth : Nat) (ts : List SqlToken) : splitCommas depth ts ≠ [] := by
  cases ts with
  | nil => simp [splitCommas]
  | cons t ts =>
    by_cases h : t = .symbol ',' ∧ depth = 0
    · rw [splitCommas, if_pos h]
      exact List.cons_ne_nil _ _
    · rw [splitCommas_cons depth h]
      generalize splitCommas _ ts = pieces
      cases pieces <;> simp [intoFirst]

theorem Whole.nil : Whole [] := by
  intro depth ts
  obtain ⟨piece, rest, h⟩ := List.exists_cons_of_ne_nil (splitCommas_ne_nil depth ts)
  rw [List.nil_append, h]
  rfl

theorem Whole.append (hp : Whole p) (hq : Whole q) : Whole (p ++ q) := by
  intro depth ts
  rw [List.append_assoc, hp, hq, intoFirst_append]

theorem Whole.cons (ht : ∀ c, t ≠ .symbol c) (hp : Whole p) : Whole (t :: p) := by
  intro depth ts
  rw [List.cons_append, splitCommas_cons depth (fun h => ht ',' h.1), if_neg (ht '('),
    if_neg (ht ')'), hp, ← intoFirst_append]
  rfl

theorem Whole.minus_cons (hp : Whole p) : Whole (.symbol '-' :: p) := by
  intro depth ts
  rw [List.cons_append, splitCommas_cons depth (fun h => absurd h.1 (by decide)),
    if_neg (by decide), if_neg (by decide), hp, ← intoFirst_append]
  rfl

/-- Pieces with commas between them come apart again. -/
theorem splitCommas_intercalate {pieces : List (List SqlToken)} (hne : pieces ≠ [])
    (h : ∀ p ∈ pieces, Whole p) :
    splitCommas 0 (List.intercalate [.symbol ','] pieces) = pieces := by
  induction pieces with
  | nil => exact absurd rfl hne
  | cons p pieces ih =>
    obtain ⟨hp, hpieces⟩ := List.forall_mem_cons.mp h
    cases pieces with
    | nil =>
      have halone := hp 0 []
      simpa [List.intercalate, intoFirst, splitCommas] using halone
    | cons q pieces =>
      rw [List.intercalate_cons_cons, List.append_assoc, hp, List.singleton_append,
        splitCommas_comma, ih (List.cons_ne_nil q pieces) hpieces, intoFirst, List.append_nil]

end SqlToken

/-! ## Statements -/

namespace Statement

open SqlToken

/-- The tokens of the sizes of a type. -/
inductive Sizes : List SqlToken → Prop where
  | none : Sizes []
  | one (a : Text) : Sizes [.symbol '(', .number a, .symbol ')']
  | two (a b : Text) : Sizes [.symbol '(', .number a, .symbol ',', .number b, .symbol ')']

/-- The tokens of the constraints of a column, and whether it is required. -/
inductive Constraints : List SqlToken → Bool → Prop where
  | none : Constraints [] false
  | notNull : Constraints [.word "NOT".toList, .word "NULL".toList] true
  | defaultNull : Constraints [.word "DEFAULT".toList, .word "NULL".toList] false

theorem Sizes.whole {sizes : List SqlToken} (h : Sizes sizes) : Whole sizes := by
  have hnumber (a : Text) (depth : Nat) (ts : List SqlToken) :
      splitCommas depth (.number a :: ts) = intoFirst [.number a] (splitCommas depth ts) :=
    Whole.cons (fun c => by simp) .nil depth ts
  intro depth ts
  cases h with
  | none => exact Whole.nil depth ts
  | one a =>
    simp only [List.cons_append, List.nil_append, splitCommas_open, hnumber, splitCommas_close,
      ← intoFirst_append]
  | two a b =>
    simp only [List.cons_append, List.nil_append, splitCommas_open, hnumber, splitCommas_inner,
      splitCommas_close, ← intoFirst_append]

variable {n w : Text} {sizes constraints : List SqlToken} {required : Bool}

theorem Constraints.whole (h : Constraints constraints required) : Whole constraints := by
  cases h with
  | none => exact .nil
  | notNull => exact .cons (fun c => by simp) (.cons (fun c => by simp) .nil)
  | defaultNull => exact .cons (fun c => by simp) (.cons (fun c => by simp) .nil)

theorem Sizes.unended (h : Sizes sizes) : .symbol ';' ∉ sizes := by
  cases h <;> simp

theorem Constraints.unended (h : Constraints constraints required) :
    .symbol ';' ∉ constraints := by
  cases h <;> simp

theorem readColumn_eq (hw : isTypeWord (.word w) = true) (hsizes : Sizes sizes)
    (hconstraints : Constraints constraints required) :
    readColumn (.name n :: .word w :: (sizes ++ constraints)) = some ⟨n, required⟩ := by
  have hrest : (SqlToken.word w :: (sizes ++ constraints)).dropWhile isTypeWord =
      sizes ++ constraints := by
    rw [List.dropWhile_cons_of_pos hw]
    cases hsizes <;> cases hconstraints <;> rfl
  have hsized : afterSizes (sizes ++ constraints) = some constraints := by
    cases hsizes <;> cases hconstraints <;> rfl
  have hread : readConstraints false constraints = some required := by
    cases hconstraints <;> rfl
  unfold readColumn
  simp only [hrest, List.head?_cons, Option.any_some, hw, if_true, hsized]
  simp [SqlToken.name?, hread]

theorem insideParentheses_eq (body : List SqlToken) :
    insideParentheses (.symbol '(' :: (body ++ [.symbol ')'])) = some body := by
  have hlast : (SqlToken.symbol '(' :: (body ++ [.symbol ')'])).getLast? = some (.symbol ')') := by
    rw [← List.cons_append, List.getLast?_concat]
  unfold insideParentheses
  rw [hlast]
  simp

theorem read_createTable {pieces : List (List SqlToken)} {columns : List Column}
    (hne : pieces ≠ []) (hwhole : ∀ p ∈ pieces, Whole p)
    (h : List.Forall₂ (fun p c => readColumn p = some c) pieces columns) :
    read (.word "CREATE".toList :: .word "TABLE".toList :: .name n :: .symbol '(' ::
      (List.intercalate [.symbol ','] pieces ++ [.symbol ')'])) =
        some (.createTable n columns) := by
  have hcreate : (SqlToken.word "CREATE".toList).isKeyword "CREATE" = true := by decide
  have htable : (SqlToken.word "TABLE".toList).isKeyword "TABLE" = true := by decide
  simp only [read, SqlToken.name?, hcreate, htable, Bool.and_self, if_true, insideParentheses_eq,
    splitCommas_intercalate hne hwhole, mapM_of_forall₂ h, Option.bind_eq_bind, Option.bind_some]
  rfl

theorem read_insert {pieces : List (List SqlToken)} {values : List Value}
    (hne : pieces ≠ []) (hwhole : ∀ p ∈ pieces, Whole p)
    (h : List.Forall₂ (fun p v => readValue p = some v) pieces values) :
    read (.word "INSERT".toList :: .word "INTO".toList :: .name n :: .word "VALUES".toList ::
      .symbol '(' :: (List.intercalate [.symbol ','] pieces ++ [.symbol ')'])) =
        some (.insert n values) := by
  have hcreate : (SqlToken.word "INSERT".toList).isKeyword "CREATE" = false := by decide
  have hinsert : (SqlToken.word "INSERT".toList).isKeyword "INSERT" = true := by decide
  have hinto : (SqlToken.word "INTO".toList).isKeyword "INTO" = true := by decide
  have hvalues : (SqlToken.word "VALUES".toList).isKeyword "VALUES" = true := by decide
  simp only [read, SqlToken.name?, hcreate, hinsert, hinto, hvalues, Bool.false_and, Bool.and_self,
    Bool.false_eq_true, if_false, if_true, insideParentheses_eq,
    splitCommas_intercalate hne hwhole, mapM_of_forall₂ h, Option.bind_eq_bind, Option.bind_some]
  rfl

/-! ## Statements in scripts -/

/-- The text is the statement, with a semicolon at its end. -/
structure Spells (text : Text) (s : Statement) : Prop where
  tokens : ∃ body ts, text = body ++ [';'] ∧ Reads body ts ∧ statementEnd ∉ ts ∧ read ts = some s

variable {blank text : Text} {s : Statement}

theorem Spells.ne_nil (h : Spells text s) : text ≠ [] := by
  obtain ⟨body, ts, rfl, -⟩ := h.tokens
  exact List.append_ne_nil_of_right_ne_nil body (List.cons_ne_nil _ _)

/-- Between blanks and anything else the statement is read by itself. -/
theorem Spells.lexStatement (h : Spells text s) (hblank : ∀ c ∈ blank, isSqlBlank c = true)
    (rest : Text) : ∃ ts, lexStatement (blank ++ text ++ rest) = some (ts, untilNul rest) ∧
      untilNul (blank ++ text ++ rest) = blank ++ text ++ untilNul rest ∧ read ts = some s := by
  obtain ⟨body, ts, rfl, hreads, hfree, hread⟩ := h.tokens
  have hnul : '\x00' ∉ blank ++ (body ++ [';']) := by
    rw [List.mem_append, List.mem_append, not_or, not_or]
    exact ⟨nulFree_blank hblank, hreads.nulFree, by decide⟩
  have hscript := untilNul_append hnul rest
  have hlexes : Lexes (blank ++ (body ++ [';']) ++ untilNul rest) ts (';' :: untilNul rest) := by
    rw [List.append_assoc, List.append_assoc]
    exact (lexes_blank hblank _).trans (hreads.before _ (beginsApart_cons (by decide) _))
  refine ⟨ts, ?_, hscript, hread⟩
  rw [SqlToken.lexStatement, hscript]
  exact hlexes.ended hfree (Nat.le_refl _)

theorem lexStatement_blank (hblank : ∀ c ∈ blank, isSqlBlank c = true) :
    SqlToken.lexStatement blank = some ([], []) := by
  have hlexes := lexes_blank hblank []
  rw [List.append_nil] at hlexes
  rw [SqlToken.lexStatement, untilNul_eq_self (nulFree_blank hblank)]
  exact hlexes.unended List.not_mem_nil (Nat.le_refl _)

end Statement
end DumpConversion
