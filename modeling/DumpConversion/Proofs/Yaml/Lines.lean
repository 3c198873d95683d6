import DumpConversion.Proofs.Yaml.Scalars

/-! # Lines of a block mapping

What the scanner makes of lines with a name, a colon and a value, and of lines with a name that are
followed by deeper lines.

* `Scanner.resting`: the scanner between two tokens of block collections.
* `IsName`: a text that can stand in front of a colon.
* `run_name`, `run_value`: the tokens of a line.
* `LineStart`, `Leads`: from the start of a line the scanner comes to the start of a later one.
* `Item`: lines that stand for some tokens in a block mapping at a column.
* `Leads.block`: a whole block mapping of items.
-/

namespace DumpConversion.Yaml

set_option autoImplicit false

namespace Scanner

variable {p : Position} {rest tail more : Text} {key : Bool} {indents : List Nat}
  {newest : List Token} {c : Char} {s : Text}

/-! ## Between two tokens -/

/-- The scanner outside of flow collections, when nothing can become a key. -/
def resting (p : Position) (rest : Text) (keyAllowed : Bool) (indents : List Nat)
    (newest : List Token) : Scanner :=
  ⟨p, rest, keyAllowed, none, [], indents, newest⟩

theorem run_step {st st' st'' : Scanner} (hsettle : st.settle = .ok st') (hrest : st'.rest = c :: s)
    (hfetch : st'.fetch c s = .ok st'') (fuel : Nat) : run (fuel + 1) st = run fuel st'' := by
  rw [run, hsettle]
  simp only [hrest, hfetch]

/-- The innermost block collection is not right of the column. -/
def Within (indents : List Nat) (column : Nat) : Prop := ∀ i, indents.head? = some i → i ≤ column

theorem closeTo_of_within {st : Scanner} {column : Nat} (h : Within st.indents column) :
    st.closeTo column = st := by
  obtain ⟨p, rest, key, candidate, outer, indents, newest⟩ := st
  have hnone : (indents.takeWhile fun i => decide (column < i)) = [] := by
    cases indents with
    | nil => rfl
    | cons i indents =>
      have hle : i ≤ column := h i rfl
      rw [List.takeWhile_cons_of_neg (by simpa using hle)]
  simp only [closeTo, closeWhile, hnone, List.length_nil, List.drop_zero, List.replicate_zero,
    List.nil_append, ite_self]

theorem settle_resting (p : Position) (rest : Text) (key : Bool) (indents : List Nat)
    (newest : List Token) :
    (resting p rest key indents newest).settle =
      let a := skipGap false false key p rest
      .ok (match a.rest with
        | [] => resting a.position a.rest a.keyAllowed indents newest
        | _ => (resting a.position a.rest a.keyAllowed indents newest).closeTo a.position.column) :=
  rfl

/-- What comes next depends on what the gap leads to. -/
theorem run_congr_gap {key' : Bool} {p' : Position} {rest' : Text}
    (h : skipGap false false key p rest = skipGap false false key' p' rest') (fuel : Nat) :
    run fuel (resting p rest key indents newest) =
      run fuel (resting p' rest' key' indents newest) := by
  cases fuel with
  | zero => rfl
  | succ fuel => rw [run, run, settle_resting, settle_resting, h]

/-- The end of a line can be passed over. -/
theorem run_newline (p : Position) (more : Text) (indents : List Nat) (newest : List Token)
    (fuel : Nat) :
    run fuel (resting p ('\n' :: more) false indents newest) =
      run fuel (resting (p.after '\n') more true indents newest) := by
  have hgap : skipGap false false false p ('\n' :: more) =
      skipGap false false true (p.after '\n') more := rfl
  exact run_congr_gap hgap fuel

theorem settle_solid (hc : isSolid c = true) (hle : Within indents p.column) (s : Text)
    (key : Bool) (newest : List Token) :
    (resting p (c :: s) key indents newest).settle =
      .ok (resting p (c :: s) key indents newest) := by
  rw [settle_resting]
  simp only [skipGap_solid hc]
  exact congrArg Except.ok (closeTo_of_within hle)

/-! ## Names -/

/-- A text that can stand in front of a colon, also at the start of a line. -/
structure IsName (s : Text) : Prop extends IsPlain s where
  noDash : s.head? ≠ some '-'
  noDot : s.head? ≠ some '.'
  short : s.length ≤ keyLimit

theorem isDocumentMark_of_head {s : Text} (hne : s ≠ []) (hdash : s.head? ≠ some '-')
    (hdot : s.head? ≠ some '.') (p : Position) (tail : Text) :
    isDocumentMark p (s ++ tail) = false := by
  obtain ⟨c, s, rfl⟩ := List.exists_cons_of_ne_nil hne
  have hdash : c ≠ '-' := fun h => hdash (congrArg some h)
  have hdot : c ≠ '.' := fun h => hdot (congrArg some h)
  simp [isDocumentMark, isMark, List.isPrefixOf, Ne.symm hdash, Ne.symm hdot]

/-- The indicators that begin no plain scalar, and those that may. -/
theorem startIndicators_of_isIndicator {d : Char} (h : isIndicator d = true) :
    d ∈ startIndicators ∨ d = '-' ∨ d = '?' ∨ d = ':' := by
  have hall : (",[]\x7b\x7d-?:#&*!|>'\"%@\x60".toList.all fun e =>
      startIndicators.contains e || e == '-' || e == '?' || e == ':') = true := by decide
  have hd := List.all_eq_true.mp hall d ?_
  · simpa [or_assoc] using hd
  simpa [isIndicator, isFlowIndicator, or_assoc] using h

/-- A plain scalar is fetched as one. -/
theorem fetch_of_isPlain (h : IsPlain (c :: s)) (st : Scanner) (tail : Text)
    (hflow : st.inFlow = false)
    (hmark : isDocumentMark st.position (c :: (s ++ tail)) = false) :
    st.fetch c (s ++ tail) = st.fetchPlain := by
  obtain ⟨hdashes, hdots⟩ := Bool.or_eq_false_iff.mp hmark
  have hne {d : Char} (hd : d ∈ startIndicators) : c ≠ d := h.ne_of_mem_startIndicators hd
  have halone {d : Char} (hd : d = '-' ∨ d = '?' ∨ d = ':') :
      ¬ (c = d ∧ (st.inFlow = true ∨ endsWord (s ++ tail) = true)) := by
    rintro ⟨rfl, hends⟩
    rw [h.not_endsWord hd tail, hflow] at hends
    simp at hends
  have hentry : ¬ (c = '-' ∧ endsWord (s ++ tail) = true) :=
    fun hc => halone (.inl rfl) ⟨hc.1, .inr hc.2⟩
  have hplain : (!isIndicator c) = true ∨ c = '-' ∨ (!st.inFlow) = true ∧ (c = '?' ∨ c = ':') := by
    by_cases hdash : c = '-'
    · exact .inr (.inl hdash)
    by_cases hmay : c = '?' ∨ c = ':'
    · exact .inr (.inr ⟨by rw [hflow]; rfl, hmay⟩)
    refine .inl ?_
    rw [Bool.not_eq_true', Bool.eq_false_iff]
    intro hindicator
    rcases startIndicators_of_isIndicator hindicator with hstart | hc | hc
    · exact hne hstart rfl
    · exact hdash hc
    · exact hmay hc
  have hspace : isSpace c = false := by
    have hsolid := h.isSolid_head rfl
    simp only [isSolid, Bool.and_eq_true, Bool.not_eq_true'] at hsolid
    exact hsolid.1.1
  rw [fetch, if_neg (by simp [hdashes]), if_neg (by simp [hdots]), if_neg (hne (by decide)),
    if_neg (hne (by decide)), if_neg (hne (by decide)), if_neg (hne (by decide)),
    if_neg (hne (by decide)), if_neg hentry, if_neg (halone (.inr (.inl rfl))),
    if_neg (halone (.inr (.inr rfl))), if_neg (hne (by decide)), if_neg (hne (by decide)),
    if_pos hplain, if_neg (by simp [hspace])]

theorem fetchPlain_resting (p : Position) (rest : Text) (key : Bool) (indents : List Nat)
    (newest : List Token) :
    (resting p rest key indents newest).fetchPlain =
      (plainScalar false (indents.head?.elim 0 (· + 1)) p rest).map fun q =>
        ⟨q.position, q.rest, q.broken,
          if key then some ⟨indents.head? == some p.column, newest.length, p⟩ else none, [],
          indents, .scalar q.content true :: newest⟩ := by
  have hsave : (resting p rest key indents newest).saveCandidate = .ok ⟨p, rest, key,
      if key then some ⟨indents.head? == some p.column, newest.length, p⟩ else none, [],
      indents, newest⟩ := by cases key <;> rfl
  rw [fetchPlain, hsave]
  cases indents with
  | nil =>
    simp only [bind, Except.bind, inFlow, List.isEmpty_nil, Bool.not_true, List.head?_nil,
      Option.elim_none]
    cases plainScalar false 0 p rest <;> rfl
  | cons i indents =>
    simp only [bind, Except.bind, inFlow, List.isEmpty_nil, Bool.not_true, List.head?_cons,
      Option.elim_some]
    cases plainScalar false (i + 1) p rest <;> rfl

/-- The scanner between a name and its colon. -/
def named (q p : Position) (name tail : Text) (indents : List Nat) (newest : List Token) :
    Scanner :=
  ⟨q, ':' :: tail, false, some ⟨indents.head? == some p.column, newest.length, p⟩, [], indents,
    .scalar name true :: newest⟩

theorem fetch_name {name : Text} (h : IsName name) (hc : name = c :: s)
    (htail : endsWord tail = true) (p : Position) (indents : List Nat) (newest : List Token) :
    (resting p (name ++ ':' :: tail) true indents newest).fetch c (s ++ ':' :: tail) =
      .ok (named (p.behind name) p name tail indents newest) := by
  have hmark := isDocumentMark_of_head h.ne_nil h.noDash h.noDot p (':' :: tail)
  have hplain := h.toIsPlain
  have hread := hplain.plainScalar_eq (indents.head?.elim 0 (· + 1)) hmark
  rw [plainFrom_colon htail, List.reverse_reverse] at hread
  have hfetch := fetch_of_isPlain (hc ▸ hplain)
    (resting p (name ++ ':' :: tail) true indents newest) (':' :: tail) rfl
    (by rw [← List.cons_append, ← hc]; exact hmark)
  rw [hfetch, fetchPlain_resting, hread]
  rfl

theorem settle_named {q : Position} (hline : q.line = p.line)
    (hindex : q.index ≤ p.index + keyLimit) (hle : Within indents q.column) (name tail : Text)
    (newest : List Token) :
    (named q p name tail indents newest).settle = .ok (named q p name tail indents newest) := by
  have hfresh : isStale q ⟨indents.head? == some p.column, newest.length, p⟩ = false := by
    simp only [isStale, Bool.or_eq_false_iff, decide_eq_false_iff_not]
    omega
  have hcandidate : refresh q (some ⟨indents.head? == some p.column, newest.length, p⟩) =
      .ok (some ⟨indents.head? == some p.column, newest.length, p⟩) := by
    simp [refresh, hfresh]
  have hgap : skipGap false false false q (':' :: tail) = ⟨false, q, ':' :: tail⟩ :=
    skipGap_solid (by decide) false q tail
  have hall : (named q p name tail indents newest).refreshAll =
      .ok (named q p name tail indents newest) := by
    simp only [refreshAll, named, hcandidate]
    rfl
  change (refreshAll ⟨(skipGap false false false q (':' :: tail)).position,
    (skipGap false false false q (':' :: tail)).rest,
    (skipGap false false false q (':' :: tail)).keyAllowed, _, [], indents, _⟩ >>= _) = _
  rw [hgap]
  change (refreshAll (named q p name tail indents newest) >>= _) = _
  rw [hall]
  exact congrArg Except.ok (closeTo_of_within hle)

/-- The colon that follows a name makes it a key, and what comes before may open a mapping. -/
inductive Enters (k : Nat) : List Nat → List Nat → List Token → Prop where
  | stays (indents : List Nat) : Enters k (k :: indents) (k :: indents) []
  | opens {indents : List Nat} (h : ∀ i, indents.head? = some i → i < k) :
    Enters k indents (k :: indents) [.blockMappingStart]

theorem fetch_colon {q : Position} {name : Text} {indents' : List Nat} {opening : List Token}
    (h : Enters p.column indents indents' opening) (htail : endsWord tail = true) :
    (named q p name tail indents newest).fetch ':' tail =
      .ok (resting (q.after ':') tail false indents'
        (.value :: .scalar name true :: .key :: (opening ++ newest))) := by
  have hfetch : (named q p name tail indents newest).fetch ':' tail =
      (named q p name tail indents newest).fetchValue := by
    simp [fetch, named, isMark, List.isPrefixOf, htail]
  have hkey : (named q p name tail indents newest).emitAt newest.length .key =
      { named q p name tail indents newest with
        newestFirst := .scalar name true :: .key :: newest } := by
    simp [emitAt, named]
  -- The name stands behind the place of the key, and both stand behind the start of the mapping.
  have hopen : ({ named q p name tail indents newest with
        newestFirst := .scalar name true :: .key :: newest } : Scanner).openBlock p.column
          newest.length .blockMappingStart =
      { named q p name tail indents newest with
        newestFirst := .scalar name true :: .key :: (opening ++ newest), indents := indents' } := by
    cases h with
    | stays indents => simp [openBlock, isDeeper, named]
    | opens h =>
      have hdeeper : indents.head?.all (fun i => decide (i < p.column)) = true := by
        cases indents with
        | nil => rfl
        | cons i indents => simpa using h i rfl
      have hbehind : newest.length + 1 + 1 - newest.length = 2 := by omega
      simp [openBlock, isDeeper, named, inFlow, hdeeper, emitAt, hbehind]
  rw [hfetch, fetchValue]
  change Except.ok ((({ ((named q p name tail indents newest).emitAt newest.length .key).openBlock
    p.column newest.length .blockMappingStart with candidate := none }.allowKey false).advance
    1).emit .value) = _
  rw [hkey, hopen]
  rfl

theorem Enters.within {k column : Nat} {indents' : List Nat} {opening : List Token}
    (h : Enters k indents indents' opening) (hk : k ≤ column) : Within indents column := by
  intro i hi
  cases h with
  | stays indents => exact Option.some.inj hi ▸ hk
  | opens h => exact Nat.le_trans (Nat.le_of_lt (h i hi)) hk

/-- A name and its colon, at the start of a line. -/
theorem run_name {name : Text} (hname : IsName name) (tail : Text) (htail : endsWord tail = true)
    {k : Nat} {indents' : List Nat} {opening : List Token}
    (h : Enters k indents indents' opening) (newest : List Token) (hp : p.column = 0) :
    ∃ q, k < q.column ∧ ∀ fuel,
      run (fuel + 2) (resting p (List.replicate k ' ' ++ (name ++ ':' :: tail)) true indents
          newest) =
        run fuel (resting q tail false indents'
          (.value :: .scalar name true :: .key :: (opening ++ newest))) := by
  obtain ⟨c, s, hc⟩ := List.exists_cons_of_ne_nil hname.ne_nil
  have hsolid : isSolid c = true := hname.isSolid_head (by rw [hc]; rfl)
  obtain ⟨start, hstart⟩ : ∃ start, start = p.behind (List.replicate k ' ') := ⟨_, rfl⟩
  have hcolumn : start.column = k := by
    rw [hstart, Position.behind_of_oneLine _ (by simp [OneLine, isBreak])]
    simp [hp]
  subst hcolumn
  have hbehind := Position.behind_of_oneLine start hname.safe.oneLine
  have hgap : skipGap false false true p
        (List.replicate start.column ' ' ++ (name ++ ':' :: tail)) =
      skipGap false false true start (name ++ ':' :: tail) := by
    rw [skipGap_indentation, ← hstart]
  refine ⟨(start.behind name).after ':', ?_, fun fuel => ?_⟩
  · rw [Position.after_of_not_break _ (by decide), hbehind]
    exact Nat.lt_succ_of_le (Nat.le_add_right _ _)
  have hkey := fetch_name hname hc htail start indents newest
  have hsettle := settle_solid hsolid (h.within (Nat.le_refl _)) (s ++ ':' :: tail) true newest
  have hline : (start.behind name).line = start.line := by rw [hbehind]
  have hindex : (start.behind name).index ≤ start.index + keyLimit := by
    rw [hbehind]
    exact Nat.add_le_add_left hname.short _
  have hlater : start.column ≤ (start.behind name).column := by
    rw [hbehind]
    exact Nat.le_add_right _ _
  have hnamed := settle_named hline hindex (h.within hlater) name tail newest
  rw [run_congr_gap hgap]
  have hfirst : resting start (name ++ ':' :: tail) true indents newest =
      resting start (c :: (s ++ ':' :: tail)) true indents newest := by rw [hc]; rfl
  rw [hfirst] at hkey ⊢
  rw [run_step hsettle rfl hkey, run_step hnamed rfl (fetch_colon h htail)]

/-- What a gap leads to is not followed by another gap. -/
theorem skipGap_twice {k : Nat} (h : Resumes k more) (p : Position) :
    skipGap false false true (skipGap false false true p more).position
      (skipGap false false true p more).rest = skipGap false false true p more := by
  cases h with
  | ended => rfl
  | line hj hc => rw [skipGap_indentation, skipGap_solid hc, skipGap_solid hc]

theorem fetch_plain_value (h : IsPlain (c :: s)) {k : Nat} (hmore : Resumes (k + 1) more)
    (hp : 0 < p.column) (indents : List Nat) (newest : List Token) :
    ∃ q, q.column = 0 ∧
      (resting p (c :: (s ++ '\n' :: more)) false (k :: indents) newest).fetch c
          (s ++ '\n' :: more) =
        .ok (resting (skipGap false false true q more).position
          (skipGap false false true q more).rest true (k :: indents)
          (.scalar (c :: s) true :: newest)) := by
  have hmark := isDocumentMark_of_column hp (c :: (s ++ '\n' :: more))
  have hread := h.plainScalar_eq (k + 1) hmark
  rw [plainFrom_newline hmore, List.reverse_reverse] at hread
  refine ⟨(p.behind (c :: s)).after '\n', rfl, ?_⟩
  rw [fetch_of_isPlain h _ _ rfl hmark, fetchPlain_resting]
  simp only [List.head?_cons, Option.elim_some]
  rw [← List.cons_append, hread]
  rfl

theorem fetch_quoted_value {single : Bool} {w : Text} (h : StandsFor single w s) (p : Position)
    (more : Text) (indents : List Nat) (newest : List Token) :
    ∃ q, (resting p (quoteMark single :: (w ++ quoteMark single :: '\n' :: more)) false indents
          newest).fetch (quoteMark single) (w ++ quoteMark single :: '\n' :: more) =
        .ok (resting q ('\n' :: more) false indents (.scalar s false :: newest)) := by
  have hpos : 0 < (Position.mk p.line (p.column + 1) (p.index + 1)).column := Nat.succ_pos _
  have hread := h.quotedScalar hpos more
  have hfetch (st : Scanner) (t : Text) :
      st.fetch (quoteMark single) t = st.fetchQuoted single := by
    cases single <;> simp [quoteMark, fetch, isMark, List.isPrefixOf]
  refine ⟨((Position.mk p.line (p.column + 1) (p.index + 1)).behind w).after (quoteMark single), ?_⟩
  rw [hfetch]
  change (quotedScalar single ⟨p.line, p.column + 1, p.index + 1⟩
    (w ++ quoteMark single :: '\n' :: more) >>= _) = _
  rw [hread]
  rfl

/-- A value that ends its line. -/
theorem run_value {w content : Text} {plain : Bool} (hw : Written w content plain) {k : Nat}
    (hmore : Resumes (k + 1) more) (hp : k < p.column) (indents : List Nat) (newest : List Token) :
    ∃ q, q.column = 0 ∧ ∀ fuel,
      run (fuel + 1) (resting p (' ' :: (w ++ '\n' :: more)) false (k :: indents) newest) =
        run fuel (resting q more true (k :: indents) (.scalar content plain :: newest)) := by
  have hgap : skipGap false false false p (' ' :: (w ++ '\n' :: more)) =
      skipGap false false false (p.after ' ') (w ++ '\n' :: more) := rfl
  have hcolumn : k ≤ (p.after ' ').column := Nat.le_succ_of_le (Nat.le_of_lt hp)
  have hpos : 0 < (p.after ' ').column := Nat.succ_pos _
  have hle : Within (k :: indents) (p.after ' ').column := fun i hi => Option.some.inj hi ▸ hcolumn
  cases hw with
  | plain h =>
    obtain ⟨c, s, rfl⟩ := List.exists_cons_of_ne_nil h.ne_nil
    obtain ⟨q, hq, hfetch⟩ := fetch_plain_value h hmore hpos indents newest
    have hsettle := settle_solid (h.isSolid_head rfl) hle (s ++ '\n' :: more) false newest
    refine ⟨q, hq, fun fuel => ?_⟩
    rw [run_congr_gap hgap, List.cons_append, run_step hsettle rfl hfetch]
    exact run_congr_gap (skipGap_twice hmore q) fuel
  | @quoted single w s h =>
    obtain ⟨q, hfetch⟩ := fetch_quoted_value h (p.after ' ') more (k :: indents) newest
    have hsolid : isSolid (quoteMark single) = true := by cases single <;> decide
    have hsettle := settle_solid hsolid hle (w ++ quoteMark single :: '\n' :: more) false newest
    refine ⟨q.after '\n', rfl, fun fuel => ?_⟩
    have hassoc : quoteMark single :: (w ++ [quoteMark single]) ++ '\n' :: more =
        quoteMark single :: (w ++ quoteMark single :: '\n' :: more) := by simp
    rw [run_congr_gap hgap, hassoc, run_step hsettle rfl hfetch]
    -- Unlike a plain scalar, a quoted one leaves the end of its line to what comes next.
    exact run_newline q more _ _ fuel

/-! ## From line to line -/

/-- The start of a line: what is left, the open block collections and the tokens so far. -/
structure LineStart where
  rest : Text
  indents : List Nat
  newest : List Token

/-- The scanner at the start of a line. -/
def LineStart.scanner (l : LineStart) (p : Position) : Scanner :=
  resting p l.rest true l.indents l.newest

/-- From one line start the scanner comes to another one, with no more steps than characters in
between. -/
def Leads (a b : LineStart) : Prop :=
  ∃ n, n + b.rest.length ≤ a.rest.length ∧ ∀ p, p.column = 0 → ∃ q, q.column = 0 ∧
    ∀ fuel, run (fuel + n) (a.scanner p) = run fuel (b.scanner q)

theorem Leads.refl (a : LineStart) : Leads a a :=
  ⟨0, by omega, fun p hp => ⟨p, hp, fun _ => rfl⟩⟩

theorem Leads.trans {a b c : LineStart} (hab : Leads a b) (hbc : Leads b c) : Leads a c := by
  obtain ⟨n, hn, hfirst⟩ := hab
  obtain ⟨m, hm, hsecond⟩ := hbc
  refine ⟨m + n, by omega, fun p hp => ?_⟩
  obtain ⟨q, hq, hrun⟩ := hfirst p hp
  obtain ⟨r, hr, hrun'⟩ := hsecond q hq
  exact ⟨r, hr, fun fuel => by rw [← Nat.add_assoc, hrun, hrun']⟩

theorem closeWhile_cons {f : Nat → Bool} {k : Nat} (hk : f k = true) :
    (resting p rest key (k :: indents) newest).closeWhile f =
      (resting p rest key indents (.blockEnd :: newest)).closeWhile f := by
  have htake : (k :: indents).takeWhile f = k :: indents.takeWhile f :=
    List.takeWhile_cons_of_pos hk
  simp only [closeWhile, resting, inFlow, List.isEmpty_nil, Bool.not_true, Bool.false_eq_true,
    if_false, htake, List.length_cons, List.drop_succ_cons, List.replicate_succ',
    List.append_assoc, List.singleton_append]

/-- The innermost block collection ends where a line begins left of it, and at the end. -/
theorem Leads.close {k : Nat} (h : Resumes k more) (indents : List Nat) (newest : List Token) :
    Leads ⟨more, k :: indents, newest⟩ ⟨more, indents, .blockEnd :: newest⟩ := by
  refine ⟨0, by simp, fun p hp => ⟨p, hp, fun fuel => ?_⟩⟩
  cases fuel with
  | zero => rfl
  | succ fuel =>
    have hend : (resting p [] true (k :: indents) newest).closeAll =
        (resting p [] true indents (.blockEnd :: newest)).closeAll := closeWhile_cons rfl
    rw [Nat.add_zero, LineStart.scanner, LineStart.scanner, run, run, settle_resting,
      settle_resting]
    -- At the end all collections are closed; at a line those are closed that begin right of it.
    cases h with
    | ended =>
      change (resting p [] true (k :: indents) newest).closeAll.dropCandidate.map _ =
        (resting p [] true indents (.blockEnd :: newest)).closeAll.dropCandidate.map _
      rw [hend]
    | @line j hj c s hc =>
      have hcolumn : (p.behind (List.replicate j ' ')).column < k := by
        rw [Position.behind_of_oneLine _ (by simp [OneLine, isBreak])]
        simpa [hp] using hj
      have hclose : ∀ q rest, (resting q rest true (k :: indents) newest).closeTo
            (p.behind (List.replicate j ' ')).column =
          (resting q rest true indents (.blockEnd :: newest)).closeTo
            (p.behind (List.replicate j ' ')).column :=
        fun _ _ => closeWhile_cons (by simpa using hcolumn)
      simp only [skipGap_indentation, skipGap_solid hc, hclose]

/-! ## Items of a block mapping -/

/-- Lines in which every character is written as it is. -/
def Clean (s : Text) : Prop :=
  ∀ c ∈ s, c = '\n' ∨ (isPrintable c = true ∧ isBreakOut c = false)

theorem Clean.of_safe (h : Safe s) : Clean s := fun c hc => .inr (h c hc)

theorem Clean.append {t : Text} (hs : Clean s) (ht : Clean t) : Clean (s ++ t) := fun c hc =>
  (List.mem_append.mp hc).elim (hs c) (ht c)

theorem Clean.cons (hc : c = '\n' ∨ (isPrintable c = true ∧ isBreakOut c = false))
    (hs : Clean s) : Clean (c :: s) := List.forall_mem_cons.mpr ⟨hc, hs⟩

theorem Clean.flatMap {α : Type} {items : List α} {text : α → Text}
    (h : ∀ a ∈ items, Clean (text a)) : Clean (items.flatMap text) := by
  intro c hc
  obtain ⟨a, ha, hmem⟩ := List.mem_flatMap.mp hc
  exact h a ha c hmem

theorem safe_spaces (k : Nat) : Safe (List.replicate k ' ') := by
  intro c hc
  rw [List.eq_of_mem_replicate hc]
  decide

/-- Lines that stand for some tokens in a block mapping at column `k`. -/
structure Item (k : Nat) (text : Text) (ts : List Token) : Prop where
  clean : Clean text
  begins : ∃ c s, isSolid c = true ∧ text = List.replicate k ' ' ++ c :: s
  leads : ∀ {more : Text} {indents indents' : List Nat} {opening : List Token}
    (newest : List Token), Resumes (k + 1) more → Enters k indents indents' opening →
      Leads ⟨text ++ more, indents, newest⟩ ⟨more, indents', ts.reverse ++ (opening ++ newest)⟩

theorem Enters.exists_cons {k : Nat} {indents' : List Nat} {opening : List Token}
    (h : Enters k indents indents' opening) : ∃ outer, indents' = k :: outer := by
  cases h with
  | stays indents => exact ⟨indents, rfl⟩
  | opens _ => exact ⟨_, rfl⟩

section Items

variable {α : Type} {items : List α} {text : α → Text} {ts : α → List Token} {k : Nat}

theorem resumes_items (h : ∀ a ∈ items, Item k (text a) (ts a)) (hmore : Resumes (k + 1) more) :
    Resumes (k + 1) (items.flatMap text ++ more) := by
  cases items with
  | nil => exact hmore
  | cons a items =>
    obtain ⟨c, s, hc, ha⟩ := (h a List.mem_cons_self).begins
    rw [List.flatMap_cons, ha, List.append_assoc, List.append_assoc, List.cons_append]
    exact .line (Nat.lt_succ_self k) hc

/-- Items of an open block mapping. -/
theorem Leads.of_items (h : ∀ a ∈ items, Item k (text a) (ts a)) (hmore : Resumes (k + 1) more)
    (indents : List Nat) (newest : List Token) :
    Leads ⟨items.flatMap text ++ more, k :: indents, newest⟩
      ⟨more, k :: indents, (items.flatMap ts).reverse ++ newest⟩ := by
  induction items generalizing newest with
  | nil => exact .refl _
  | cons a items ih =>
    obtain ⟨ha, hitems⟩ := List.forall_mem_cons.mp h
    have hfirst := ha.leads newest (resumes_items hitems hmore) (Enters.stays indents)
    have hrest := ih hitems ((ts a).reverse ++ newest)
    rw [List.flatMap_cons, List.flatMap_cons, List.append_assoc, List.reverse_append,
      List.append_assoc]
    exact hfirst.trans hrest

/-- The tokens of a block mapping. -/
def blockTokens (ts : List Token) : List Token := .blockMappingStart :: (ts ++ [.blockEnd])

/-- A block mapping from its first item to the line that ends it. -/
theorem Leads.block (hne : items ≠ []) (h : ∀ a ∈ items, Item k (text a) (ts a))
    (hmore : Resumes k more) (hopen : ∀ i, indents.head? = some i → i < k) (newest : List Token) :
    Leads ⟨items.flatMap text ++ more, indents, newest⟩
      ⟨more, indents, (blockTokens (items.flatMap ts)).reverse ++ newest⟩ := by
  obtain ⟨a, items, rfl⟩ := List.exists_cons_of_ne_nil hne
  obtain ⟨ha, hitems⟩ := List.forall_mem_cons.mp h
  have hlater : Resumes (k + 1) more := hmore.mono (Nat.le_succ k)
  have hfirst := ha.leads newest (resumes_items hitems hlater) (Enters.opens hopen)
  -- The first item opens the mapping, and the others stay in it.
  have hrest := Leads.of_items hitems hlater indents
    ((ts a).reverse ++ ([.blockMappingStart] ++ newest))
  have hclose := Leads.close hmore indents
    ((items.flatMap ts).reverse ++ ((ts a).reverse ++ ([.blockMappingStart] ++ newest)))
  rw [List.flatMap_cons, List.append_assoc]
  refine hfirst.trans (hrest.trans ?_)
  simpa [blockTokens] using hclose

end Items

/-! ## Two kinds of items -/

/-- The tokens of a name and its colon. -/
def nameTokens (name : Text) : List Token := [.key, .scalar name true, .value]

/-- A line with a name and a value. -/
theorem item_value {name w content : Text} {plain : Bool} (hname : IsName name)
    (hw : Written w content plain) (k : Nat) :
    Item k (List.replicate k ' ' ++ (name ++ ':' :: ' ' :: (w ++ ['\n'])))
      (nameTokens name ++ [.scalar content plain]) := by
  obtain ⟨c, s, hc⟩ := List.exists_cons_of_ne_nil hname.ne_nil
  refine ⟨?_, ⟨c, s ++ ':' :: ' ' :: (w ++ ['\n']), hname.isSolid_head (by rw [hc]; rfl),
    by rw [hc]; rfl⟩, ?_⟩
  · exact (Clean.of_safe (safe_spaces k)).append ((Clean.of_safe hname.safe).append
      (.cons (by decide) (.cons (by decide) ((Clean.of_safe hw.safe).append (by simp [Clean])))))
  · intro more indents indents' opening newest hmore henter
    obtain ⟨outer, rfl⟩ := henter.exists_cons
    refine ⟨3, ?_, fun p hp => ?_⟩
    · simp only [List.length_append, List.length_cons, List.length_nil]
      omega
    obtain ⟨q, hq, hrun⟩ := run_name hname (' ' :: (w ++ '\n' :: more)) rfl henter newest hp
    obtain ⟨r, hr, hrun'⟩ := run_value hw hmore hq outer
      (.value :: .scalar name true :: .key :: (opening ++ newest))
    refine ⟨r, hr, fun fuel => ?_⟩
    have hassoc : List.replicate k ' ' ++ (name ++ ':' :: ' ' :: (w ++ ['\n'])) ++ more =
        List.replicate k ' ' ++ (name ++ ':' :: ' ' :: (w ++ '\n' :: more)) := by simp
    rw [LineStart.scanner, hassoc]
    exact (hrun (fuel + 1)).trans (hrun' fuel)

/-- A line with a name, and a deeper block mapping under it. -/
theorem item_section {α : Type} {items : List α} {text : α → Text} {ts : α → List Token}
    {name : Text} {k l : Nat} (hname : IsName name) (hne : items ≠ [])
    (h : ∀ a ∈ items, Item l (text a) (ts a)) (hkl : k < l) :
    Item k (List.replicate k ' ' ++ (name ++ ':' :: '\n' :: items.flatMap text))
      (nameTokens name ++ blockTokens (items.flatMap ts)) := by
  obtain ⟨c, s, hc⟩ := List.exists_cons_of_ne_nil hname.ne_nil
  refine ⟨?_, ⟨c, s ++ ':' :: '\n' :: items.flatMap text, hname.isSolid_head (by rw [hc]; rfl),
    by rw [hc]; rfl⟩, ?_⟩
  · exact (Clean.of_safe (safe_spaces k)).append ((Clean.of_safe hname.safe).append
      (.cons (by decide) (.cons (by decide) (Clean.flatMap fun a ha => (h a ha).clean))))
  · intro more indents indents' opening newest hmore henter
    obtain ⟨outer, rfl⟩ := henter.exists_cons
    have hdeeper : ∀ i, (k :: outer).head? = some i → i < l :=
      fun i hi => Option.some.inj hi ▸ hkl
    have hblock := Leads.block hne h (hmore.mono hkl) hdeeper
      (.value :: .scalar name true :: .key :: (opening ++ newest))
    have hhead : Leads
        ⟨List.replicate k ' ' ++ (name ++ ':' :: '\n' :: items.flatMap text) ++ more, indents,
          newest⟩
        ⟨items.flatMap text ++ more, k :: outer,
          .value :: .scalar name true :: .key :: (opening ++ newest)⟩ := by
      refine ⟨2, ?_, fun p hp => ?_⟩
      · simp only [List.length_append, List.length_cons]
        omega
      obtain ⟨q, hq, hrun⟩ := run_name hname ('\n' :: (items.flatMap text ++ more)) rfl henter
        newest hp
      refine ⟨q.after '\n', rfl, fun fuel => ?_⟩
      have hassoc : List.replicate k ' ' ++ (name ++ ':' :: '\n' :: items.flatMap text) ++ more =
          List.replicate k ' ' ++ (name ++ ':' :: '\n' :: (items.flatMap text ++ more)) := by simp
      rw [LineStart.scanner, hassoc]
      exact (hrun fuel).trans (run_newline q _ _ _ fuel)
    refine hhead.trans ?_
    simpa [nameTokens] using hblock

end Scanner

/-! ## The tokens of a document -/

open Scanner

theorem isAllowed_of_printable {c : Char} (h : isPrintable c = true) : isAllowed c = true := by
  simp only [isPrintable, isAllowed, Bool.or_eq_true, Bool.and_eq_true, decide_eq_true_eq,
    beq_iff_eq, bne_iff_ne] at h ⊢
  omega

theorem Scanner.Clean.isAllowed {s : Text} (h : Clean s) : s.all isAllowed = true := by
  refine List.all_eq_true.mpr fun c hc => ?_
  rcases h c hc with rfl | ⟨hprint, -⟩
  · decide
  · exact isAllowed_of_printable hprint

theorem Scanner.Clean.unifyBreaks {s : Text} (h : Clean s) : unifyBreaks s = s := by
  induction s with
  | nil => rfl
  | cons c s ih =>
    obtain ⟨hc, hs⟩ := List.forall_mem_cons.mp h
    have hreturn : c ≠ '\r' := by rintro rfl; revert hc; decide
    have hnext : c ≠ '\u0085' := by rintro rfl; revert hc; decide
    rw [Yaml.unifyBreaks, ih hs, if_neg (by simp [hreturn, hnext])]
    exact fun _ heq => absurd heq hreturn

theorem Scanner.start_of_head {s : Text} (h : s.head? ≠ some '\uFEFF') :
    Scanner.start s = resting ⟨0, 0, 0⟩ s true [] [] := by
  unfold Scanner.start
  split
  · exact absurd rfl h
  · rfl

/-- The tokens of a document that is a block mapping. -/
theorem tokens_block {α : Type} {items : List α} {text : α → Text} {ts : α → List Token}
    (hne : items ≠ []) (h : ∀ a ∈ items, Item 0 (text a) (ts a)) :
    tokens (items.flatMap text) = .ok (blockTokens (items.flatMap ts)) := by
  have hclean : Clean (items.flatMap text) := Clean.flatMap fun a ha => (h a ha).clean
  have hnone : ∀ i, ([] : List Nat).head? = some i → i < 0 := fun i hi => by cases hi
  obtain ⟨n, hn, hleads⟩ := Leads.block hne h .ended hnone []
  obtain ⟨q, -, hrun⟩ := hleads ⟨0, 0, 0⟩ rfl
  have hhead : (items.flatMap text).head? ≠ some '\uFEFF' := by
    intro hhead
    rcases hclean _ (List.mem_of_head? hhead) with hc | ⟨hc, -⟩
    · exact absurd hc (by decide)
    · exact absurd hc (by decide)
  rw [tokens, if_pos hclean.isAllowed, hclean.unifyBreaks]
  dsimp only
  rw [Scanner.start_of_head hhead]
  simp only [List.append_nil, List.length_nil, Nat.add_zero] at hn hrun
  obtain ⟨fuel, hfuel⟩ : ∃ fuel, (items.flatMap text).length + 1 = (fuel + 1) + n :=
    ⟨(items.flatMap text).length - n, by omega⟩
  have hend : run (fuel + 1) (LineStart.scanner ⟨[], [], (blockTokens (items.flatMap ts)).reverse⟩
      q) = .ok (blockTokens (items.flatMap ts)).reverse.reverse := rfl
  rw [List.reverse_reverse] at hend
  rw [hfuel]
  exact (hrun (fuel + 1)).trans hend

end DumpConversion.Yaml
