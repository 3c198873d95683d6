import DumpConversion.Proofs.Conversion.InProcess
import DumpConversion.Proofs.Database.Additions

/-! # Loading is all or nothing

A dump is loaded in one transaction. If every statement of it succeeds on what the statements before
it have left, the target has all of their tables and rows in the end, besides its own. Otherwise it
has what it had before.

* `Engine.Executes`: the run of the statements of a script.
* `Engine.Loads`: a load of which every step succeeds.
* `Engine.LoadEnds`, `Engine.load_ends`: the step at which a load ends, and what is left then.
* `Engine.View`, `Engine.View.Transacts`: what the engine is relied on for. Statements add what they
  say, and nothing of it is in the file before the transaction is committed.
* `loadInProcess_all_or_nothing`: the two ways in which a load can end.
* `Engine.plainView`, `Engine.plain_transacts`: the engine for plain tables does what it is relied on
  for.
-/

namespace DumpConversion

set_option autoImplicit false

namespace Engine

/-! ## Scripts -/

/-- The statements of a script succeed one after the other. The texts are what is left of the script
before each of them. -/
inductive Executes (engine : Engine) : Text → Session engine.Connection → List Text →
    Session engine.Connection → Prop where
  | done (s : Session engine.Connection) : Executes engine [] s [] s
  | last {script : Text} {s s' : Session engine.Connection} (some : script ≠ [])
      (statement : engine.statement script s = (.ok 0, s')) : Executes engine script s [script] s'
  | step {script : Text} {s s' s'' : Session engine.Connection} {taken : Nat} {texts : List Text}
      (some : script ≠ []) (statement : engine.statement script s = (.ok taken, s'))
      (takes : taken ≠ 0) (rest : Executes engine (script.drop taken) s' texts s'') :
      Executes engine script s (script :: texts) s''

/-- Every step of the load succeeds. -/
def Loads (engine : Engine) (target : Path) (script : Text) (d : Disk) (texts : List Text) : Prop :=
  ∃ connection d' s s' ended, engine.openWritable target d = (.ok connection, d') ∧
    engine.startTransaction ⟨connection, d'⟩ = (.ok (), s) ∧ engine.Executes script s texts s' ∧
    engine.commit s' = (.ok (), ended)

/-- The step at which a load ends, and what is left then. -/
inductive LoadEnds (engine : Engine) (target : Path) (script : Text) (d : Disk) :
    Except Failure Unit × Disk → Prop where
  | unopened {fault : DatabaseFault} {d' : Disk}
      (fails : engine.openWritable target d = (.error fault, d')) :
      LoadEnds engine target script d (.error (.database fault), d')
  | unstarted {connection : engine.Connection} {d' : Disk} {fault : DatabaseFault}
      {s : Session engine.Connection} (opens : engine.openWritable target d = (.ok connection, d'))
      (fails : engine.startTransaction ⟨connection, d'⟩ = (.error fault, s)) :
      LoadEnds engine target script d (.error (.database fault), engine.close s)
  | unexecuted {connection : engine.Connection} {d' : Disk} {fault : DatabaseFault}
      {s s' : Session engine.Connection}
      (opens : engine.openWritable target d = (.ok connection, d'))
      (starts : engine.startTransaction ⟨connection, d'⟩ = (.ok (), s))
      (fails : engine.execute script s = (.error fault, s')) :
      LoadEnds engine target script d (.error (.database fault), engine.close (engine.rollback s'))
  | uncommitted {connection : engine.Connection} {d' : Disk} {texts : List Text}
      {fault : DatabaseFault} {s s' ended : Session engine.Connection}
      (opens : engine.openWritable target d = (.ok connection, d'))
      (starts : engine.startTransaction ⟨connection, d'⟩ = (.ok (), s))
      (executes : engine.Executes script s texts s')
      (fails : engine.commit s' = (.error fault, ended)) :
      LoadEnds engine target script d
        (.error (.database fault), engine.close (engine.rollback ended))
  | loaded {connection : engine.Connection} {d' : Disk} {texts : List Text}
      {s s' ended : Session engine.Connection}
      (opens : engine.openWritable target d = (.ok connection, d'))
      (starts : engine.startTransaction ⟨connection, d'⟩ = (.ok (), s))
      (executes : engine.Executes script s texts s') (commits : engine.commit s' = (.ok (), ended)) :
      LoadEnds engine target script d (.ok (), engine.close ended)

section

variable {engine : Engine} {target : Path} {script : Text} {d : Disk} {texts : List Text}
variable {s s' : Session engine.Connection}

theorem length_drop_lt {taken : Nat} (hempty : script ≠ []) (htaken : taken ≠ 0) :
    (script.drop taken).length < script.length := by
  have hpos := List.length_pos_iff.mpr hempty
  rw [List.length_drop]
  omega

theorem Executes.execute (h : engine.Executes script s texts s') :
    engine.execute script s = (.ok (), s') := by
  induction h with
  | done => rfl
  | last hsome hstatement =>
    rw [execute_eq, if_neg hsome, hstatement]
    exact if_pos rfl
  | step hsome hstatement htakes _ ih =>
    rw [execute_eq, if_neg hsome, hstatement]
    exact (if_neg htakes).trans ih

/-- A script is executed exactly if its statements succeed one after the other, by induction on the
length of what is left of it. -/
theorem execute_eq_ok_iff :
    engine.execute script s = (.ok (), s') ↔ ∃ texts, engine.Executes script s texts s' := by
  refine ⟨fun h => ?_, fun ⟨_, h⟩ => h.execute⟩
  induction hlength : script.length using Nat.strong_induction_on generalizing script s with
  | _ length ih =>
    rw [execute_eq] at h
    by_cases hempty : script = []
    · rw [if_pos hempty] at h
      cases h
      exact ⟨[], hempty ▸ .done _⟩
    · obtain ⟨r, s1, hstatement⟩ : ∃ r s1, engine.statement script s = (r, s1) := ⟨_, _, rfl⟩
      rw [if_neg hempty, hstatement] at h
      cases r with
      | error fault => cases h
      | ok taken =>
        by_cases htaken : taken = 0
        · subst htaken
          simp only [if_pos] at h
          cases h
          exact ⟨[script], .last hempty hstatement⟩
        · simp only [if_neg htaken] at h
          have hshorter := hlength ▸ length_drop_lt hempty htaken
          obtain ⟨texts, hrest⟩ := ih _ hshorter h rfl
          exact ⟨script :: texts, .step hempty hstatement htaken hrest⟩

theorem load_ends (target : Path) (script : Text) (d : Disk) :
    engine.LoadEnds target script d (engine.load target script d) := by
  obtain ⟨r, d', hopen⟩ : ∃ r d', engine.openWritable target d = (r, d') := ⟨_, _, rfl⟩
  cases r with
  | error fault =>
    rw [load_of_open_error hopen]
    exact .unopened hopen
  | ok connection =>
    obtain ⟨r, s, hstart⟩ : ∃ r s, engine.startTransaction ⟨connection, d'⟩ = (r, s) := ⟨_, _, rfl⟩
    cases r with
    | error fault =>
      rw [load_of_open hopen (transact_of_start_error hstart)]
      exact .unstarted hopen hstart
    | ok u =>
      obtain ⟨r, s', hexecute⟩ : ∃ r s', engine.execute script s = (r, s') := ⟨_, _, rfl⟩
      cases r with
      | error fault =>
        rw [load_of_open hopen (transact_of_execute_error hstart hexecute)]
        exact .unexecuted hopen hstart hexecute
      | ok u =>
        obtain ⟨texts, hexecutes⟩ := execute_eq_ok_iff.mp hexecute
        obtain ⟨r, ended, hcommit⟩ : ∃ r ended, engine.commit s' = (r, ended) := ⟨_, _, rfl⟩
        cases r with
        | error fault =>
          rw [load_of_open hopen (transact_of_commit_error hstart hexecute hcommit)]
          exact .uncommitted hopen hstart hexecutes hcommit
        | ok u =>
          rw [load_of_open hopen (transact_of_commit hstart hexecute hcommit)]
          exact .loaded hopen hstart hexecutes hcommit

theorem load_eq_ok_iff :
    (engine.load target script d).1 = .ok () ↔ ∃ texts, engine.Loads target script d texts := by
  constructor
  · intro h
    have hends := engine.load_ends target script d
    generalize engine.load target script d = r at h hends
    cases hends with
    | unopened _ => cases h
    | unstarted _ _ => cases h
    | unexecuted _ _ _ => cases h
    | uncommitted _ _ _ _ => cases h
    | loaded hopen hstart hexecutes hcommit =>
      exact ⟨_, _, _, _, _, _, hopen, hstart, hexecutes, hcommit⟩
  · rintro ⟨texts, connection, d', s, s', ended, hopen, hstart, hexecutes, hcommit⟩
    rw [load_of_open hopen (transact_of_commit hstart hexecutes.execute hcommit)]
    rfl

end

/-! ## What the engine is relied on for -/

/-- The tables of a target, as the engine keeps them. -/
structure View (engine : Engine) (κ ρ : Type) where
  /-- The tables in the file. -/
  held : Disk → List (StoredTable κ ρ)
  /-- The tables as a session in a transaction has them. -/
  seen : Session engine.Connection → List (StoredTable κ ρ)
  idle : Session engine.Connection → Prop
  /-- The session is in a transaction. -/
  busy : Session engine.Connection → Prop
  /-- What the first statement of a text adds. -/
  adds : Text → Addition κ ρ

/-- In the sessions of a load every statement of the script that succeeds adds what it says, and the
file holds what it held until the transaction is committed, and ever after if it is not. A fault may
end a transaction. -/
structure View.Transacts {engine : Engine} {κ ρ : Type} (v : engine.View κ ρ) (target : Path)
    (script : Text) (d : Disk) : Prop where
  absent : d.isPresent target = false → v.held d = []
  opens : v.held (engine.openWritable target d).2 = v.held d
  opened : ∀ connection d', engine.openWritable target d = (.ok connection, d') →
    v.idle ⟨connection, d'⟩
  starts : ∀ s s', v.idle s → engine.startTransaction s = (.ok (), s') →
    v.busy s' ∧ v.held s'.disk = v.held s.disk ∧ v.seen s' = v.held s.disk
  not_started : ∀ s s' fault, v.idle s → engine.startTransaction s = (.error fault, s') →
    v.idle s' ∧ v.held s'.disk = v.held s.disk
  executes : ∀ text s s' taken, text <:+ script → v.busy s →
    engine.statement text s = (.ok taken, s') → v.busy s' ∧ v.held s'.disk = v.held s.disk ∧
      (v.adds text).Fits (v.seen s) ∧ v.seen s' = (v.adds text).result (v.seen s)
  not_executed : ∀ text s s' fault, text <:+ script → v.busy s →
    engine.statement text s = (.error fault, s') →
      (v.idle s' ∨ v.busy s') ∧ v.held s'.disk = v.held s.disk
  commits : ∀ s s', v.busy s → engine.commit s = (.ok (), s') →
    v.idle s' ∧ v.held s'.disk = v.seen s
  not_committed : ∀ s s' fault, v.busy s → engine.commit s = (.error fault, s') →
    (v.idle s' ∨ v.busy s') ∧ v.held s'.disk = v.held s.disk
  rollsBack : ∀ s, v.idle s ∨ v.busy s →
    v.idle (engine.rollback s) ∧ v.held (engine.rollback s).disk = v.held s.disk
  closes : ∀ s, v.idle s → v.held (engine.close s) = v.held s.disk

namespace View.Transacts

variable {engine : Engine} {κ ρ : Type} {v : engine.View κ ρ} {target : Path} {script text : Text}
variable {d : Disk} {texts : List Text} {s s' : Session engine.Connection} {f : Failure}

/-- What holds of every statement holds of a run. -/
theorem adds (h : v.Transacts target script d) (hrun : engine.Executes text s texts s')
    (hsuffix : text <:+ script) (hs : v.busy s) : v.busy s' ∧ v.held s'.disk = v.held s.disk ∧
      Adds (v.seen s) (texts.map v.adds) (v.seen s') := by
  induction hrun with
  | done s => exact ⟨hs, rfl, .nil _⟩
  | last _ hstatement =>
    obtain ⟨hbusy, hheld, hfits, hseen⟩ := h.executes _ _ _ _ hsuffix hs hstatement
    refine ⟨hbusy, hheld, .cons hfits ?_⟩
    rw [hseen]
    exact .nil _
  | @step text s s' s'' taken texts _ hstatement _ _ ih =>
    obtain ⟨hbusy, hheld, hfits, hseen⟩ := h.executes _ _ _ _ hsuffix hs hstatement
    obtain ⟨hbusy, hheld', hadds⟩ := ih ((List.drop_suffix taken text).trans hsuffix) hbusy
    rw [hseen] at hadds
    exact ⟨hbusy, hheld'.trans hheld, .cons hfits hadds⟩

/-- Until the commit the file holds what it held, by induction on the length of what is left of the
script. -/
theorem execute (h : v.Transacts target script d) (hsuffix : text <:+ script) (hs : v.busy s) :
    (v.idle (engine.execute text s).2 ∨ v.busy (engine.execute text s).2) ∧
      v.held (engine.execute text s).2.disk = v.held s.disk := by
  induction hlength : text.length using Nat.strong_induction_on generalizing text s with
  | _ length ih =>
    rw [execute_eq]
    by_cases hempty : text = []
    · rw [if_pos hempty]
      exact ⟨.inr hs, rfl⟩
    · obtain ⟨r, s1, hstatement⟩ : ∃ r s1, engine.statement text s = (r, s1) := ⟨_, _, rfl⟩
      rw [if_neg hempty, hstatement]
      cases r with
      | error fault => exact h.not_executed _ _ _ _ hsuffix hs hstatement
      | ok taken =>
        obtain ⟨hbusy, hheld, -⟩ := h.executes _ _ _ _ hsuffix hs hstatement
        by_cases htaken : taken = 0
        · simp only [if_pos htaken]
          exact ⟨.inr hbusy, hheld⟩
        · have hshorter := hlength ▸ length_drop_lt hempty htaken
          have hrest := ih _ hshorter ((List.drop_suffix taken text).trans hsuffix) hbusy rfl
          simp only [if_neg htaken]
          exact ⟨hrest.1, hrest.2.trans hheld⟩

theorem held_of_loads (h : v.Transacts target script d)
    (hloads : engine.Loads target script d texts) :
    v.held (engine.load target script d).2 = extended (v.held d) (texts.map v.adds) := by
  obtain ⟨connection, d', s, s', ended, hopen, hstart, hexecutes, hcommit⟩ := hloads
  have hopened := h.opens
  rw [hopen] at hopened
  obtain ⟨hbusy, -, hseen⟩ := h.starts _ _ (h.opened _ _ hopen) hstart
  obtain ⟨hbusy', -, hadds⟩ := h.adds hexecutes List.suffix_rfl hbusy
  obtain ⟨hidle, hheld⟩ := h.commits _ _ hbusy' hcommit
  rw [load_of_open hopen (transact_of_commit hstart hexecutes.execute hcommit)]
  calc v.held (engine.close ended) = v.held ended.disk := h.closes _ hidle
    _ = v.seen s' := hheld
    _ = extended (v.seen s) (texts.map v.adds) := hadds.eq_extended
    _ = extended (v.held d) (texts.map v.adds) := by rw [hseen, hopened]

theorem held_of_rollback (h : v.Transacts target script d) (hs : v.idle s ∨ v.busy s) :
    v.held (engine.close (engine.rollback s)) = v.held s.disk := by
  obtain ⟨hidle, hheld⟩ := h.rollsBack s hs
  exact (h.closes _ hidle).trans hheld

theorem held_of_error (h : v.Transacts target script d)
    (herror : (engine.load target script d).1 = .error f) :
    (∃ fault, f = .database fault) ∧ v.held (engine.load target script d).2 = v.held d := by
  have hopened := h.opens
  have hends := engine.load_ends target script d
  generalize engine.load target script d = r at herror hends ⊢
  cases hends with
  | loaded _ _ _ _ => cases herror
  | unopened hfails =>
    cases herror
    rw [hfails] at hopened
    exact ⟨⟨_, rfl⟩, hopened⟩
  | unstarted hopen hfails =>
    cases herror
    rw [hopen] at hopened
    obtain ⟨hidle, hheld⟩ := h.not_started _ _ _ (h.opened _ _ hopen) hfails
    exact ⟨⟨_, rfl⟩, (h.closes _ hidle).trans (hheld.trans hopened)⟩
  | unexecuted hopen hstart hfails =>
    cases herror
    rw [hopen] at hopened
    obtain ⟨hbusy, hstarted, -⟩ := h.starts _ _ (h.opened _ _ hopen) hstart
    obtain ⟨halive, hheld⟩ := h.execute List.suffix_rfl hbusy
    rw [hfails] at halive hheld
    exact ⟨⟨_, rfl⟩, (h.held_of_rollback halive).trans (hheld.trans (hstarted.trans hopened))⟩
  | uncommitted hopen hstart hexecutes hfails =>
    cases herror
    rw [hopen] at hopened
    obtain ⟨hbusy, hstarted, -⟩ := h.starts _ _ (h.opened _ _ hopen) hstart
    obtain ⟨hbusy', hexecuted, -⟩ := h.adds hexecutes List.suffix_rfl hbusy
    obtain ⟨halive, hheld⟩ := h.not_committed _ _ _ hbusy' hfails
    exact ⟨⟨_, rfl⟩, (h.held_of_rollback halive).trans
      (hheld.trans (hexecuted.trans (hstarted.trans hopened)))⟩

end View.Transacts

/-! ## The engine for plain tables -/

/-- The connection is one to the file at the location, and the file holds what was committed. -/
structure IsAt (l : Location) (s : Session Engine.plain.Connection) : Prop where
  place : s.connection.place = some l
  ne_nil : l ≠ []
  committed : (s.disk.find? l).bind Entry.content? = some s.connection.committed

/-- The tables in the file at a location. -/
def plainView (l : Location) : Engine.plain.View (List Column) (List Value) where
  held d := ((d.find? l).bind Entry.content?).elim [] Content.stored
  seen s := s.connection.current.stored
  idle s := IsAt l s ∧ s.connection.current = s.connection.committed
  busy s := IsAt l s
  adds text := ((SqlToken.lexStatement text).bind fun r => Statement.read r.1).elim .nothing
    Statement.addition

section

variable {target : Path} {d : Disk} {l : Location} {text : Text} {taken : Nat}
variable {s s' : Session Engine.plain.Connection} {tokens : List SqlToken} {c : Content}

theorem held_of_content (h : (d.find? l).bind Entry.content? = some c) :
    (plainView l).held d = c.stored :=
  congrArg (Option.elim · [] Content.stored) h

theorem IsAt.held (h : IsAt l s) : (plainView l).held s.disk = s.connection.committed.stored :=
  held_of_content h.committed

theorem openDatabase_cases {e : Disk} (hl : l ≠ []) (h : d.openDatabase l = .ok (e, c)) :
    (e.find? l).bind Entry.content? = some c ∧ (e = d ∨ d.find? l = none ∧ c = .empty) := by
  rw [Disk.openDatabase] at h
  cases hfind : d.find? l with
  | none =>
    simp only [hfind] at h
    split at h
    · cases h
      exact ⟨by rw [Disk.find?_set_self d l _ hl]; rfl, .inr ⟨rfl, rfl⟩⟩
    · cases h
  | some entry =>
    simp only [hfind] at h
    split at h
    · next hcontent =>
      cases h
      exact ⟨by rw [hfind]; exact hcontent, .inl rfl⟩
    · cases h

theorem plain_opened (hl : d.Names target l) (htarget : target.NamesDatabaseFile) :
    (plainView l).held (Engine.plain.openWritable target d).2 = (plainView l).held d ∧
      ∀ connection d', Engine.plain.openWritable target d = (.ok connection, d') →
        (plainView l).idle ⟨connection, d'⟩ := by
  have hlocation := hl.databaseLocation htarget
  cases hopen : d.openDatabase l with
  | error fault =>
    have hrefused : Engine.plain.openWritable target d = (.error fault, d) :=
      PlainConnection.openWritable_of_refused hlocation hopen
    rw [hrefused]
    exact ⟨rfl, fun connection d' h => by cases h⟩
  | ok r =>
    obtain ⟨e, c⟩ := r
    have hopened : Engine.plain.openWritable target d = (.ok (.ofContent (some l) c), e) :=
      PlainConnection.openWritable_of_opened hlocation hopen
    obtain ⟨hcontent, hcases⟩ := openDatabase_cases hl.ne_nil hopen
    rw [hopened]
    refine ⟨?_, fun connection d' h => ?_⟩
    · obtain rfl | ⟨hfind, rfl⟩ := hcases
      · rfl
      · have habsent : (plainView l).held d = [] :=
          congrArg (fun e => (e.bind Entry.content?).elim [] Content.stored) hfind
        exact (held_of_content hcontent).trans habsent.symm
    · cases h
      exact ⟨⟨rfl, hl.ne_nil, hcontent⟩, rfl⟩

theorem adds_of_afterStatement {before : Content}
    (h : PlainConnection.afterStatement before tokens = .ok c) :
    ((Statement.read tokens).elim .nothing Statement.addition).Fits before.stored ∧
      c.stored =
        ((Statement.read tokens).elim .nothing Statement.addition).result before.stored := by
  rw [PlainConnection.afterStatement] at h
  split at h
  · next hempty =>
    cases h
    rw [hempty]
    exact ⟨trivial, rfl⟩
  · split at h
    · cases h
    · cases h
    · next db statement hdb hread =>
      cases hexecute : db.execute statement with
      | error fault =>
        rw [hexecute] at h
        cases h
      | ok next =>
        rw [hexecute] at h
        cases h
        have hbefore : before.stored = db.stored := by rw [Content.stored, hdb, Option.elim_some]
        rw [hread, hbefore]
        exact Database.adds_of_execute hexecute

theorem plain_executes (hs : IsAt l s) (h : Engine.plain.statement text s = (.ok taken, s')) :
    IsAt l s' ∧ (plainView l).held s'.disk = (plainView l).held s.disk ∧
      ((plainView l).adds text).Fits ((plainView l).seen s) ∧
        (plainView l).seen s' = ((plainView l).adds text).result ((plainView l).seen s) := by
  simp only [Engine.plain, PlainConnection.statement] at h
  split at h
  · cases h
  · next tokens rest hlex =>
    split at h
    · cases h
    · next c hafter =>
      cases h
      refine ⟨⟨hs.place, hs.ne_nil, hs.committed⟩, rfl, ?_⟩
      simp only [plainView, hlex, Option.bind_some]
      exact adds_of_afterStatement hafter

theorem plain_not_executed {fault : DatabaseFault}
    (h : Engine.plain.statement text s = (.error fault, s')) : s' = s := by
  simp only [Engine.plain, PlainConnection.statement] at h
  split at h
  · cases h
    rfl
  · split at h
    · cases h
      rfl
    · cases h

theorem plain_commits (hs : IsAt l s) (h : Engine.plain.commit s = (.ok (), s')) :
    (plainView l).idle s' ∧ (plainView l).held s'.disk = (plainView l).seen s := by
  have hcommit : PlainConnection.commit s = s' := congrArg Prod.snd h
  have hdisk : (PlainConnection.commit s).disk = s.disk.set l (.file s.connection.current) := by
    simp only [PlainConnection.commit, hs.place]
  have hfind := Disk.find?_set_self s.disk l (.file s.connection.current) hs.ne_nil
  rw [← hcommit]
  refine ⟨⟨⟨hs.place, hs.ne_nil, by rw [hdisk, hfind]; rfl⟩, rfl⟩, ?_⟩
  simp only [plainView, hdisk, hfind]
  rfl

/-- The engine for plain tables keeps what was committed until it commits. -/
theorem plain_transacts (hl : d.Names target l) (htarget : target.NamesDatabaseFile)
    (script : Text) : (plainView l).Transacts target script d where
  absent habsent := by
    rw [hl.isPresent, Option.isSome_eq_false_iff, Option.isNone_iff_eq_none] at habsent
    simp only [plainView, habsent]
    rfl
  opens := (plain_opened hl htarget).1
  opened := (plain_opened hl htarget).2
  starts s s' hs h := by
    cases h
    exact ⟨hs.1, rfl, by rw [hs.1.held, ← hs.2]; rfl⟩
  not_started s s' fault hs h := by cases h
  executes text s s' taken _ hs h := plain_executes hs h
  not_executed text s s' fault _ hs h := by
    rw [plain_not_executed h]
    exact ⟨.inr hs, rfl⟩
  commits s s' hs h := plain_commits hs h
  not_committed s s' fault hs h := by cases h
  rollsBack s hs := by
    have hat : IsAt l s := hs.elim And.left id
    exact ⟨⟨⟨hat.place, hat.ne_nil, hat.committed⟩, rfl⟩, rfl⟩
  closes s hs := rfl

end

end Engine

theorem loadInProcess_of_unreadable [Platform] {target dump : Path} {m : Machine} {cause : IoError}
    (h : m.disk.readText dump = .error cause) :
    loadInProcess target dump m = (.error (.io cause), m) := by
  have hscript : (m.disk.readText dump).mapError Failure.io = .error (.io cause) := by
    rw [h]
    rfl
  rw [loadInProcess, Procedure.bind_of_ok (Procedure.disk_apply m),
    Procedure.bind_of_error (Procedure.check_of_error hscript m)]

/-- A load in one transaction is all or nothing. A dump that cannot be read leaves everything as it
was. One that can be read is loaded exactly if every step of the load succeeds, each statement on what
the statements before it have left. The target then holds the tables and rows of the dump besides its
own. Otherwise it holds what it held, which is nothing in the place of none. -/
theorem loadInProcess_all_or_nothing [Platform] (target dump : Path) (m : Machine) :
    (∀ cause, m.disk.readText dump = .error cause →
      loadInProcess target dump m = (.error (.io cause), m)) ∧
    ∀ script, m.disk.readText dump = .ok script →
      ∃ r d, loadInProcess target dump m = (r, { m with disk := d }) ∧
        (r = .ok () ↔ ∃ texts, Platform.engine.Loads target script m.disk texts) ∧
        ∀ (κ ρ : Type) (v : Platform.engine.View κ ρ), v.Transacts target script m.disk →
          (∀ texts, Platform.engine.Loads target script m.disk texts →
            v.held d = extended (v.held m.disk) (texts.map v.adds)) ∧
          ∀ f, r = .error f → (∃ fault, f = .database fault) ∧ v.held d = v.held m.disk ∧
            (m.disk.isPresent target = false → v.held d = []) := by
  refine ⟨fun cause => loadInProcess_of_unreadable, fun script hdump => ?_⟩
  refine ⟨_, _, loadInProcess_of_readText hdump rfl, Engine.load_eq_ok_iff, fun κ ρ v hv => ?_⟩
  refine ⟨fun texts => hv.held_of_loads, fun f herror => ?_⟩
  obtain ⟨hfault, hheld⟩ := hv.held_of_error herror
  exact ⟨hfault, hheld, fun habsent => hheld.trans (hv.absent habsent)⟩

/-- A dump adds a table and a row to a database, and one whose last text is not closed adds
nothing. -/
theorem loadInProcess_all_or_nothing_of_logs :
    let _ : Platform := .plain fun _ _ _ => .idle
    let target := Path.ofString "shop.db"
    let whole :=
      "CREATE TABLE \"t\" (\"id\" int);\n-- a;\nINSERT INTO \"LOGS\" VALUES ('b');".toList
    let broken := "INSERT INTO \"logs\" VALUES ('b');\nINSERT INTO \"logs\" VALUES ('c;".toList
    let logs : Table := ⟨"logs".toList, [⟨"x".toList, true⟩], [[.text ['a']]]⟩
    let m : Machine := ⟨⟨[(["shop.db".toList], .file (.database ⟨[.table logs]⟩)),
      (["whole.sql".toList], .file (.ofText whole)),
      (["broken.sql".toList], .file (.ofText broken))], []⟩, [], []⟩
    let view := Engine.plainView ["shop.db".toList]
    (∃ d, loadInProcess target (Path.ofString "whole.sql") m = (.ok (), { m with disk := d }) ∧
      view.held d = [⟨"logs".toList, [⟨"x".toList, true⟩], [[.text ['a']], [.text ['b']]]⟩,
        ⟨['t'], [⟨"id".toList, false⟩], []⟩]) ∧
      ∃ f d, loadInProcess target (Path.ofString "broken.sql") m = (.error f, { m with disk := d }) ∧
        view.held d = view.held m.disk := by
  intro platform target whole broken logs m view
  have hl : m.disk.Names target ["shop.db".toList] := ⟨_, rfl, rfl, rfl, rfl⟩
  have htransacts (script : Text) : view.Transacts target script m.disk :=
    Engine.plain_transacts hl ⟨by decide, by decide⟩ script
  have hwhole : m.disk.readText (Path.ofString "whole.sql") = .ok whole := Disk.readText_ofText rfl
  have hbroken : m.disk.readText (Path.ofString "broken.sql") = .ok broken :=
    Disk.readText_ofText rfl
  constructor
  · obtain ⟨r, d, hload, hiff, hall⟩ := (loadInProcess_all_or_nothing target _ m).2 whole hwhole
    have hloads : Engine.plain.Loads target whole m.disk [whole, whole.drop 28] :=
      ⟨_, _, _, _, _, rfl, rfl, .step (by decide) rfl (by decide)
        (.step (by decide) rfl (by decide) (.done _)), rfl⟩
    obtain rfl := hiff.mpr ⟨_, hloads⟩
    have hheld := (hall _ _ view (htransacts whole)).1 _ hloads
    refine ⟨d, hload, ?_⟩
    rw [hheld]
    rfl
  · obtain ⟨f, d', hfails⟩ : ∃ f d', Engine.plain.load target broken m.disk = (.error f, d') :=
      ⟨_, _, rfl⟩
    have hresult := loadInProcess_of_readText hbroken hfails
    obtain ⟨r, d, hload, -, hall⟩ := (loadInProcess_all_or_nothing target _ m).2 broken hbroken
    rw [hresult] at hload
    cases hload
    exact ⟨f, d', hresult, ((hall _ _ view (htransacts broken)).2 f rfl).2.1⟩

/-- The statements of a dump succeed, but a name that asks for memory gets no file, and in a missing
directory no database can be made. What stands behind a NUL is left out, although the load
succeeds. -/
theorem loadInProcess_without_table :
    let _ : Platform := .plain fun _ _ _ => .idle
    let created := "CREATE TABLE \"t\" (\"id\" int);\n".toList
    let cut := created ++ "-- \x00\nINSERT INTO \"t\" VALUES (1);".toList
    let made : Content := .database ⟨[.table ⟨['t'], [⟨"id".toList, false⟩], []⟩]⟩
    let m : Machine := ⟨⟨[(["dump.sql".toList], .file (.ofText created)),
      (["cut.sql".toList], .file (.ofText cut))], []⟩, [], []⟩
    ((∃ texts, Engine.plain.Loads (Path.ofString ":memory:") created m.disk texts) ∧
      loadInProcess (Path.ofString ":memory:") (Path.ofString "dump.sql") m = (.ok (), m)) ∧
    ((∃ texts, Engine.plain.Executes created ⟨.ofContent none .empty, m.disk⟩ texts
        ⟨⟨none, .empty, made⟩, m.disk⟩) ∧
      loadInProcess (Path.ofString "no/t.db") (Path.ofString "dump.sql") m =
        (.error (.database .cannotOpen), m)) ∧
    ∃ n, loadInProcess (Path.ofString "t.db") (Path.ofString "cut.sql") m = (.ok (), n) ∧
      n.disk.read (Path.ofString "t.db") = .ok made := by
  intro platform created cut made m
  have hdump : m.disk.readText (Path.ofString "dump.sql") = .ok created := Disk.readText_ofText rfl
  have hcut : m.disk.readText (Path.ofString "cut.sql") = .ok cut := Disk.readText_ofText rfl
  have hexecutes (place : Option Location) (d : Disk) : Engine.plain.Executes created
      ⟨⟨place, .empty, .empty⟩, d⟩ [created, ['\n']] ⟨⟨place, .empty, made⟩, d⟩ :=
    .step (by decide) rfl (by decide) (.step (by decide) rfl (by decide) (.done _))
  refine ⟨⟨⟨_, _, _, _, _, _, rfl, rfl, hexecutes none m.disk, rfl⟩, ?_⟩,
    ⟨⟨_, hexecutes none m.disk⟩, ?_⟩, ?_⟩
  · exact loadInProcess_of_readText hdump rfl
  · exact loadInProcess_of_readText hdump rfl
  · exact ⟨_, loadInProcess_of_readText hcut rfl, rfl⟩

end DumpConversion
