import Mathlib.Data.List.Forall2
import DumpConversion.CommandLine.Request
import DumpConversion.Proofs.Settings.Password

/-! # Command lines that differ in the password only

The password is given as the word `--password=` with the password behind it. Two command lines that
differ in such passwords ask for the same, up to the password, or are refused in the same words.

* `UpToPassword`: the relation on command lines. Behind two dashes alone, and behind the command for
  help, no word is an option.
* `Mention.UpToPassword`, `Part.UpToPassword`, `Task.UpToPassword`, `Request.UpToPassword`: the
  relation on what is read.
* `readWords_upToPassword`, `overridesOf_upToPassword`, `Request.read_upToPassword`: the steps of
  reading keep the relation.
-/

namespace DumpConversion.CommandLine

set_option autoImplicit false

/-! ## Command lines -/

/-- The word that gives a password. -/
def passwordWord (p : Text) : Text := "--password=".toList ++ p

/-- Two lists of words that differ at most in interchangeable passwords. -/
inductive WordsUpToPassword : List Text → List Text → Prop where
  | same (words : List Text) : WordsUpToPassword words words
  | word {w : Text} {ws ws' : List Text} (hw : w ≠ endOfOptions) (h : WordsUpToPassword ws ws') :
    WordsUpToPassword (w :: ws) (w :: ws')
  | password {p q : Text} {ws ws' : List Text} (hp : Interchangeable p q)
    (h : WordsUpToPassword ws ws') :
    WordsUpToPassword (passwordWord p :: ws) (passwordWord q :: ws')

/-- The command is the one for help. The words behind it are names of commands. -/
def NamesTopics (words : List Text) : Prop :=
  ∃ part rest, readPart .front words = .ok part ∧ part.verb = some (.help, rest)

/-- Two command lines that differ at most in interchangeable passwords. -/
structure UpToPassword (ws ws' : List Text) : Prop where
  words : WordsUpToPassword ws ws'
  topics : NamesTopics ws → ws = ws'

/-! ## What is read -/

/-- Two mentions that differ at most in interchangeable passwords. -/
inductive Mention.UpToPassword : Mention → Mention → Prop where
  | same (m : Mention) : UpToPassword m m
  | password {p q : Text} (h : Interchangeable p q) :
    UpToPassword (.parameter .password p) (.parameter .password q)

/-- Two faults that are told in the same words. -/
def UsageFault.SameWords (e f : UsageFault) : Prop := e.message = f.message

/-- Two lists of mentions that differ at most in interchangeable passwords. -/
def MentionsUpToPassword : List Mention → List Mention → Prop :=
  List.Forall₂ Mention.UpToPassword

/-- Two parts that differ at most in interchangeable passwords. -/
structure Part.UpToPassword (p q : Part) : Prop where
  mentions : MentionsUpToPassword p.mentions q.mentions
  verb : Option.Rel (fun v w => v.1 = w.1 ∧ WordsUpToPassword v.2 w.2) p.verb q.verb

/-- Two tasks that differ at most in the password. -/
inductive Task.UpToPassword : Task → Task → Prop where
  | same (t : Task) : UpToPassword t t
  | convert (target : Path) {o o' : Overrides} (h : o.UpToPassword o') :
    UpToPassword (.convert target o) (.convert target o')
  | showSettings {o o' : Overrides} (h : o.UpToPassword o') :
    UpToPassword (.showSettings o) (.showSettings o')

/-- Two requests that differ at most in the password. -/
inductive Request.UpToPassword : Request → Request → Prop where
  | same (r : Request) : UpToPassword r r
  | task (g : General) {t t' : Task} (h : t.UpToPassword t') :
    UpToPassword (.task g t) (.task g t')

/-- Two readings that end in related values, or in faults told in the same words. -/
abbrev Reads {α β : Type} (values : α → β → Prop) :
    Except UsageFault α → Except UsageFault β → Prop :=
  Agree UsageFault.SameWords values

theorem MentionsUpToPassword.refl (ms : List Mention) : MentionsUpToPassword ms ms :=
  List.forall₂_same.mpr fun m _ => .same m

theorem Part.UpToPassword.refl (p : Part) : p.UpToPassword p where
  mentions := .refl p.mentions
  verb := by
    cases p.verb with
    | none => exact .none
    | some v => exact .some ⟨rfl, .same v.2⟩

theorem Reads.refl {α : Type} {values : α → α → Prop} (h : ∀ a, values a a)
    (x : Except UsageFault α) : Reads values x x :=
  Agree.refl (fun e => show e.message = e.message from rfl) h x

/-- Goes on alike after the same reading. -/
theorem Reads.bind_self {α β γ : Type} {values : β → γ → Prop} (x : Except UsageFault α)
    {f : α → Except UsageFault β} {g : α → Except UsageFault γ}
    (h : ∀ a, Reads values (f a) (g a)) : Reads values (x >>= f) (x >>= g) :=
  Agree.bind_self (fun e => show e.message = e.message from rfl) x h

/-! ## One word -/

theorem flag?_password (v : Vocabulary) : v.flag? "password".toList = none := by
  refine List.find?_eq_none.mpr fun f _ => ?_
  cases f <;> decide

theorem parameter?_password (v : Vocabulary) :
    v.parameter? "password".toList = none ∨ v.parameter? "password".toList = some .password := by
  cases h : v.parameter? "password".toList with
  | none => exact .inl rfl
  | some p =>
    rw [Vocabulary.parameter?] at h
    have hp : p.long = "password" := by
      simpa only [decide_eq_true_eq, String.toList_inj] using List.find?_some h
    obtain rfl : p = .password := by
      revert hp
      cases p <;> decide
    exact .inr rfl

/-- A password is mentioned, or the option is unknown; this does not hang on the password. -/
theorem readWord_passwordWord (v : Vocabulary) :
    (∀ p, readWord v (passwordWord p) = .ok ([.parameter .password p], none)) ∨
      ∀ p, readWord v (passwordWord p) = .error (.unknownOption "password".toList) := by
  have hname (p : Text) : ("password=".toList ++ p).takeWhile (fun c => decide (c ≠ '=')) =
      "password".toList := by
    simp
  have htail (p : Text) : ("password=".toList ++ p).dropWhile (fun c => decide (c ≠ '=')) =
      '=' :: p := by
    simp
  have hlong (p : Text) : readWord v (passwordWord p) = readLong v ("password=".toList ++ p) := rfl
  rcases parameter?_password v with hunknown | hknown
  · refine .inr fun p => ?_
    rw [hlong, readLong, hname, htail, flag?_password, hunknown]
  · refine .inl fun p => ?_
    rw [hlong, readLong, hname, htail, flag?_password, hknown]
    rfl

theorem verb?_passwordWord (v : Vocabulary) (p : Text) : v.verb? (passwordWord p) = none := by
  refine List.find?_eq_none.mpr fun w _ hw => ?_
  have hdash : w.name.toList.head? = some '-' := by
    rw [of_decide_eq_true hw]
    rfl
  revert hdash
  cases w <;> decide

theorem passwordWord_ne_endOfOptions (p : Text) : passwordWord p ≠ endOfOptions := by
  intro h
  have hthird : (passwordWord p)[2]? = endOfOptions[2]? := by rw [h]
  revert hthird
  change some 'p' ≠ none
  decide

/-! ## All words -/

theorem Part.UpToPassword.after {p q : Part} (h : p.UpToPassword q) (found : List Mention) :
    (p.after found).UpToPassword (q.after found) where
  mentions := List.rel_append (MentionsUpToPassword.refl found) h.mentions
  verb := h.verb

theorem Part.UpToPassword.afterPassword {p q : Part} (h : p.UpToPassword q) {a b : Text}
    (hab : Interchangeable a b) :
    (p.after [.parameter .password a]).UpToPassword (q.after [.parameter .password b]) where
  mentions := .cons (.password hab) h.mentions
  verb := h.verb

/-- The induction is on the way in which the two command lines are related. A word that waits for
its value takes the next word with it, so that the step may go two words on. -/
theorem readWords_upToPassword (v : Vocabulary) {ws ws' : List Text}
    (h : WordsUpToPassword ws ws') :
    Reads Part.UpToPassword (readWords v ws) (readWords v ws') := by
  match h with
  | .same words => exact .refl Part.UpToPassword.refl _
  | .password hp hrest =>
    have ih := readWords_upToPassword v hrest
    simp only [readWords, verb?_passwordWord, passwordWord_ne_endOfOptions, if_false]
    rcases readWord_passwordWord v with hknown | hunknown
    · rw [hknown, hknown]
      have hquestion (a : Text) :
          [Mention.parameter .password a].any Mention.endsReading = false := rfl
      simp only [hquestion]
      exact ih.map fun _ _ hpart => hpart.afterPassword hp
    · rw [hunknown, hunknown]
      exact .error rfl
  | .word (w := w) hw hrest =>
    simp only [readWords, hw, if_false]
    cases v.verb? w with
    | some verb => exact .ok ⟨.refl [], .some ⟨rfl, hrest⟩⟩
    | none =>
      cases readWord v w with
      | error fault => exact .error rfl
      | ok found =>
        match found with
        | (found, none) =>
          by_cases hquestion : found.any Mention.endsReading
          · simp only [hquestion, if_true]
            exact .ok (.refl _)
          · simp only [hquestion]
            exact (readWords_upToPassword v hrest).map fun _ _ hpart => hpart.after found
        | (found, some waiting) =>
          match hrest with
          | .same rest => exact .refl Part.UpToPassword.refl _
          | .password hp hrest => exact .error rfl
          | .word (w := value) hvalue hrest =>
            by_cases hlooks : looksLikeOption value
            · simp only [hlooks, if_true]
              exact .error rfl
            · simp only [hlooks]
              exact (readWords_upToPassword v hrest).map fun _ _ hpart => hpart.after _

/-! ## Looking up mentions -/

section Mentions

variable {ms ns : List Mention}

theorem isFlag_upToPassword {m n : Mention} (h : m.UpToPassword n) (f : Flag) :
    (m == .flag f) = (n == .flag f) := by
  cases h with
  | same => rfl
  | password hp => rfl

theorem hasFlag_upToPassword (h : MentionsUpToPassword ms ns) (f : Flag) :
    hasFlag ms f = hasFlag ns f := by
  unfold hasFlag
  induction h with
  | nil => rfl
  | cons hm _ ih => rw [List.contains_cons, List.contains_cons, Bool.beq_comm,
      isFlag_upToPassword hm, Bool.beq_comm, ih]

theorem count_upToPassword (h : MentionsUpToPassword ms ns) (f : Flag) :
    ms.count (.flag f) = ns.count (.flag f) := by
  induction h with
  | nil => rfl
  | cons hm _ ih => rw [List.count_cons, List.count_cons, isFlag_upToPassword hm, ih]

theorem operands_upToPassword (h : MentionsUpToPassword ms ns) : operands ms = operands ns := by
  unfold operands
  induction h with
  | nil => rfl
  | cons hm _ ih =>
    cases hm with
    | same => simp only [List.filterMap_cons, ih]
    | password hp => simpa only [List.filterMap_cons] using ih

/-- The values of a parameter are the same, or interchangeable passwords. -/
theorem given?_upToPassword (h : MentionsUpToPassword ms ns) (p : Parameter) :
    Option.Rel (fun a b => a = b ∨ p = .password ∧ Interchangeable a b) (given? ms p)
      (given? ns p) := by
  unfold given?
  induction h with
  | nil => exact .none
  | cons hm _ ih =>
    cases hm with
    | password hp =>
      simp only [List.findSome?_cons]
      by_cases hpassword : Parameter.password = p
      · subst hpassword
        exact .some (.inr ⟨rfl, hp⟩)
      · simpa only [hpassword, if_false] using ih
    | same =>
      rename_i m _ _ _
      simp only [List.findSome?_cons]
      split
      · exact .some (.inl rfl)
      · exact ih

theorem given?_eq (h : MentionsUpToPassword ms ns) {p : Parameter} (hp : p ≠ .password) :
    given? ms p = given? ns p := by
  have hrel := given?_upToPassword h p
  generalize given? ms p = a, given? ns p = b at hrel
  cases hrel with
  | none => rfl
  | some hab => rw [hab.resolve_right fun h => hp h.1]

theorem given?_password (h : MentionsUpToPassword ms ns) :
    Option.Rel Interchangeable (given? ms .password) (given? ns .password) := by
  have hrel := given?_upToPassword h .password
  generalize given? ms .password = a, given? ns .password = b at hrel
  cases hrel with
  | none => exact .none
  | some hab => exact .some (hab.elim (fun h => h ▸ .refl _) (·.2))

theorem readGiven_eq {α : Type} (read : Text → Option α) (h : MentionsUpToPassword ms ns)
    {p : Parameter} (hp : p ≠ .password) : readGiven read ms p = readGiven read ns p := by
  rw [readGiven, readGiven, given?_eq h hp]

theorem clashes_upToPassword {m n x y : Mention} (hm : m.UpToPassword n)
    (hx : x.UpToPassword y) : m.clashes x = n.clashes y := by
  cases hm with
  | password hp =>
    cases hx with
    | password hq => rfl
    | same => cases x <;> rfl
  | same =>
    cases hx with
    | password hq => cases m <;> rfl
    | same => rfl

theorem any_clashes_upToPassword {m n : Mention} (hm : m.UpToPassword n)
    (h : MentionsUpToPassword ms ns) : ms.any m.clashes = ns.any n.clashes := by
  induction h with
  | nil => rfl
  | cons hx _ ih => rw [List.any_cons, List.any_cons, clashes_upToPassword hm hx, ih]

/-- The same option is repeated. -/
theorem repeated?_upToPassword (h : MentionsUpToPassword ms ns) :
    Option.Rel Mention.UpToPassword (repeated? ms) (repeated? ns) := by
  induction h with
  | nil => exact .none
  | cons hm hrest ih =>
    simp only [repeated?, any_clashes_upToPassword hm hrest]
    split
    · exact .some hm
    · exact ih

theorem repeated_sameWords {m n : Mention} (h : m.UpToPassword n) :
    UsageFault.SameWords (.repeated m) (.repeated n) := by
  cases h with
  | same => rfl
  | password hp => rfl

/-! ## Tasks and requests -/

theorem generalOf_eq (h : MentionsUpToPassword ms ns) :
    General.ofMentions ms = General.ofMentions ns := by
  simp only [General.ofMentions, readGiven_eq readPath h (p := .config) (by decide),
    readGiven_eq readPath h (p := .logFile) (by decide), hasFlag_upToPassword h,
    count_upToPassword h]

theorem onlyOperand_eq (v : Verb) (h : MentionsUpToPassword ms ns) :
    Task.onlyOperand v ms = Task.onlyOperand v ns := by
  rw [Task.onlyOperand, Task.onlyOperand, operands_upToPassword h]

theorem withoutOperand_eq (h : MentionsUpToPassword ms ns) :
    Task.withoutOperand ms = Task.withoutOperand ns := by
  rw [Task.withoutOperand, Task.withoutOperand, operands_upToPassword h]

theorem overridesOf_upToPassword (h : MentionsUpToPassword ms ns) :
    Agree Eq Overrides.UpToPassword (overridesOf ms) (overridesOf ns) := by
  have hself {α β γ : Type} {values : β → γ → Prop} (x : Except UsageFault α)
      {f : α → Except UsageFault β} {g : α → Except UsageFault γ}
      (h : ∀ a, Agree Eq values (f a) (g a)) : Agree Eq values (x >>= f) (x >>= g) :=
    .bind_self (fun _ => rfl) x h
  unfold overridesOf
  rw [readGiven_eq readPort h (p := .port) (by decide),
    readGiven_eq readPath h (p := .dumpFile) (by decide),
    readGiven_eq readPath h (p := .mysqldump) (by decide),
    readGiven_eq readPath h (p := .sqlite3) (by decide),
    readGiven_eq readEncoding h (p := .encoding) (by decide),
    readGiven_eq readLoadMethod h (p := .importer) (by decide),
    readGiven_eq readSeconds h (p := .timeout) (by decide)]
  refine hself _ fun port => hself _ fun dumpFile => hself _ fun mysqldump => ?_
  refine hself _ fun sqlite3 => hself _ fun encoding => hself _ fun importer => ?_
  refine hself _ fun timeoutSeconds => .ok ⟨given? ns .password, given?_password h, ?_⟩
  rw [given?_eq h (p := .host) (by decide), given?_eq h (p := .user) (by decide),
    given?_eq h (p := .database) (by decide), hasFlag_upToPassword h, hasFlag_upToPassword h]
  rfl

theorem taskOf_upToPassword (v : Verb) (h : MentionsUpToPassword ms ns) :
    Agree Eq Task.UpToPassword (Task.ofMentions v ms) (Task.ofMentions v ns) := by
  cases v with
  | convert =>
    simp only [Task.ofMentions, onlyOperand_eq .convert h]
    refine (overridesOf_upToPassword h).bind fun o o' ho => .bind_self (fun _ => rfl) _ ?_
    exact fun target => .ok (.convert target ho)
  | sanitize =>
    simp only [Task.ofMentions, onlyOperand_eq .sanitize h,
      readGiven_eq readPath h (p := .output) (by decide),
      readGiven_eq readEncoding h (p := .encoding) (by decide)]
    exact .refl (fun _ => rfl) .same _
  | config =>
    simp only [Task.ofMentions, withoutOperand_eq h]
    refine .bind_self (fun _ => rfl) _ fun _ => (overridesOf_upToPassword h).bind fun o o' ho => ?_
    exact .ok (.showSettings ho)
  | version =>
    simp only [Task.ofMentions, withoutOperand_eq h]
    exact .refl (fun _ => rfl) .same _
  | help => exact .error rfl

theorem Request.ofMentions_upToPassword (g : General) (v : Verb)
    (h : MentionsUpToPassword ms ns) :
    Agree Eq Request.UpToPassword (Request.ofMentions g v ms) (Request.ofMentions g v ns) := by
  have htask := taskOf_upToPassword v h
  rw [Request.ofMentions, Request.ofMentions, hasFlag_upToPassword h]
  generalize Task.ofMentions v ms = x, Task.ofMentions v ns = y at htask
  split
  · cases htask with
    | ok ht => exact .ok (.same _)
    | error hfault =>
      subst hfault
      exact .refl (fun _ => rfl) .same _
  · exact htask.bind fun t t' ht => .ok (.task g ht)

end Mentions

theorem readPart_upToPassword (v : Vocabulary) {ws ws' : List Text}
    (h : WordsUpToPassword ws ws') :
    Reads Part.UpToPassword (readPart v ws) (readPart v ws') := by
  refine (readWords_upToPassword v h).bind fun p q hpq => ?_
  have hrepeated := repeated?_upToPassword hpq.mentions
  generalize repeated? p.mentions = m, repeated? q.mentions = n at hrepeated
  cases hrepeated with
  | none => exact .ok hpq
  | some hmn => exact .error (repeated_sameWords hmn)

theorem Request.ofVerb_upToPassword (outer : General) {v : Verb} (hv : v ≠ .help)
    {ws ws' : List Text} (h : WordsUpToPassword ws ws') :
    Reads Request.UpToPassword (Request.ofVerb outer v ws) (Request.ofVerb outer v ws') := by
  rw [Request.ofVerb, Request.ofVerb, if_neg hv, if_neg hv]
  refine (readPart_upToPassword (.after v) h).bind fun second second' hsecond => ?_
  rw [generalOf_eq hsecond.mentions]
  refine Reads.bind_self _ fun inner => ?_
  exact (Request.ofMentions_upToPassword _ v hsecond.mentions).mono fun _ _ h => congrArg _ h

/-- Command lines that differ in passwords only ask for the same, up to the password, or are refused
in the same words. -/
theorem Request.read_upToPassword {ws ws' : List Text} (h : CommandLine.UpToPassword ws ws') :
    Reads Request.UpToPassword (Request.read ws) (Request.read ws') := by
  by_cases htopics : NamesTopics ws
  · rw [h.topics htopics]
    exact .refl .same _
  refine (readPart_upToPassword .front h.words).bind_of_eq fun first first' hread hfirst => ?_
  rw [generalOf_eq hfirst.mentions, withoutOperand_eq hfirst.mentions,
    hasFlag_upToPassword hfirst.mentions, hasFlag_upToPassword hfirst.mentions]
  refine Reads.bind_self _ fun outer => Reads.bind_self _ fun _ => ?_
  split
  · exact .ok (.same _)
  split
  · exact .ok (.same _)
  have hverb := hfirst.verb
  generalize hasked : first.verb = asked, first'.verb = asked' at hverb
  cases hverb with
  | none => exact .error rfl
  | @some found found' hpair =>
    obtain ⟨v, rest⟩ := found
    obtain ⟨v', rest'⟩ := found'
    obtain ⟨rfl, hrest⟩ : v = v' ∧ WordsUpToPassword rest rest' := hpair
    have hv : v ≠ .help := by
      rintro rfl
      exact htopics ⟨first, rest, hread, hasked⟩
    exact Request.ofVerb_upToPassword outer hv hrest

end DumpConversion.CommandLine
