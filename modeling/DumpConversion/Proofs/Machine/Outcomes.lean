import DumpConversion.Machine.Command
import DumpConversion.Proofs.Bytes.Lossy

/-! # What the run of a command comes to

Every run ends well or in one failure, and which one is told from the program, its time and its
ending alone. A program that ended badly is quoted with what it printed, shortened if it is long.

* `Utf8.charStarts`, `Utf8.encode_take`: the first characters of a text are its bytes up to the place
  where the next character begins.
* `Quotes`: the text that stands for an error output in a message.
* `Command.FailsWith`: the failures, each with its cause.
* `Command.run_classified`: every outcome of every run.
-/

namespace DumpConversion

set_option autoImplicit false

/-! ## Places between characters -/

namespace Utf8

/-- The places in the bytes of a text at which its characters begin. -/
def charStarts : Text → List Nat
  | [] => []
  | c :: s => 0 :: (charStarts s).map ((String.utf8EncodeChar c).length + ·)

theorem length_charStarts (s : Text) : (charStarts s).length = s.length := by
  induction s with
  | nil => rfl
  | cons c s ih => rw [charStarts, List.length_cons, List.length_map, ih, List.length_cons]

theorem charStarts_getElem? {s : Text} {n i : Nat} (h : (charStarts s)[n]? = some i) :
    i = (encode (s.take n)).length := by
  induction s generalizing n i with
  | nil => cases h
  | cons c s ih =>
    cases n with
    | zero =>
      cases h
      rfl
    | succ n =>
      rw [charStarts, List.getElem?_cons_succ, List.getElem?_map, Option.map_eq_some_iff] at h
      obtain ⟨j, hj, rfl⟩ := h
      rw [List.take_succ_cons, encode_cons, List.length_append, ih hj]

theorem encode_take {s : Text} {n i : Nat} (h : (charStarts s)[n]? = some i) :
    encode (s.take n) = (encode s).take i ∧ encode (s.drop n) = (encode s).drop i := by
  have hsplit : encode s = encode (s.take n) ++ encode (s.drop n) := by
    rw [← encode_append, List.take_append_drop]
  rw [charStarts_getElem? h, hsplit, List.take_left, List.drop_left]
  exact ⟨rfl, rfl⟩

end Utf8

/-! ## Quoted error outputs -/

/-- The text `t` is shown whole if it has at most 4096 characters, and otherwise cut before the next
one. The bytes before the cut and those behind it are whole characters. -/
structure ShownAs (t shown : Text) : Prop where
  whole : t.length ≤ 4096 → shown = t
  cut : 4096 < t.length → shown = t.take 4096 ++ "...".toList
  between : 4096 < t.length → ∃ i, (Utf8.charStarts t)[4096]? = some i ∧
    Utf8.WellFormed ((Utf8.encode t).take i) ∧ Utf8.WellFormed ((Utf8.encode t).drop i) ∧
    Utf8.encode shown = (Utf8.encode t).take i ++ Utf8.encode "...".toList

/-- The text that stands for the bytes of an error output: decoded, trimmed and shortened. -/
def Quotes (stderr : Bytes) (shown : Text) : Prop :=
  ∃ text, Utf8.ReadsLossy stderr text ∧ ShownAs (Text.trim text) shown

theorem shownAs_shorten (t : Text) : ShownAs t (shorten excerptLimit t) where
  whole h := shorten_of_le h
  cut h := shorten_of_lt h
  between h := by
    have hlength : 4096 < (Utf8.charStarts t).length := by rwa [Utf8.length_charStarts]
    have hstart := List.getElem?_eq_getElem hlength
    obtain ⟨htake, hdrop⟩ := Utf8.encode_take hstart
    refine ⟨_, hstart, ⟨_, htake⟩, ⟨_, hdrop⟩, ?_⟩
    rw [shorten_of_lt (show excerptLimit < t.length from h), Utf8.encode_append, ← htake]
    rfl

theorem ShownAs.eq_shorten {t shown : Text} (h : ShownAs t shown) :
    shown = shorten excerptLimit t := by
  by_cases hlength : t.length ≤ excerptLimit
  · rw [h.whole hlength, shorten_of_le hlength]
  · rw [h.cut (Nat.lt_of_not_le hlength), shorten_of_lt (Nat.lt_of_not_le hlength)]
    rfl

theorem quotes_iff {stderr : Bytes} {shown : Text} :
    Quotes stderr shown ↔ shown = excerpt stderr := by
  constructor
  · rintro ⟨text, htext, hshown⟩
    rw [hshown.eq_shorten, Utf8.readsLossy_iff.mp htext]
    rfl
  · rintro rfl
    exact ⟨_, Utf8.readsLossy_decodeLossy stderr, shownAs_shorten _⟩

/-! ## Outcomes -/

/-- The program needs no more time than the limit allows. -/
def Activity.InTime (a : Activity) (limit : Option Nat) : Prop :=
  ∀ n, limit = some n → a.milliseconds ≤ n

theorem outlasts_eq_false_iff {a : Activity} {limit : Option Nat} :
    a.outlasts limit = false ↔ a.InTime limit := by
  cases limit <;> simp [Activity.outlasts, Activity.InTime]

namespace Command

section

variable [Platform]

/-- The failures of a run, by what the started program does and the limit in milliseconds. -/
inductive FailsWith (c : Command) (limit : Option Nat) (m : Machine) : Failure → Prop where
  | notStarted {cause : IoError} (h : c.start m = .error cause) :
    FailsWith c limit m (.notStarted c.program cause)
  | tooSlow {call : Call} {a : Activity} {n : Nat} (h : c.start m = .ok (call, a))
    (hlimit : limit = some n) (hslow : n < a.milliseconds) :
    FailsWith c limit m (.tooSlow c.program (n / 1000))
  | exited {call : Call} {a : Activity} {status : UInt8} {shown : Text}
    (h : c.start m = .ok (call, a)) (hlimit : a.InTime limit)
    (hending : a.ending = .exited status) (hstatus : status ≠ 0) (hshown : Quotes a.stderr shown) :
    FailsWith c limit m (.program c.program (some status.toNat) shown)
  | killed {call : Call} {a : Activity} {signal : Nat} {shown : Text}
    (h : c.start m = .ok (call, a)) (hlimit : a.InTime limit)
    (hending : a.ending = .killed signal) (hshown : Quotes a.stderr shown) :
    FailsWith c limit m (.program c.program none shown)

variable {c : Command} {limit : Option Nat} {m : Machine} {call : Call} {a : Activity} {n : Nat}

theorem run_of_slow (h : c.start m = .ok (call, a)) (hlimit : limit = some n)
    (hslow : n < a.milliseconds) :
    (c.run limit m).1 = .error (.tooSlow c.program (n / 1000)) := by
  simp [run, h, Activity.outlasts, hlimit, hslow]

theorem run_of_ending (h : c.start m = .ok (call, a)) (hlimit : a.InTime limit)
    (hending : a.ending ≠ .exited 0) :
    (c.run limit m).1 = .error (.program c.program a.ending.code? (excerpt a.stderr)) := by
  have hsuccess : a.ending.isSuccess = false := by
    rw [← Bool.not_eq_true, isSuccess_iff]
    exact hending
  simp [run, h, outlasts_eq_false_iff.mpr hlimit, hsuccess]

theorem FailsWith.run_eq {e : Failure} (h : c.FailsWith limit m e) :
    (c.run limit m).1 = .error e := by
  cases h with
  | notStarted h => rw [run_of_missing h]
  | tooSlow h hlimit hslow => exact run_of_slow h hlimit hslow
  | exited h hlimit hending hstatus hshown =>
    rw [run_of_ending h hlimit (by simpa [hending] using hstatus), hending, quotes_iff.mp hshown]
    rfl
  | killed h hlimit hending hshown =>
    rw [run_of_ending h hlimit (by simp [hending]), hending, quotes_iff.mp hshown]
    rfl

/-- A run that starts no program, one that is stopped, or one that ends badly fails; any other
succeeds. -/
theorem succeeds_or_fails (c : Command) (limit : Option Nat) (m : Machine) :
    (∃ call a, c.start m = .ok (call, a) ∧ a.InTime limit ∧ a.ending = .exited 0) ∨
      ∃ e, c.FailsWith limit m e := by
  cases h : c.start m with
  | error cause => exact .inr ⟨_, .notStarted h⟩
  | ok started =>
    obtain ⟨call, a⟩ := started
    by_cases hlimit : a.InTime limit
    · cases hending : a.ending with
      | killed signal => exact .inr ⟨_, .killed h hlimit hending (quotes_iff.mpr rfl)⟩
      | exited status =>
        by_cases hstatus : status = 0
        · exact .inl ⟨call, a, rfl, hlimit, by rw [hending, hstatus]⟩
        · exact .inr ⟨_, .exited h hlimit hending hstatus (quotes_iff.mpr rfl)⟩
    · obtain ⟨n, hn⟩ := Classical.not_forall.mp hlimit
      obtain ⟨hn, hslow⟩ := Classical.not_imp.mp hn
      exact .inr ⟨_, .tooSlow h hn (Nat.lt_of_not_le hslow)⟩

end

/-- A run succeeds exactly when its program starts, ends in time and exits with status zero. Any
other run ends in the failure that names its cause, and in no other. -/
theorem run_classified [Platform] (c : Command) (limit : Option Nat) (m : Machine) :
    ((c.run limit m).1 = .ok () ↔ ∃ call a, c.start m = .ok (call, a) ∧ a.InTime limit ∧
      a.ending = .exited 0) ∧
    ∀ e, (c.run limit m).1 = .error e ↔ c.FailsWith limit m e := by
  have hok : (∃ call a, c.start m = .ok (call, a) ∧ a.InTime limit ∧ a.ending = .exited 0) →
      (c.run limit m).1 = .ok () := by
    rintro ⟨call, a, h, hlimit, hending⟩
    rw [run_of_success h (outlasts_eq_false_iff.mpr hlimit) (isSuccess_iff.mpr hending)]
  rcases succeeds_or_fails c limit m with hgood | ⟨e, hbad⟩
  · have hrun := hok hgood
    refine ⟨⟨fun _ => hgood, hok⟩, fun e => ⟨fun h => ?_, FailsWith.run_eq⟩⟩
    rw [hrun] at h
    cases h
  · have hrun := hbad.run_eq
    refine ⟨⟨fun h => ?_, hok⟩, fun e' => ⟨fun h => ?_, FailsWith.run_eq⟩⟩
    · rw [hrun] at h
      cases h
    · rw [hrun] at h
      cases h
      exact hbad

end Command

end DumpConversion
