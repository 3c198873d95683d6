import DumpConversion.Proofs.Settings.Layering
import DumpConversion.Proofs.Text.Numerals

/-! # The port given by the environment

A port is taken exactly when its trimmed text is a decimal numeral of a port. Otherwise the port stays
as it was, and the message says which of three reasons it is.

* `Variable.LeavesPort`: the variables that are read besides the port.
* `Settings.TakesPort`: the environment is not refused for its port.
* `Settings.RefusesPort`, `Text.RefusedAsPort`: the refusal and its reason.
* `Settings.applyEnvironment_port`: both cases for every text.
-/

namespace DumpConversion

set_option autoImplicit false

open Layer (variableValue Unreadable)

/-! ## The other variables -/

/-- The variable does not set the port, and is refused for no other reason than an encoding. -/
structure Variable.LeavesPort (v : Variable) : Prop where
  stored : ∀ {value s next}, v.store value s = .ok next → next.connection.port = s.connection.port
  refused : ∀ {value s fault}, v.store value s = .error fault →
    ∃ cause, fault = .badEncoding value cause

theorem Variable.leavesPort_direct {name : String} {store : Text → Settings → Settings}
    (h : ∀ value s, (store value s).connection.port = s.connection.port) :
    (Variable.direct name store).LeavesPort where
  stored hstore := by
    obtain rfl := Except.ok.inj hstore
    exact h _ _
  refused hstore := by cases hstore

theorem Variable.leavesPort_encoding :
    Variable.LeavesPort ⟨"ENCODING", Variable.storeEncoding⟩ where
  stored {value s next} hstore := by
    simp only [Variable.storeEncoding] at hstore
    split at hstore
    · obtain rfl := Except.ok.inj hstore
      rfl
    · cases hstore
  refused {value s fault} hstore := by
    simp only [Variable.storeEncoding] at hstore
    split at hstore
    · cases hstore
    · exact ⟨_, (Except.error.inj hstore).symm⟩

theorem Variable.leavesPort_drop : ∀ w ∈ Variable.all.drop 2, w.LeavesPort := by
  simp only [Variable.all, List.drop_succ_cons, List.drop_zero, List.forall_mem_cons]
  refine ⟨?_, ?_, ?_, ?_, ?_, Variable.leavesPort_encoding, by simp⟩ <;>
    exact Variable.leavesPort_direct fun _ _ => rfl

/-! ## Reasons -/

/-- Why a text is no port. The digits are read before the character that follows them, so a number
that is too large is not looked at to its end. -/
structure Text.RefusedAsPort (s : Text) (reason : String) : Prop where
  empty : reason = "cannot parse integer from empty string" ↔ s = []
  tooLarge : reason = "number too large to fit in target type" ↔
    65535 < Text.numeralValue (Text.leadingDigits s)
  invalid : reason = "invalid digit found in string" ↔
    s ≠ [] ∧ Text.numeralValue (Text.leadingDigits s) ≤ 65535

theorem Text.refusedAsPort_of_error {s : Text} {cause : NumeralFault}
    (h : Text.readUnsigned Text.greatestPort s = .error cause) :
    Text.RefusedAsPort s cause.message := by
  have hempty : Text.readUnsigned Text.greatestPort s = .error .empty ↔ s = [] :=
    Text.readUnsigned_eq_empty_iff
  have hlarge : Text.readUnsigned Text.greatestPort s = .error .tooLarge ↔
      65535 < Text.numeralValue (Text.leadingDigits s) := Text.readUnsigned_eq_tooLarge_iff
  rw [h, Except.error.injEq] at hempty hlarge
  refine ⟨?_, ?_, ?_⟩
  · rw [← hempty]
    cases cause <;> decide
  · rw [← hlarge]
    cases cause <;> decide
  · rw [ne_eq, ← hempty, ← Nat.not_lt, ← hlarge]
    cases cause <;> decide

namespace Settings

variable {env : Environment} {vs : List Variable} {w : Variable} {v : Text} {n : Nat}

theorem afterVariable_leavesPort (hw : w.LeavesPort) (s : Settings) :
    (∀ next, s.afterVariable env w = .ok next → next.connection.port = s.connection.port) ∧
    ∀ fault, s.afterVariable env w = .error fault → ∃ v cause, fault = .badEncoding v cause := by
  cases hvalue : env.value? w.fullName with
  | none => simp [afterVariable, hvalue]
  | some value =>
    simp only [afterVariable, hvalue, Option.elim_some]
    exact ⟨fun _ h => hw.stored h, fun _ h => ⟨value, hw.refused h⟩⟩

theorem applyVariables_leavesPort (hvs : ∀ w ∈ vs, w.LeavesPort) (s : Settings) :
    (s.applyVariables env vs).1.connection.port = s.connection.port ∧
    ∀ fault, (s.applyVariables env vs).2 = some fault → ∃ v cause, fault = .badEncoding v cause := by
  induction vs generalizing s with
  | nil => exact ⟨rfl, fun fault h => by cases h⟩
  | cons w rest ih =>
    obtain ⟨hw, hrest⟩ := List.forall_mem_cons.mp hvs
    obtain ⟨hport, hfault⟩ := afterVariable_leavesPort hw s
    rw [applyVariables_cons]
    cases hstep : s.afterVariable env w with
    | error fault =>
      refine ⟨rfl, ?_⟩
      rintro _ ⟨⟩
      exact hfault fault hstep
    | ok next =>
      rw [← hport next hstep]
      exact ih hrest next

/-! ## The variable of the port -/

/-- The settings when the variable of the port is read. -/
def afterHost (env : Environment) (s : Settings) : Settings :=
  { s with connection := { s.connection with
    host := (variableValue env "HOST").getD s.connection.host } }

theorem applyEnvironment_eq (hv : variableValue env "PORT" = some v) (s : Settings) :
    s.applyEnvironment env = match Variable.storePort v (s.afterHost env) with
      | .ok next => next.applyVariables env (Variable.all.drop 2)
      | .error fault => (s.afterHost env, some fault) := by
  have hport : (s.afterHost env).afterVariable env ⟨"PORT", Variable.storePort⟩ =
      Variable.storePort v (s.afterHost env) := by
    rw [afterVariable, Variable.fullName, ← variableValue, hv]
    rfl
  rw [applyEnvironment, Variable.all, applyVariables_direct (fun s => s.connection.host) rfl,
    applyVariables_cons, ← afterHost, hport]
  rfl

/-- The environment is not refused for its port. -/
def TakesPort (s : Settings) (env : Environment) : Prop :=
  ∀ v cause, (s.applyEnvironment env).2 ≠ some (.badPort v cause)

/-- The port stays as it was, and the message quotes the value and gives the reason. -/
structure RefusesPort (s : Settings) (env : Environment) (v : Text) : Prop where
  port : (s.applyEnvironment env).1.connection.port = s.connection.port
  fault : ∃ fault reason, (s.applyEnvironment env).2 = some fault ∧
    fault.message = "MYSQL2SQLITE_PORT=" ++ String.ofList v ++ ": " ++ reason ∧
    Text.RefusedAsPort (Text.trim v) reason

theorem applyEnvironment_of_port (hv : variableValue env "PORT" = some v)
    (hread : Text.readUnsigned Text.greatestPort (Text.trim v) = .ok n) (s : Settings) :
    (s.applyEnvironment env).1.connection.port = UInt16.ofNat n ∧ s.TakesPort env := by
  rw [TakesPort, applyEnvironment_eq hv s]
  simp only [Variable.storePort, hread]
  obtain ⟨hport, hfault⟩ := applyVariables_leavesPort Variable.leavesPort_drop
    { s.afterHost env with connection :=
      { (s.afterHost env).connection with port := UInt16.ofNat n } }
  refine ⟨hport, fun v' cause h => ?_⟩
  obtain ⟨name, unknown, hencoding⟩ := hfault _ h
  cases hencoding

theorem applyEnvironment_of_badPort {cause : NumeralFault}
    (hv : variableValue env "PORT" = some v)
    (hread : Text.readUnsigned Text.greatestPort (Text.trim v) = .error cause) (s : Settings) :
    s.applyEnvironment env = (s.afterHost env, some (.badPort v cause)) := by
  rw [applyEnvironment_eq hv s]
  simp only [Variable.storePort, hread]

theorem message_badPort (v : Text) (cause : NumeralFault) :
    (SettingsFault.badPort v cause).message =
      "MYSQL2SQLITE_PORT=" ++ String.ofList v ++ ": " ++ cause.message := by
  have hname : "MYSQL2SQLITE_" ++ "PORT" ++ "=" = "MYSQL2SQLITE_PORT=" := by decide
  unfold SettingsFault.message variableMessage variableStart
  rw [← hname]
  simp only [toString, String.append_assoc]

theorem refusesPort_of_error {cause : NumeralFault} (hv : variableValue env "PORT" = some v)
    (hread : Text.readUnsigned Text.greatestPort (Text.trim v) = .error cause) (s : Settings) :
    s.RefusesPort env v := by
  have hout := applyEnvironment_of_badPort hv hread s
  refine ⟨?_, .badPort v cause, cause.message, ?_, message_badPort v cause,
    Text.refusedAsPort_of_error hread⟩
  · rw [hout]
    rfl
  · rw [hout]

/-- The port of the environment is taken exactly when the trimmed text is a decimal numeral of a
number up to 65535. The port then is that number. If the text is no such numeral, the port stays as
it was and the refusal gives the reason. -/
theorem applyEnvironment_port (hv : variableValue env "PORT" = some v) (s : Settings) :
    (s.TakesPort env ↔ ∃ n, Text.Denotes (Text.trim v) n ∧ n ≤ 65535) ∧
    (∀ n, Text.Denotes (Text.trim v) n → n ≤ 65535 →
      (s.applyEnvironment env).1.connection.port.toNat = n ∧
      (¬Unreadable env "ENCODING" Layer.encoding? → (s.applyEnvironment env).2 = none)) ∧
    (¬s.TakesPort env → s.RefusesPort env v) := by
  have htakes : (∃ n, Text.Denotes (Text.trim v) n ∧ n ≤ 65535) → s.TakesPort env := by
    rintro ⟨n, h⟩
    exact (applyEnvironment_of_port hv (Text.readUnsigned_eq_ok_iff.mpr h) s).2
  cases hread : Text.readUnsigned Text.greatestPort (Text.trim v) with
  | ok n =>
    have hn := Text.readUnsigned_eq_ok_iff.mp hread
    obtain ⟨hport, htaken⟩ := applyEnvironment_of_port hv hread s
    refine ⟨⟨fun _ => ⟨n, hn⟩, htakes⟩, fun m hm hle => ⟨?_, fun hencoding => ?_⟩,
      fun h => absurd htaken h⟩
    · obtain rfl : n = m := Text.Denotes.unique hn.1 hm
      rw [hport, UInt16.toNat_ofNat']
      exact Nat.mod_eq_of_lt (by omega)
    · have hreadable : ¬Unreadable env "PORT" Layer.port? := by
        rintro ⟨v', hv', hport'⟩
        obtain rfl : v = v' := Option.some.inj (hv.symm.trans hv')
        simp [Layer.port?, hread, Except.toOption] at hport'
      rw [applyEnvironment_of_readable hreadable hencoding]
  | error cause =>
    have hnone : ¬∃ n, Text.Denotes (Text.trim v) n ∧ n ≤ 65535 := by
      rintro ⟨n, h⟩
      have hok := hread.symm.trans (Text.readUnsigned_eq_ok_iff.mpr h)
      cases hok
    have hout := applyEnvironment_of_badPort hv hread s
    refine ⟨⟨fun h => absurd (congrArg Prod.snd hout) (h v cause), htakes⟩,
      fun n hn hle => absurd ⟨n, hn, hle⟩ hnone, fun _ => refusesPort_of_error hv hread s⟩

theorem applyEnvironment_port_of_large_value :
    let v := " +70000x".toList
    let env : Environment := [("MYSQL2SQLITE_PORT".toList, v)]
    variableValue env "PORT" = some v ∧ ¬Settings.default.TakesPort env ∧
      Settings.default.RefusesPort env v := by
  intro v env
  have hv : variableValue env "PORT" = some v := by decide
  obtain ⟨htakes, -, hrefuses⟩ := applyEnvironment_port hv Settings.default
  have hread : Text.readUnsigned 65535 (Text.trim v) = .error .tooLarge := by decide
  have hnot : ¬Settings.default.TakesPort env := by
    rw [htakes]
    rintro ⟨n, hn⟩
    cases hread.symm.trans (Text.readUnsigned_eq_ok_iff.mpr hn)
  exact ⟨hv, hnot, hrefuses hnot⟩

end Settings

end DumpConversion
