import DumpConversion.Proofs.Settings.Layering

/-! # Settings that differ in the password only

Two passwords are interchangeable if both are empty or neither is. Layers that agree up to
interchangeable passwords load to settings that do, or fail alike.

* `Interchangeable`: the relation on passwords.
* `Environment.UpToPassword`, `Overrides.UpToPassword`, `Settings.UpToPassword`: the relation on
  layers and on settings.
* `Agree`: two results that are both values or both faults, each pair of them related.
* `Settings.load_upToPassword`: what the layers load to.
* `Settings.UpToPassword.masked`: such settings look the same.
-/

namespace DumpConversion

set_option autoImplicit false

/-! ## Related results -/

/-- Two values that are related, or two faults that are related. -/
inductive Agree {ε ε' α β : Type} (faults : ε → ε' → Prop) (values : α → β → Prop) :
    Except ε α → Except ε' β → Prop where
  | ok {a : α} {b : β} (h : values a b) : Agree faults values (.ok a) (.ok b)
  | error {e : ε} {f : ε'} (h : faults e f) : Agree faults values (.error e) (.error f)

namespace Agree

variable {ε ε' α β γ δ : Type} {faults : ε → ε' → Prop} {values : α → β → Prop}
  {results : γ → δ → Prop}

theorem refl {faults : ε → ε → Prop} (hfaults : ∀ e, faults e e) {values : α → α → Prop}
    (hvalues : ∀ a, values a a) (x : Except ε α) : Agree faults values x x := by
  cases x with
  | error e => exact .error (hfaults e)
  | ok a => exact .ok (hvalues a)

theorem bind_of_eq {x : Except ε α} {y : Except ε' β} {f : α → Except ε γ} {g : β → Except ε' δ}
    (h : Agree faults values x y)
    (hf : ∀ a b, x = .ok a → values a b → Agree faults results (f a) (g b)) :
    Agree faults results (x >>= f) (y >>= g) := by
  cases h with
  | ok hv => exact hf _ _ rfl hv
  | error he => exact .error he

theorem bind {x : Except ε α} {y : Except ε' β} {f : α → Except ε γ} {g : β → Except ε' δ}
    (h : Agree faults values x y) (hf : ∀ a b, values a b → Agree faults results (f a) (g b)) :
    Agree faults results (x >>= f) (y >>= g) :=
  h.bind_of_eq fun a b _ => hf a b

/-- Goes on alike after the same result. -/
theorem bind_self {faults : ε → ε → Prop} (hfaults : ∀ e, faults e e) (x : Except ε α)
    {f : α → Except ε γ} {g : α → Except ε δ} (h : ∀ a, Agree faults results (f a) (g a)) :
    Agree faults results (x >>= f) (x >>= g) :=
  (Agree.refl hfaults (fun _ => rfl) x).bind fun a _ hab => hab ▸ h a

theorem mono {faults' : ε → ε' → Prop} {x : Except ε α} {y : Except ε' β}
    (h : Agree faults values x y) (hfaults : ∀ e f, faults e f → faults' e f) :
    Agree faults' values x y := by
  cases h with
  | ok hv => exact .ok hv
  | error he => exact .error (hfaults _ _ he)

theorem map {x : Except ε α} {y : Except ε' β} {f : α → γ} {g : β → δ}
    (h : Agree faults values x y) (hf : ∀ a b, values a b → results (f a) (g b)) :
    Agree faults results (x.map f) (y.map g) := by
  cases h with
  | ok hv => exact .ok (hf _ _ hv)
  | error he => exact .error he

end Agree

/-! ## The relation -/

/-- Both passwords are empty or neither is. -/
def Interchangeable (p q : Text) : Prop := p = [] ↔ q = []

instance (p q : Text) : Decidable (Interchangeable p q) :=
  inferInstanceAs (Decidable (p = [] ↔ q = []))

theorem Interchangeable.refl (p : Text) : Interchangeable p p := Iff.rfl

/-- Two environments that differ at most in the password for the source database. -/
structure Environment.UpToPassword (e f : Environment) : Prop where
  others : ∀ name, name ≠ variableStart.toList ++ "PASSWORD".toList → e.value? name = f.value? name
  password : Option.Rel Interchangeable (Layer.variableValue e "PASSWORD")
    (Layer.variableValue f "PASSWORD")

/-- The overrides with another password. -/
def Overrides.withPassword (o : Overrides) (p : Option Text) : Overrides := { o with password := p }

/-- Two sets of overrides that differ at most in the password. -/
def Overrides.UpToPassword (o o' : Overrides) : Prop :=
  ∃ p, Option.Rel Interchangeable o.password p ∧ o' = o.withPassword p

/-- The settings with another password. -/
def Settings.withPassword (s : Settings) (p : Text) : Settings :=
  { s with connection := { s.connection with password := p } }

/-- Two settings that differ at most in the password. -/
def Settings.UpToPassword (s s' : Settings) : Prop :=
  ∃ p, Interchangeable s.connection.password p ∧ s' = s.withPassword p

theorem interchangeable_option_refl (p : Option Text) : Option.Rel Interchangeable p p := by
  cases p with
  | none => exact .none
  | some p => exact .some (.refl p)

theorem Settings.UpToPassword.refl (s : Settings) : s.UpToPassword s :=
  ⟨s.connection.password, .refl _, rfl⟩

theorem Overrides.UpToPassword.refl (o : Overrides) : o.UpToPassword o :=
  ⟨o.password, interchangeable_option_refl _, rfl⟩

/-! ## Loading -/

namespace Settings

/-- The values of a variable in two environments. -/
theorem value_upToPassword {e f : Environment} (h : e.UpToPassword f) (v : Variable) :
    e.value? v.fullName = f.value? v.fullName ∨
      v.name = "PASSWORD" ∧
        Option.Rel Interchangeable (e.value? v.fullName) (f.value? v.fullName) := by
  by_cases hname : v.name = "PASSWORD"
  · have hpassword := h.password
    rw [Layer.variableValue, Layer.variableValue, ← hname] at hpassword
    exact .inr ⟨hname, hpassword⟩
  · refine .inl (h.others v.fullName fun heq => hname ?_)
    exact String.toList_inj.mp (List.append_cancel_left heq)

/-- Storing a value takes related settings to related settings. -/
theorem store_upToPassword {v : Variable} (hv : v ∈ Variable.all) {a b : Text}
    (hab : a = b ∨ v.name = "PASSWORD" ∧ Interchangeable a b) {s s' : Settings}
    (hs : s.UpToPassword s') : Agree Eq UpToPassword (v.store a s) (v.store b s') := by
  obtain ⟨p, hp, rfl⟩ := hs
  by_cases hname : v.name = "PASSWORD"
  · have hstore : v = .direct "PASSWORD" fun v s => s.withPassword v := by
      simp only [Variable.all, List.mem_cons, List.not_mem_nil, or_false] at hv
      rcases hv with rfl | rfl | rfl | rfl | rfl | rfl | rfl | rfl
      case inr.inr.inr.inl => rfl
      all_goals simp [Variable.direct] at hname
    have hpair : Interchangeable a b := hab.elim (fun h => h ▸ .refl a) (·.2)
    rw [hstore]
    exact .ok ⟨b, hpair, rfl⟩
  · obtain rfl : a = b := hab.resolve_right fun h => hname h.1
    simp only [Variable.all, List.mem_cons, List.not_mem_nil, or_false] at hv
    rcases hv with rfl | rfl | rfl | rfl | rfl | rfl | rfl | rfl
    case inr.inl =>
      simp only [Variable.storePort]
      cases Text.readUnsigned Text.greatestPort (Text.trim a) with
      | error cause => exact .error rfl
      | ok n => exact .ok ⟨p, hp, rfl⟩
    case inr.inr.inr.inl => exact absurd rfl hname
    case inr.inr.inr.inr.inr.inr.inr =>
      simp only [Variable.storeEncoding]
      cases Charset.parse a with
      | error cause => exact .error rfl
      | ok e => exact .ok ⟨p, hp, rfl⟩
    all_goals exact .ok ⟨p, hp, rfl⟩

theorem afterVariable_upToPassword {e f : Environment} (h : e.UpToPassword f) {v : Variable}
    (hv : v ∈ Variable.all) {s s' : Settings} (hs : s.UpToPassword s') :
    Agree Eq UpToPassword (s.afterVariable e v) (s'.afterVariable f v) := by
  unfold afterVariable
  rcases value_upToPassword h v with heq | ⟨hname, hrel⟩
  · rw [heq]
    cases f.value? v.fullName with
    | none => exact .ok hs
    | some value => exact store_upToPassword hv (.inl rfl) hs
  · generalize e.value? v.fullName = a, f.value? v.fullName = b at hrel
    cases hrel with
    | none => exact .ok hs
    | some hpair => exact store_upToPassword hv (.inr ⟨hname, hpair⟩) hs

/-- Related environments take related settings to related settings, or stop at the same fault. -/
theorem applyVariables_upToPassword {e f : Environment} (h : e.UpToPassword f) {vs : List Variable}
    (hvs : ∀ v ∈ vs, v ∈ Variable.all) {s s' : Settings} (hs : s.UpToPassword s') :
    (s.applyVariables e vs).1.UpToPassword (s'.applyVariables f vs).1 ∧
      (s.applyVariables e vs).2 = (s'.applyVariables f vs).2 := by
  induction vs generalizing s s' with
  | nil => exact ⟨hs, rfl⟩
  | cons v rest ih =>
    have hnext := afterVariable_upToPassword h (hvs v List.mem_cons_self) hs
    rw [applyVariables_cons, applyVariables_cons]
    generalize s.afterVariable e v = x, s'.afterVariable f v = y at hnext
    cases hnext with
    | ok hpair => exact ih (fun w hw => hvs w (List.mem_cons_of_mem v hw)) hpair
    | error hfault => exact ⟨hs, congrArg some hfault⟩

theorem overriddenBy_upToPassword {o o' : Overrides} (ho : o.UpToPassword o') {s s' : Settings}
    (hs : s.UpToPassword s') : (s.overriddenBy o).UpToPassword (s'.overriddenBy o') := by
  obtain ⟨p, hp, rfl⟩ := ho
  obtain ⟨q, hq, rfl⟩ := hs
  refine ⟨p.getD q, ?_, rfl⟩
  change Interchangeable (o.password.getD s.connection.password) (p.getD q)
  generalize o.password = given at hp
  cases hp with
  | none => exact hq
  | some hpair => exact hpair

/-- Related layers load to related settings, or are refused for the same reason. -/
theorem load_upToPassword (reads : Text → Except DocumentFault Layer) (disk : Disk)
    (named : Option Path) {e f : Environment} (h : e.UpToPassword f) {o o' : Overrides}
    (ho : o.UpToPassword o') :
    Agree Eq UpToPassword (load reads disk named e o) (load reads disk named f o') := by
  unfold load
  cases ofChosenFile reads disk named with
  | error cause => exact .error rfl
  | ok s =>
    obtain ⟨hs, hfault⟩ := applyVariables_upToPassword h (fun v hv => hv) (.refl s)
    simp only [applyEnvironment]
    generalize s.applyVariables e Variable.all = x, s.applyVariables f Variable.all = y at hs hfault
    obtain ⟨s₁, fault₁⟩ := x
    obtain ⟨s₂, fault₂⟩ := y
    obtain rfl : fault₁ = fault₂ := hfault
    cases fault₁ with
    | some fault => exact .error rfl
    | none => exact .ok (overriddenBy_upToPassword ho hs)

/-! ## Looking at settings -/

/-- Settings that differ at most in the password are shown alike. -/
theorem UpToPassword.masked {s s' : Settings} (h : s.UpToPassword s') : s.masked = s'.masked := by
  obtain ⟨p, hp, rfl⟩ := h
  by_cases hempty : s.connection.password = []
  · have hsame : s.withPassword p = s := by
      rw [hp.mp hempty, ← hempty]
      rfl
    rw [hsame]
  · have hp' : p ≠ [] := fun h => hempty (hp.mpr h)
    simp [Settings.masked, Settings.withPassword, hempty, hp']

theorem UpToPassword.checkUsable {s s' : Settings} (h : s.UpToPassword s') :
    s.checkUsable = s'.checkUsable := by
  obtain ⟨p, -, rfl⟩ := h
  rfl

end Settings

end DumpConversion
