import DumpConversion.Proofs.Settings.Fields
import DumpConversion.Settings.Layers

/-! # Every setting has the value of its highest layer

* `Layer.atop`: two layers as one.
* `Layer.ofCommandLine`, `Layer.ofEnvironment`: what these two sources give.
* `Settings.overriddenBy_eq`, `Settings.applyEnvironment_of_readable`, `Settings.ofChosenFile_layer`:
  each step of loading lays one layer over the settings it starts from.
* `Settings.load_layered`: all layers, and when there are no settings at all, whatever reads the
  documents.
* `Settings.load_ofText`: the values that come from a YAML document.
-/

namespace DumpConversion

set_option autoImplicit false

open Yaml (Node)

/-! ## Layers -/

namespace Layer

/-- The values of both layers, of the first one where both give a value. -/
def atop (upper lower : Layer) : Layer where
  host := upper.host.or lower.host
  port := upper.port.or lower.port
  user := upper.user.or lower.user
  password := upper.password.or lower.password
  database := upper.database.or lower.database
  mysqldump := upper.mysqldump.or lower.mysqldump
  sqlite3 := upper.sqlite3.or lower.sqlite3
  dumpFile := upper.dumpFile.or lower.dumpFile
  encoding := upper.encoding.or lower.encoding
  importer := upper.importer.or lower.importer
  timeoutSeconds := upper.timeoutSeconds.or lower.timeoutSeconds
  verify := upper.verify.or lower.verify
  restoreOnFailure := upper.restoreOnFailure.or lower.restoreOnFailure

theorem onto_onto (upper lower : Layer) (s : Settings) :
    upper.onto (lower.onto s) = (upper.atop lower).onto s := by
  simp [onto, atop, Option.getD_or]

/-! ## The command line -/

/-- What a flag of the command line turns off. -/
def offIf (flag : Bool) : Option Bool := if flag then some false else none

/-- The values given on the command line. -/
def ofCommandLine (o : Overrides) : Layer where
  host := o.host
  port := o.port
  user := o.user
  password := o.password
  database := o.database
  mysqldump := o.mysqldump
  sqlite3 := o.sqlite3
  dumpFile := o.dumpFile
  encoding := o.encoding
  importer := o.importer
  timeoutSeconds := o.timeoutSeconds.map some
  verify := offIf o.noVerify
  restoreOnFailure := offIf o.noRestore

theorem getD_offIf (flag b : Bool) : (offIf flag).getD b = (b && !flag) := by
  cases flag <;> simp [offIf]

/-! ## The environment -/

/-- The value of the variable that sets a part of the settings. -/
def variableValue (env : Environment) (name : String) : Option Text :=
  env.value? (variableStart.toList ++ name.toList)

/-- The port written in a text, with blanks around it. -/
def port? (value : Text) : Option UInt16 :=
  (Text.readUnsigned Text.greatestPort (Text.trim value)).toOption.map UInt16.ofNat

/-- The encoding named in a text. -/
def encoding? (value : Text) : Option Charset := (Charset.parse value).toOption

/-- The values given by variables. Dump file, importer, timeout and the two switches have none. -/
def ofEnvironment (env : Environment) : Layer where
  host := variableValue env "HOST"
  port := (variableValue env "PORT").bind port?
  user := variableValue env "USER"
  password := variableValue env "PASSWORD"
  database := variableValue env "DATABASE"
  mysqldump := (variableValue env "MYSQLDUMP").map Path.mk
  sqlite3 := (variableValue env "SQLITE3").map Path.mk
  dumpFile := none
  encoding := (variableValue env "ENCODING").bind encoding?
  importer := none
  timeoutSeconds := none
  verify := none
  restoreOnFailure := none

/-- A variable is set to a text that cannot be read. -/
def Unreadable {α : Type} (env : Environment) (name : String) (read : Text → Option α) : Prop :=
  ∃ value, variableValue env name = some value ∧ read value = none

end Layer

open Layer (variableValue Unreadable)

namespace Settings

/-! ## One layer at a time -/

theorem overriddenBy_eq (o : Overrides) (s : Settings) :
    s.overriddenBy o = (Layer.ofCommandLine o).onto s := by
  have htimeout : o.timeoutSeconds.or s.timeoutSeconds =
      (o.timeoutSeconds.map some).getD s.timeoutSeconds := by
    cases o.timeoutSeconds <;> rfl
  simp [overriddenBy, Layer.onto, Layer.ofCommandLine, Layer.getD_offIf, htimeout]

/-- The settings after one variable. -/
def afterVariable (env : Environment) (v : Variable) (s : Settings) :
    Except SettingsFault Settings :=
  (env.value? v.fullName).elim (.ok s) fun value => v.store value s

theorem applyVariables_cons (env : Environment) (v : Variable) (rest : List Variable)
    (s : Settings) : s.applyVariables env (v :: rest) =
      match s.afterVariable env v with
      | .ok next => next.applyVariables env rest
      | .error fault => (s, some fault) := by
  cases hvalue : env.value? v.fullName with
  | none => simp [applyVariables, afterVariable, hvalue]
  | some value =>
    cases hstore : v.store value s with
    | ok next => simp [applyVariables, afterVariable, hvalue, hstore]
    | error fault => simp [applyVariables, afterVariable, hvalue, hstore]

/-- A variable that is not set, or that can be read, stores its value or what was there before. -/
theorem applyVariables_of_store {α : Type} {env : Environment} {v : Variable}
    {rest : List Variable} {s : Settings} (read : Text → Option α) (get : Settings → α)
    (put : α → Settings → Settings) (hput : put (get s) s = s)
    (hstore : ∀ value, env.value? v.fullName = some value →
      ∃ a, read value = some a ∧ v.store value s = .ok (put a s)) :
    s.applyVariables env (v :: rest) =
      (put (((env.value? v.fullName).bind read).getD (get s)) s).applyVariables env rest := by
  have hafter : s.afterVariable env v =
      .ok (put (((env.value? v.fullName).bind read).getD (get s)) s) := by
    cases hvalue : env.value? v.fullName with
    | none => simp [afterVariable, hvalue, hput]
    | some value =>
      obtain ⟨a, hread, hok⟩ := hstore value hvalue
      simp [afterVariable, hvalue, hread, hok]
  rw [applyVariables_cons, hafter]

theorem applyVariables_direct {env : Environment} {name : String}
    {store : Text → Settings → Settings} {rest : List Variable} {s : Settings}
    (get : Settings → Text) (hput : store (get s) s = s) :
    s.applyVariables env (.direct name store :: rest) =
      (store ((variableValue env name).getD (get s)) s).applyVariables env rest := by
  rw [applyVariables_of_store some get store hput fun value _ => ⟨value, rfl, rfl⟩]
  simp [variableValue, Variable.direct, Variable.fullName]

/-- A variable that no settings take stops the reading of the environment. -/
theorem applyVariables_of_refused {env : Environment} {vs : List Variable} {v : Variable}
    {value : Text} (hv : v ∈ vs) (hvalue : env.value? v.fullName = some value)
    (hrefused : ∀ s, ∃ fault, v.store value s = .error fault) (s : Settings) :
    ∃ s' fault, s.applyVariables env vs = (s', some fault) := by
  induction vs generalizing s with
  | nil => cases hv
  | cons w rest ih =>
    rw [applyVariables_cons]
    cases hw : s.afterVariable env w with
    | error fault => exact ⟨s, fault, rfl⟩
    | ok next =>
      rcases List.mem_cons.mp hv with rfl | hrest
      · obtain ⟨fault, hfault⟩ := hrefused s
        simp [afterVariable, hvalue, hfault] at hw
      · exact ih hrest next

theorem storePort_of_readable {value : Text} {n : UInt16} (h : Layer.port? value = some n)
    (s : Settings) : Variable.storePort value s =
      .ok { s with connection := { s.connection with port := n } } := by
  cases hread : Text.readUnsigned Text.greatestPort (Text.trim value) with
  | error e => simp [Layer.port?, hread, Except.toOption] at h
  | ok m =>
    obtain rfl : UInt16.ofNat m = n := by simpa [Layer.port?, hread, Except.toOption] using h
    simp [Variable.storePort, hread]

theorem storePort_of_unreadable {value : Text} (h : Layer.port? value = none) (s : Settings) :
    ∃ fault, Variable.storePort value s = .error fault := by
  cases hread : Text.readUnsigned Text.greatestPort (Text.trim value) with
  | error e => exact ⟨.badPort value e, by simp [Variable.storePort, hread]⟩
  | ok m => simp [Layer.port?, hread, Except.toOption] at h

theorem storeEncoding_of_readable {value : Text} {e : Charset}
    (h : Layer.encoding? value = some e) (s : Settings) :
    Variable.storeEncoding value s = .ok { s with encoding := e } := by
  cases hread : Charset.parse value with
  | error u => simp [Layer.encoding?, hread, Except.toOption] at h
  | ok other =>
    obtain rfl : other = e := by simpa [Layer.encoding?, hread, Except.toOption] using h
    simp [Variable.storeEncoding, hread]

theorem storeEncoding_of_unreadable {value : Text} (h : Layer.encoding? value = none)
    (s : Settings) : ∃ fault, Variable.storeEncoding value s = .error fault := by
  cases hread : Charset.parse value with
  | error u => exact ⟨.badEncoding value u, by simp [Variable.storeEncoding, hread]⟩
  | ok e => simp [Layer.encoding?, hread, Except.toOption] at h

theorem applyVariables_port {env : Environment} {rest : List Variable} {s : Settings}
    (h : ¬Unreadable env "PORT" Layer.port?) :
    s.applyVariables env (⟨"PORT", Variable.storePort⟩ :: rest) =
      applyVariables env rest { s with connection := { s.connection with
        port := ((variableValue env "PORT").bind Layer.port?).getD s.connection.port } } := by
  refine applyVariables_of_store Layer.port? (fun s => s.connection.port)
    (fun n s => { s with connection := { s.connection with port := n } }) rfl ?_
  intro value hvalue
  cases hread : Layer.port? value with
  | none => exact absurd ⟨value, hvalue, hread⟩ h
  | some n => exact ⟨n, rfl, storePort_of_readable hread s⟩

theorem applyVariables_encoding {env : Environment} {rest : List Variable} {s : Settings}
    (h : ¬Unreadable env "ENCODING" Layer.encoding?) :
    s.applyVariables env (⟨"ENCODING", Variable.storeEncoding⟩ :: rest) =
      applyVariables env rest { s with
        encoding := ((variableValue env "ENCODING").bind Layer.encoding?).getD s.encoding } := by
  refine applyVariables_of_store Layer.encoding? (fun s => s.encoding)
    (fun e s => { s with encoding := e }) rfl ?_
  intro value hvalue
  cases hread : Layer.encoding? value with
  | none => exact absurd ⟨value, hvalue, hread⟩ h
  | some e => exact ⟨e, rfl, storeEncoding_of_readable hread s⟩

/-- An environment without unreadable values is one layer. -/
theorem applyEnvironment_of_readable {env : Environment}
    (hport : ¬Unreadable env "PORT" Layer.port?)
    (hencoding : ¬Unreadable env "ENCODING" Layer.encoding?) (s : Settings) :
    s.applyEnvironment env = ((Layer.ofEnvironment env).onto s, none) := by
  rw [applyEnvironment, Variable.all,
    applyVariables_direct (fun s => s.connection.host) rfl, applyVariables_port hport,
    applyVariables_direct (fun s => s.connection.user) rfl,
    applyVariables_direct (fun s => s.connection.password) rfl,
    applyVariables_direct (fun s => s.connection.database) rfl,
    applyVariables_direct (fun s => s.tools.mysqldump.text) rfl,
    applyVariables_direct (fun s => s.tools.sqlite3.text) rfl,
    applyVariables_encoding hencoding, applyVariables_nil]
  have hpath (v : Option Text) (p : Path) : (v.map Path.mk).getD p = ⟨v.getD p.text⟩ := by
    cases v <;> rfl
  simp [Layer.onto, Layer.ofEnvironment, hpath]

/-- One unreadable value is enough to refuse an environment. -/
theorem applyEnvironment_of_unreadable {env : Environment}
    (h : Unreadable env "PORT" Layer.port? ∨ Unreadable env "ENCODING" Layer.encoding?)
    (s : Settings) : ∃ s' fault, s.applyEnvironment env = (s', some fault) := by
  obtain ⟨value, hvalue, hread⟩ | ⟨value, hvalue, hread⟩ := h
  · exact applyVariables_of_refused (v := ⟨"PORT", Variable.storePort⟩) (by simp [Variable.all])
      hvalue (storePort_of_unreadable hread) s
  · exact applyVariables_of_refused (v := ⟨"ENCODING", Variable.storeEncoding⟩)
      (by simp [Variable.all]) hvalue (storeEncoding_of_unreadable hread) s

/-! ## The chosen document -/

/-- The file whose document is read: the one named, or else the usual one if that is a file. -/
def chosenFile (disk : Disk) (named : Option Path) : Option Path :=
  named.or (if disk.isFile usualFile then some usualFile else none)

section Load

variable {reads : Text → Except DocumentFault Layer} {disk : Disk} {named : Option Path}
  {env : Environment} {o : Overrides}

/-- The layer of the document in the chosen file; without a file it gives nothing. -/
def IsFileLayer (reads : Text → Except DocumentFault Layer) (disk : Disk) (named : Option Path)
    (l : Layer) : Prop :=
  match chosenFile disk named with
  | none => l = Layer.empty
  | some p => ∃ s, disk.readText p = .ok s ∧ reads s = .ok l

/-- The chosen file cannot be read as a text, or is refused as a settings document. -/
def Refused (reads : Text → Except DocumentFault Layer) (disk : Disk) (named : Option Path) : Prop :=
  ∃ p, chosenFile disk named = some p ∧
    ((∃ e, disk.readText p = .error e) ∨ ∃ s e, disk.readText p = .ok s ∧ reads s = .error e)

theorem ofChosenFile_eq : ofChosenFile reads disk named =
    (chosenFile disk named).elim (.ok Settings.default) (ofFile reads disk) := by
  cases named with
  | some p => simp [ofChosenFile, chosenFile]
  | none =>
    by_cases h : disk.isFile usualFile
    · simp [ofChosenFile, chosenFile, h]
    · simp [ofChosenFile, chosenFile, h]

theorem ofChosenFile_layer {s : Settings} (h : ofChosenFile reads disk named = .ok s) :
    ∃ l, IsFileLayer reads disk named l ∧ s = l.onto Settings.default := by
  rw [ofChosenFile_eq] at h
  cases hp : chosenFile disk named with
  | none =>
    obtain rfl : Settings.default = s := by simpa [hp] using h
    exact ⟨Layer.empty, by simp [IsFileLayer, hp], (Layer.empty_onto _).symm⟩
  | some p =>
    simp only [hp, Option.elim, ofFile] at h
    cases htext : disk.readText p with
    | error e => simp [htext] at h
    | ok text =>
      cases hread : reads text with
      | error e => simp [htext, hread] at h
      | ok l =>
        obtain rfl : l.onto Settings.default = s := by simpa [htext, hread] using h
        exact ⟨l, by simpa [IsFileLayer, hp] using ⟨text, htext, hread⟩, rfl⟩

theorem ofChosenFile_error_iff :
    (∃ e, ofChosenFile reads disk named = .error e) ↔ Refused reads disk named := by
  rw [ofChosenFile_eq, Refused]
  cases hp : chosenFile disk named with
  | none => simp
  | some p =>
    simp only [Option.elim, ofFile, Option.some.injEq, exists_eq_left']
    cases htext : disk.readText p with
    | error e => simp
    | ok text =>
      cases hread : reads text with
      | error e => simp [hread]
      | ok l => simp [hread]

/-! ## All layers -/

theorem load_of_refused (h : Refused reads disk named) :
    ∃ e, load reads disk named env o = .error e := by
  obtain ⟨e, he⟩ := ofChosenFile_error_iff.mpr h
  exact ⟨e, by simp [load, he]⟩

/-- What the command line gives does not matter for this. -/
theorem load_of_unreadable
    (h : Unreadable env "PORT" Layer.port? ∨ Unreadable env "ENCODING" Layer.encoding?) :
    ∃ e, load reads disk named env o = .error e := by
  cases hfile : ofChosenFile reads disk named with
  | error e => exact ⟨e, by simp [load, hfile]⟩
  | ok s =>
    obtain ⟨s', fault, hs⟩ := applyEnvironment_of_unreadable h s
    exact ⟨.settings fault, by simp [load, hfile, hs]⟩

theorem load_of_readable (hfile : ¬Refused reads disk named)
    (hport : ¬Unreadable env "PORT" Layer.port?)
    (hencoding : ¬Unreadable env "ENCODING" Layer.encoding?) :
    ∃ l, IsFileLayer reads disk named l ∧
      load reads disk named env o =
        .ok (((Layer.ofCommandLine o).atop ((Layer.ofEnvironment env).atop l)).onto
          Settings.default) := by
  cases hbase : ofChosenFile reads disk named with
  | error e => exact absurd (ofChosenFile_error_iff.mp ⟨e, hbase⟩) hfile
  | ok base =>
    obtain ⟨l, hl, rfl⟩ := ofChosenFile_layer hbase
    refine ⟨l, hl, ?_⟩
    simp only [load, hbase, applyEnvironment_of_readable hport hencoding, overriddenBy_eq,
      Layer.onto_onto]

theorem load_error_iff : (∃ e, load reads disk named env o = .error e) ↔
    Refused reads disk named ∨ Unreadable env "PORT" Layer.port? ∨
      Unreadable env "ENCODING" Layer.encoding? := by
  refine ⟨fun ⟨e, he⟩ => Classical.byContradiction fun hcause => ?_,
    fun h => h.elim load_of_refused load_of_unreadable⟩
  obtain ⟨hfile, hvariables⟩ := not_or.mp hcause
  obtain ⟨hport, hencoding⟩ := not_or.mp hvariables
  obtain ⟨l, -, hload⟩ := load_of_readable (o := o) hfile hport hencoding
  cases hload.symm.trans he

theorem layers_of_load {s : Settings} (h : load reads disk named env o = .ok s) :
    ∃ l, IsFileLayer reads disk named l ∧
      s = ((Layer.ofCommandLine o).atop ((Layer.ofEnvironment env).atop l)).onto
        Settings.default := by
  have hnofault : ¬∃ e, load reads disk named env o = .error e := by
    rintro ⟨e, he⟩
    cases h.symm.trans he
  obtain ⟨hfile, hvariables⟩ := not_or.mp (mt load_error_iff.mpr hnofault)
  obtain ⟨hport, hencoding⟩ := not_or.mp hvariables
  obtain ⟨l, hl, hload⟩ := load_of_readable (o := o) hfile hport hencoding
  exact ⟨l, hl, Except.ok.inj (h.symm.trans hload)⟩

end Load

/-- Loading succeeds unless the chosen file is refused or one of two variables cannot be read,
whether or not the command line replaces its value. Every setting then has the value of the highest
layer that gives one: the command line, the environment, the document, the defaults. -/
theorem load_layered (reads : Text → Except DocumentFault Layer) (disk : Disk)
    (named : Option Path) (env : Environment) (o : Overrides) :
    (∀ s, load reads disk named env o = .ok s →
      ∃ l, IsFileLayer reads disk named l ∧
        s = ((Layer.ofCommandLine o).atop ((Layer.ofEnvironment env).atop l)).onto
          Settings.default) ∧
    ((∃ e, load reads disk named env o = .error e) ↔
      Refused reads disk named ∨ Unreadable env "PORT" Layer.port? ∨
        Unreadable env "ENCODING" Layer.encoding?) :=
  ⟨fun _ h => layers_of_load h, load_error_iff⟩

/-! ## YAML documents -/

/-- The document that is read; there is none without a file, or in an empty one. -/
def IsDocument (disk : Disk) (named : Option Path) (doc : Option Node) : Prop :=
  match chosenFile disk named with
  | none => doc = none
  | some p => ∃ s, disk.readText p = .ok s ∧ Node.parse s = .ok doc

/-- A setting that the document gives has what is read of the value under its name. -/
theorem load_ofText {disk : Disk} {named : Option Path} {env : Environment} {o : Overrides}
    {s : Settings} (h : load Layer.ofText disk named env o = .ok s) :
    ∃ doc l, IsDocument disk named doc ∧ Layer.ReadFrom doc l ∧
      s = ((Layer.ofCommandLine o).atop ((Layer.ofEnvironment env).atop l)).onto
        Settings.default := by
  obtain ⟨l, hl, hs⟩ := layers_of_load h
  cases hp : chosenFile disk named with
  | none =>
    obtain rfl : l = Layer.empty := by simpa [IsFileLayer, hp] using hl
    exact ⟨none, _, by simp [IsDocument, hp], Layer.readFrom_none, hs⟩
  | some p =>
    obtain ⟨text, htext, hread⟩ : ∃ text, disk.readText p = .ok text ∧ Layer.ofText text = .ok l := by
      simpa [IsFileLayer, hp] using hl
    obtain ⟨doc, hdoc, hfrom⟩ := Layer.ofText_readFrom hread
    exact ⟨doc, l, by simpa [IsDocument, hp] using ⟨text, htext, hdoc⟩, hfrom, hs⟩

end Settings

end DumpConversion
