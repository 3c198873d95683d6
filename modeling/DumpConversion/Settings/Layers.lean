import DumpConversion.Conversion.Failure

/-! # Layers of settings

Settings come from four layers: the defaults, a document, the environment and the command line. A
later layer wins over an earlier one.

* `Environment`: the variables of the environment.
* `Settings.applyEnvironment`: the variables in a fixed order, up to the first that cannot be read.
* `Overrides`, `Settings.overriddenBy`: the values given on the command line.
* `Settings.load`: all layers. The document is the one named, or else the usual one if it exists. It
  is read by whatever reads such documents; `Layer.ofText` is one way to do it.
-/

namespace DumpConversion

set_option autoImplicit false

/-! ## The environment -/

/-- The variables of the environment with their values. -/
abbrev Environment := List (Text × Text)

/-- The value of a variable. -/
def Environment.value? (env : Environment) (name : Text) : Option Text :=
  (env.find? fun v => decide (v.1 = name)).map (·.2)

/-- A variable that sets a part of the settings. -/
structure Variable where
  name : String
  store : Text → Settings → Except SettingsFault Settings

namespace Variable

/-- The full name of a variable. -/
def fullName (v : Variable) : Text := variableStart.toList ++ v.name.toList

/-- A variable whose value is stored as it is. -/
def direct (name : String) (store : Text → Settings → Settings) : Variable :=
  ⟨name, fun value s => .ok (store value s)⟩

/-- The port, read after trimming. -/
def storePort (value : Text) (s : Settings) : Except SettingsFault Settings :=
  match Text.readUnsigned Text.greatestPort (Text.trim value) with
  | .ok n => .ok { s with connection := { s.connection with port := UInt16.ofNat n } }
  | .error cause => .error (.badPort value cause)

/-- The encoding, named as a user may name it. -/
def storeEncoding (value : Text) (s : Settings) : Except SettingsFault Settings :=
  match Charset.parse value with
  | .ok e => .ok { s with encoding := e }
  | .error cause => .error (.badEncoding value cause)

/-- The variables in the order in which they are read. -/
def all : List Variable :=
  [direct "HOST" fun v s => { s with connection := { s.connection with host := v } },
    ⟨"PORT", storePort⟩,
    direct "USER" fun v s => { s with connection := { s.connection with user := v } },
    direct "PASSWORD" fun v s => { s with connection := { s.connection with password := v } },
    direct "DATABASE" fun v s => { s with connection := { s.connection with database := v } },
    direct "MYSQLDUMP" fun v s => { s with tools := { s.tools with mysqldump := ⟨v⟩ } },
    direct "SQLITE3" fun v s => { s with tools := { s.tools with sqlite3 := ⟨v⟩ } },
    ⟨"ENCODING", storeEncoding⟩]

end Variable

namespace Settings

/-- The settings after the given variables, with the fault of the first that cannot be read. What
was set before it stays set. -/
def applyVariables (env : Environment) : List Variable → Settings → Settings × Option SettingsFault
  | [], s => (s, none)
  | v :: rest, s =>
    match env.value? v.fullName with
    | none => applyVariables env rest s
    | some value =>
      match v.store value s with
      | .ok s => applyVariables env rest s
      | .error fault => (s, some fault)

/-- The settings after the environment. -/
def applyEnvironment (env : Environment) (s : Settings) : Settings × Option SettingsFault :=
  s.applyVariables env Variable.all

end Settings

/-! ## The command line -/

/-- The values given on the command line. -/
structure Overrides where
  host : Option Text
  port : Option UInt16
  user : Option Text
  password : Option Text
  database : Option Text
  dumpFile : Option Path
  mysqldump : Option Path
  sqlite3 : Option Path
  encoding : Option Charset
  importer : Option LoadMethod
  timeoutSeconds : Option UInt64
  noVerify : Bool
  noRestore : Bool
  deriving DecidableEq, Repr

/-- Nothing is given. -/
def Overrides.none : Overrides :=
  ⟨.none, .none, .none, .none, .none, .none, .none, .none, .none, .none, .none, false, false⟩

namespace Settings

/-- The settings after the command line. The two flags only ever turn something off. -/
def overriddenBy (o : Overrides) (s : Settings) : Settings where
  connection :=
    { host := o.host.getD s.connection.host
      port := o.port.getD s.connection.port
      user := o.user.getD s.connection.user
      password := o.password.getD s.connection.password
      database := o.database.getD s.connection.database }
  tools :=
    { mysqldump := o.mysqldump.getD s.tools.mysqldump
      sqlite3 := o.sqlite3.getD s.tools.sqlite3 }
  dumpFile := o.dumpFile.getD s.dumpFile
  encoding := o.encoding.getD s.encoding
  importer := o.importer.getD s.importer
  timeoutSeconds := o.timeoutSeconds.or s.timeoutSeconds
  verify := s.verify && !o.noVerify
  restoreOnFailure := s.restoreOnFailure && !o.noRestore

/-! ## All layers -/

/-- The settings of a file, laid over the defaults; `reads` reads the layer of a document. -/
def ofFile (reads : Text → Except DocumentFault Layer) (disk : Disk) (p : Path) :
    Except Failure Settings :=
  match disk.readText p with
  | .error cause => .error (.io cause)
  | .ok s =>
    match reads s with
    | .error cause => .error (.document cause)
    | .ok l => .ok (l.onto Settings.default)

/-- The document that is read when none is named. -/
def usualFile : Path := Path.ofString "mysql2sqlite.yaml"

/-- The settings of the named file, or of the usual one if that is a file. -/
def ofChosenFile (reads : Text → Except DocumentFault Layer) (disk : Disk) (named : Option Path) :
    Except Failure Settings :=
  match named with
  | some p => ofFile reads disk p
  | none => if disk.isFile usualFile then ofFile reads disk usualFile else .ok Settings.default

/-- The settings of all layers. -/
def load (reads : Text → Except DocumentFault Layer) (disk : Disk) (named : Option Path)
    (env : Environment) (o : Overrides) : Except Failure Settings :=
  match ofChosenFile reads disk named with
  | .error e => .error e
  | .ok s =>
    match s.applyEnvironment env with
    | (_, some fault) => .error (.settings fault)
    | (s, none) => .ok (s.overriddenBy o)

/-! ## Small lemmas -/

theorem applyVariables_nil (env : Environment) (s : Settings) :
    s.applyVariables env [] = (s, none) := rfl

theorem overriddenBy_none (s : Settings) : s.overriddenBy Overrides.none = s := by
  cases s
  simp [overriddenBy, Overrides.none]

end Settings

end DumpConversion
