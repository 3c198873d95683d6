import DumpConversion.Dump.Charset
import DumpConversion.Path
import DumpConversion.Text.Numeral

/-! # Settings

Everything that can be set for a conversion.

* `Connection`, `Tools`, `Settings`: the settings with their defaults.
* `Layer`: the settings that one source gives a value, and `Layer.onto`: what they make of others.
* `LoadMethod`: the two ways to load a dump.
* `SettingsFault`: why a value is refused.
* `Settings.checkUsable`: what a dump needs, checked in a fixed order.
* `Settings.masked`: the settings as they may be shown.
-/

namespace DumpConversion

set_option autoImplicit false

/-! ## How a dump is loaded -/

/-- A dump is fed to the shell of the database or executed in this process. -/
inductive LoadMethod where
  | shell
  | embedded
  deriving DecidableEq, Repr

namespace LoadMethod

/-- The name of a method. -/
def name : LoadMethod → String
  | shell => "shell"
  | embedded => "embedded"

/-- A name that is no method, in the lower-case form in which it was looked up. -/
structure Unknown where
  name : Text
  deriving DecidableEq, Repr

/-- The wording for an unknown name. -/
def Unknown.message (u : Unknown) : String :=
  let shown := String.ofList u.name
  s!"unknown importer '{shown}' (expected shell or embedded)"

/-- The method a user names; blanks around the name and the case of its ASCII letters do not
matter. -/
def parse (s : Text) : Except Unknown LoadMethod :=
  let wanted := (Text.trim s).map Char.toLower
  if wanted = shell.name.toList then .ok shell
  else if wanted = embedded.name.toList then .ok embedded
  else .error ⟨wanted⟩

theorem parse_name (k : LoadMethod) : parse k.name.toList = .ok k := by
  cases k <;> rfl

end LoadMethod

/-! ## The record -/

/-- How the source database is reached. -/
structure Connection where
  host : Text
  port : UInt16
  user : Text
  password : Text
  database : Text
  deriving DecidableEq, Repr

/-- The connection used unless something else is set. -/
def Connection.default : Connection := ⟨"localhost".toList, 3306, "root".toList, [], []⟩

/-- The external programs. -/
structure Tools where
  mysqldump : Path
  sqlite3 : Path
  deriving DecidableEq, Repr

/-- The programs used unless something else is set. -/
def Tools.default : Tools := ⟨Path.ofString "mysqldump", Path.ofString "sqlite3"⟩

/-- The settings of one conversion. -/
structure Settings where
  connection : Connection
  tools : Tools
  dumpFile : Path
  encoding : Charset
  importer : LoadMethod
  timeoutSeconds : Option UInt64
  verify : Bool
  restoreOnFailure : Bool
  deriving DecidableEq, Repr

/-- The settings used unless something else is set. -/
def Settings.default : Settings where
  connection := Connection.default
  tools := Tools.default
  dumpFile := Path.ofString "dump.sql"
  encoding := Charset.default
  importer := .shell
  timeoutSeconds := none
  verify := true
  restoreOnFailure := true

/-! ## Layers -/

/-- The settings that one source of settings gives a value. -/
structure Layer where
  host : Option Text
  port : Option UInt16
  user : Option Text
  password : Option Text
  database : Option Text
  mysqldump : Option Path
  sqlite3 : Option Path
  dumpFile : Option Path
  encoding : Option Charset
  importer : Option LoadMethod
  timeoutSeconds : Option (Option UInt64)
  verify : Option Bool
  restoreOnFailure : Option Bool
  deriving DecidableEq, Repr

namespace Layer

/-- A layer without values. -/
def empty : Layer :=
  ⟨none, none, none, none, none, none, none, none, none, none, none, none, none⟩

/-- The values of the layer, and those of the settings where it gives none. -/
def onto (l : Layer) (s : Settings) : Settings where
  connection :=
    { host := l.host.getD s.connection.host
      port := l.port.getD s.connection.port
      user := l.user.getD s.connection.user
      password := l.password.getD s.connection.password
      database := l.database.getD s.connection.database }
  tools :=
    { mysqldump := l.mysqldump.getD s.tools.mysqldump
      sqlite3 := l.sqlite3.getD s.tools.sqlite3 }
  dumpFile := l.dumpFile.getD s.dumpFile
  encoding := l.encoding.getD s.encoding
  importer := l.importer.getD s.importer
  timeoutSeconds := l.timeoutSeconds.getD s.timeoutSeconds
  verify := l.verify.getD s.verify
  restoreOnFailure := l.restoreOnFailure.getD s.restoreOnFailure

theorem empty_onto (s : Settings) : empty.onto s = s := rfl

end Layer

/-! ## Faults -/

/-- The start of the names of all variables of the environment that are read. -/
def variableStart : String := "MYSQL2SQLITE_"

/-- Why settings are refused. -/
inductive SettingsFault where
  | badPort (value : Text) (cause : NumeralFault)
  | badEncoding (value : Text) (cause : Charset.Unknown)
  | noDatabase
  | noHost
  | noDumpFile
  | zeroTimeout
  | stated (reason : Text)
  deriving DecidableEq, Repr

/-- The wording for a variable that cannot be read. -/
def variableMessage (name : String) (value : Text) (cause : String) : String :=
  let shown := String.ofList value
  s!"{variableStart}{name}={shown}: {cause}"

/-- The wording of a fault. -/
def SettingsFault.message : SettingsFault → String
  | badPort value cause => variableMessage "PORT" value cause.message
  | badEncoding value cause => variableMessage "ENCODING" value cause.message
  | noDatabase => "mysql.database is required (set it in the config file, " ++
      "MYSQL2SQLITE_DATABASE or --database)"
  | noHost => "mysql.host cannot be empty"
  | noDumpFile => "dump_file cannot be empty"
  | zeroTimeout => "timeout_secs must be greater than zero"
  | stated reason => String.ofList reason

namespace Settings

/-! ## Checks -/

/-- Refuses settings with which no dump can be made. -/
def checkUsable (s : Settings) : Except SettingsFault Unit :=
  if Text.isBlankText s.connection.database then .error .noDatabase
  else if Text.isBlankText s.connection.host then .error .noHost
  else if s.dumpFile.text = [] then .error .noDumpFile
  else if s.timeoutSeconds = some 0 then .error .zeroTimeout
  else .ok ()

/-! ## Display -/

/-- What is shown in place of a password. -/
def mask : Text := "********".toList

/-- The settings with a password that is not empty replaced by the mask. -/
def masked (s : Settings) : Settings :=
  if s.connection.password = [] then s
  else { s with connection := { s.connection with password := mask } }

/-! ## Small lemmas -/

theorem masked_of_no_password {s : Settings} (h : s.connection.password = []) :
    s.masked = s := by
  simp [masked, h]

theorem masked_masked (s : Settings) : s.masked.masked = s.masked := by
  by_cases h : s.connection.password = []
  · simp [masked, h]
  · have hm : mask ≠ [] := by decide
    simp [masked, h, hm]

end Settings

end DumpConversion
