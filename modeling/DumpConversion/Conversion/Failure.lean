import DumpConversion.Disk.Store
import DumpConversion.Dump.Scan
import DumpConversion.Settings.Document

/-! # Failures

Every way in which a conversion or one of its stages can fail, as a cause. The wording shown to a
user is a function of the cause.

* `AsideFault`, `InspectionFault`, `DatabaseFault`: the causes inside one stage.
* `Failure`: a cause together with the file or program it concerns.
* `Failure.message`: the wording.
-/

namespace DumpConversion

set_option autoImplicit false

/-! ## Causes inside a stage -/

/-- Why a database could not be set aside or put back. -/
inductive AsideFault where
  | notFile
  | copyFailed (target : Path) (cause : IoError)
  | unreadable (cause : IoError)
  | copyDiffers (copy : Path)
  | removeFailed (cause : IoError)
  | removePartialFailed (cause : IoError)
  | putBackFailed (target : Path) (cause : IoError)
  | stated (reason : Text)
  deriving DecidableEq, Repr

/-- The wording of a fault. -/
def AsideFault.message : AsideFault → String
  | notFile => "target exists and is not a regular file"
  | copyFailed target cause => s!"copy to {target.shown}: {cause.message}"
  | unreadable cause => cause.message
  | copyDiffers copy => s!"copy at {copy.shown} does not match the original"
  | removeFailed cause => s!"remove: {cause.message}"
  | removePartialFailed cause => s!"remove partial import: {cause.message}"
  | putBackFailed target cause => s!"restore to {target.shown}: {cause.message}"
  | stated reason => String.ofList reason

/-- Why a loaded database is not accepted. -/
inductive InspectionFault where
  | notCreated
  /-- The integrity check reports this. -/
  | reported (report : Text)
  deriving DecidableEq, Repr

/-- The wording of a fault. -/
def InspectionFault.message : InspectionFault → String
  | notCreated => "database file was not created"
  | reported report => String.ofList report

/-- Why a database could not be opened, or a statement not be executed, or a query not be answered. -/
inductive DatabaseFault where
  | cannotOpen
  | notDatabase
  | malformedStatement
  | nameTaken (name : Text)
  | reservedName (name : Text)
  | duplicateColumn (name : Text)
  | noTable (name : Text)
  | valueCount (table : Text) (columns values : Nat)
  | nullValue (table column : Text)
  | stated (reason : Text)
  deriving DecidableEq, Repr

/-- The wording of a fault. -/
def DatabaseFault.message : DatabaseFault → String
  | cannotOpen => "unable to open database file"
  | notDatabase => "file is not a database"
  | malformedStatement => "statement cannot be read"
  | nameTaken name => s!"there is already an object named {String.ofList name}"
  | reservedName name => s!"object name reserved for internal use: {String.ofList name}"
  | duplicateColumn name => s!"duplicate column name: {String.ofList name}"
  | noTable name => s!"no such table: {String.ofList name}"
  | valueCount table columns values =>
    s!"table {String.ofList table} has {columns} columns but {values} values were supplied"
  | nullValue table column =>
    s!"NOT NULL constraint failed: {String.ofList table}.{String.ofList column}"
  | stated reason => String.ofList reason

/-! ## Failures -/

/-- Why a stage failed, and on what. -/
inductive Failure where
  | dump (path : Path) (cause : DumpError)
  | notStarted (name : Text) (cause : IoError)
  | program (name : Text) (code : Option Int) (stderr : Text)
  | tooSlow (name : Text) (seconds : Nat)
  | aside (path : Path) (cause : AsideFault)
  | inspection (path : Path) (cause : InspectionFault)
  | settings (cause : SettingsFault)
  | io (cause : IoError)
  | document (cause : DocumentFault)
  | database (cause : DatabaseFault)
  deriving DecidableEq, Repr

/-- How a failed program ended. -/
def endingWords : Option Int → String
  | none => "terminated by signal"
  | some code => s!"exit code {code}"

/-- The wording of a failure. -/
def Failure.message : Failure → String
  | dump path cause => s!"Sanitize failed for {path.shown}: {cause.message}"
  | notStarted name cause => s!"Failed to start {String.ofList name}: {cause.message}"
  | program name code stderr =>
    s!"{String.ofList name} failed ({endingWords code}): {String.ofList stderr}"
  | tooSlow name seconds => s!"{String.ofList name} timed out after {seconds}s"
  | aside path cause => s!"Backup of {path.shown} failed: {cause.message}"
  | inspection path cause => s!"Verification of {path.shown} failed: {cause.message}"
  | settings cause => s!"Configuration error: {cause.message}"
  | io cause => s!"I/O error: {cause.message}"
  | document cause => s!"YAML error: {cause.message}"
  | database cause => s!"Database error: {cause.message}"

end DumpConversion
