import DumpConversion.CommandLine.Request
import DumpConversion.Conversion.Report
import DumpConversion.Settings.Layout

/-! # A run of the program

* `Task.perform`: carries out a task; its value is what the user is shown.
* `Outcome`: a run prints something, fails, or refuses its command line. Only the first kind prints
  to the standard output.
* `run`: a whole run. The log file is opened before anything else is done, and what the run reports
  about itself is settled then.
-/

namespace DumpConversion.CommandLine

set_option autoImplicit false

open Procedure (disk check)

/-! ## Texts -/

/-- The name of the program. -/
def programName : String := "mysql2sqlite"

/-- The version of the program. -/
def programVersion : String := "0.1.0"

/-- The kind of build. -/
def buildKind : String := "dev"

/-- The answer to the question for the version of the program. -/
def versionAnswer : Text := printedLines [programName ++ " " ++ programVersion]

/-- What the version command shows. -/
def versionReport (json : Bool) : Text :=
  if json then
    (Tree.record [("version", .text programVersion.toList),
      ("build", .text buildKind.toList)]).compact ++ ['\n']
  else printedLines [programName ++ " " ++ programVersion ++ " (" ++ buildKind ++ ")"]

/-- The settings as they are shown, without the password. -/
def settingsReport (json : Bool) (s : Settings) : Text :=
  if json then s.masked.json ++ ['\n'] else s.masked.yaml

/-- What is shown after a dump was sanitized. -/
def sanitizeReport (json : Bool) (input output : Path) (n : Statistics) : Text :=
  if json then n.tree.pretty ++ ['\n'] else printedLines [sanitizedLine input output n]

/-- What is shown after a conversion. -/
def convertReport (json : Bool) (r : Account) : Text :=
  if json then r.tree.pretty ++ ['\n'] else printedLines r.lines

/-- What a command does. -/
def Verb.purpose : Verb → String
  | .convert => "Export, sanitize and import a MySQL database into a SQLite file"
  | .sanitize => "Sanitize an existing mysqldump file"
  | .config => "Show the effective configuration (password redacted)"
  | .version => "Show version information"
  | .help => "Show help about the program or a command"

/-- What the program does. -/
def purpose : String := "Convert a MySQL database into a SQLite file via mysqldump"

/-- The options that may stand in a part of a command line. -/
def Vocabulary.lines (v : Vocabulary) : List String :=
  v.flags.map (fun f => "  --" ++ f.long) ++ v.parameters.map fun p => "  --" ++ p.long ++ " <value>"

/-- Help about a command, or about the program. -/
def helpText : Option Verb → Text
  | none => printedLines ([purpose, "", "Usage: " ++ programName ++ " [options] <command>", ""] ++
      Vocabulary.front.verbs.map (fun v => "  " ++ v.name ++ ": " ++ v.purpose) ++
      Vocabulary.front.lines)
  | some v => printedLines ([v.purpose, "", "Usage: " ++ programName ++ " " ++ v.name, ""] ++
      (Vocabulary.after v).lines)

/-! ## Tasks -/

section

variable [Platform]

/-- The settings of all layers. -/
def loadSettings (config : Option Path) (given : Overrides) : Procedure Settings := fun m =>
  (Settings.load Platform.readLayer m.disk config m.environment given, m)

/-- Carries out a conversion with settings that allow one. -/
def performConvert (s : Settings) (target : Path) : Procedure Account := do
  check (s.checkUsable.mapError .settings)
  convert s s.dumper s.loader target

/-- Carries out a task and returns what the user is shown. -/
def Task.perform (g : General) : Task → Procedure Text
  | .convert target given => do
    let s ← loadSettings g.config given
    return convertReport g.json (← performConvert s target)
  | .sanitize input output encoding => do
    let s ← loadSettings g.config Overrides.none
    let result := output.getD input
    return sanitizeReport g.json input result
      (← sanitizeInto input result (encoding.getD s.encoding))
  | .showSettings given => do
    return settingsReport g.json (← loadSettings g.config given)
  | .showVersion => return versionReport g.json

end

/-! ## Runs -/

/-- Why a run fails. -/
inductive RunFault where
  | noLog (cause : IoError)
  | failure (f : Failure)
  deriving DecidableEq, Repr

/-- The wording of a fault. -/
def RunFault.message : RunFault → String
  | noLog cause => s!"Failed to initialize logging: {cause.message}"
  | failure f => f.message

/-- How a run ends. -/
inductive Outcome where
  | printed (text : Text)
  | failed (cause : RunFault)
  | refused (cause : UsageFault)
  deriving DecidableEq, Repr

namespace Outcome

/-- The exit code. -/
def code : Outcome → Nat
  | printed _ => 0
  | failed _ => 1
  | refused _ => 2

/-- The standard output. -/
def stdout : Outcome → Text
  | printed text => text
  | _ => []

/-- The message on the error stream, if there is one. -/
def message? : Outcome → Option String
  | printed _ => none
  | failed cause => some s!"Error: {cause.message}"
  | refused cause => some s!"error: {cause.message}"

end Outcome

/-- How a run ends, on which machine, and what it reports about itself if it comes to that. -/
structure Run where
  outcome : Outcome
  machine : Machine
  diagnostics : Option Diagnostics
  deriving DecidableEq, Repr

/-- Opens the log file, if one is named. -/
def openLog (g : General) (d : Disk) : Except IoError Disk :=
  match g.logFile with
  | none => .ok d
  | some p => d.touch p

/-- What a run reports about itself. -/
def General.diagnostics [Platform] (g : General) (env : Environment) : Diagnostics where
  stream := streamFilter env g.level
  file := g.logFile.map fun _ => LogLevel.ofFile g.verbose

/-- Carries out a task after opening the log file. -/
def runTask [Platform] (g : General) (t : Task) (m : Machine) : Run :=
  match openLog g m.disk with
  | .error cause => ⟨.failed (.noLog cause), m, none⟩
  | .ok d =>
    let diagnostics := g.diagnostics m.environment
    match t.perform g { m with disk := d } with
    | (.ok text, m) => ⟨.printed text, m, diagnostics⟩
    | (.error e, m) => ⟨.failed (.failure e), m, diagnostics⟩

/-- A run on a command line, given as the words behind the name of the program. -/
def run [Platform] (words : List Text) (m : Machine) : Run :=
  match Request.read words with
  | .error fault => ⟨.refused fault, m, none⟩
  | .ok .programVersion => ⟨.printed versionAnswer, m, none⟩
  | .ok (.help about) => ⟨.printed (helpText about), m, none⟩
  | .ok (.task g t) => runTask g t m

/-! ## Small lemmas -/

theorem stdout_of_code_ne_zero {o : Outcome} (h : o.code ≠ 0) : o.stdout = [] := by
  cases o <;> simp_all [Outcome.code, Outcome.stdout]

end DumpConversion.CommandLine
