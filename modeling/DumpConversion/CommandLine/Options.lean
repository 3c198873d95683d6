import DumpConversion.Text.Blank

/-! # Options

The words that a command line may use.

* `Flag`, `Parameter`: the options without and with a value, under a long name and sometimes a
  letter.
* `Verb`: the commands.
* `Vocabulary`: what may stand in one part of a command line. `Vocabulary.front` is for the part
  before the command, `Vocabulary.after` for the part behind it.
-/

namespace DumpConversion.CommandLine

set_option autoImplicit false

/-! ## Names -/

/-- An option without a value. -/
inductive Flag where
  | json
  | verbose
  | quiet
  | programVersion
  | help
  | noVerify
  | noRestore
  deriving DecidableEq, Repr

namespace Flag

/-- The name behind two dashes. -/
def long : Flag → String
  | json => "json"
  | verbose => "verbose"
  | quiet => "quiet"
  | programVersion => "version"
  | help => "help"
  | noVerify => "no-verify"
  | noRestore => "no-restore"

/-- The letter behind one dash. -/
def letter? : Flag → Option Char
  | verbose => some 'v'
  | quiet => some 'q'
  | programVersion => some 'V'
  | help => some 'h'
  | _ => none

/-- The flag is a question that is answered at once; nothing behind it is read. -/
def endsReading : Flag → Bool
  | programVersion | help => true
  | _ => false

end Flag

/-- An option with a value. -/
inductive Parameter where
  | config
  | logFile
  | host
  | port
  | user
  | password
  | database
  | dumpFile
  | mysqldump
  | sqlite3
  | encoding
  | importer
  | timeout
  | output
  deriving DecidableEq, Repr

namespace Parameter

/-- The name behind two dashes. -/
def long : Parameter → String
  | config => "config"
  | logFile => "log-file"
  | host => "host"
  | port => "port"
  | user => "user"
  | password => "password"
  | database => "database"
  | dumpFile => "dump-file"
  | mysqldump => "mysqldump"
  | sqlite3 => "sqlite3"
  | encoding => "encoding"
  | importer => "importer"
  | timeout => "timeout"
  | output => "output"

/-- The letter behind one dash. -/
def letter? : Parameter → Option Char
  | user => some 'u'
  | database => some 'd'
  | output => some 'o'
  | _ => none

end Parameter

/-- A command. -/
inductive Verb where
  | convert
  | sanitize
  | config
  | version
  | help
  deriving DecidableEq, Repr

/-- The name of a command. -/
def Verb.name : Verb → String
  | convert => "convert"
  | sanitize => "sanitize"
  | config => "config"
  | version => "version"
  | help => "help"

/-! ## What may stand where -/

/-- What may stand in one part of a command line. -/
structure Vocabulary where
  flags : List Flag
  parameters : List Parameter
  verbs : List Verb
  deriving DecidableEq, Repr

namespace Vocabulary

/-- The flags that may stand in every part. -/
def commonFlags : List Flag := [.json, .verbose, .quiet, .help]

/-- The parameters that may stand in every part. -/
def commonParameters : List Parameter := [.config, .logFile]

/-- The flags of a command that reaches the source database. -/
def connectionFlags : List Flag := [.noVerify, .noRestore]

/-- The parameters of a command that reaches the source database. -/
def connectionParameters : List Parameter :=
  [.host, .port, .user, .password, .database, .dumpFile, .mysqldump, .sqlite3, .encoding, .importer,
    .timeout]

/-- The part before the command. -/
def front : Vocabulary :=
  ⟨commonFlags ++ [.programVersion], commonParameters,
    [.convert, .sanitize, .config, .version, .help]⟩

/-- The part behind a command. The command for help has no options. -/
def after : Verb → Vocabulary
  | .convert | .config =>
    ⟨commonFlags ++ connectionFlags, commonParameters ++ connectionParameters, []⟩
  | .sanitize => ⟨commonFlags, commonParameters ++ [.output, .encoding], []⟩
  | .version => ⟨commonFlags, commonParameters, []⟩
  | .help => ⟨[], [], []⟩

/-- The flag with a long name. -/
def flag? (v : Vocabulary) (name : Text) : Option Flag :=
  v.flags.find? fun f => decide (f.long.toList = name)

/-- The parameter with a long name. -/
def parameter? (v : Vocabulary) (name : Text) : Option Parameter :=
  v.parameters.find? fun p => decide (p.long.toList = name)

/-- The flag with a letter. -/
def flagOf? (v : Vocabulary) (c : Char) : Option Flag :=
  v.flags.find? fun f => decide (f.letter? = some c)

/-- The parameter with a letter. -/
def parameterOf? (v : Vocabulary) (c : Char) : Option Parameter :=
  v.parameters.find? fun p => decide (p.letter? = some c)

/-- The command with a name; nothing but the whole name will do. -/
def verb? (v : Vocabulary) (name : Text) : Option Verb :=
  v.verbs.find? fun w => decide (w.name.toList = name)

end Vocabulary

end DumpConversion.CommandLine
