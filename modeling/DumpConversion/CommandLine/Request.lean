import DumpConversion.CommandLine.Verbosity
import DumpConversion.CommandLine.Words
import DumpConversion.Settings.Layers

/-! # Requests

What a command line asks for.

* `General`: the options that every command has. They may be given before and behind the command;
  what is given behind it wins.
* `Task`: a command with what it needs.
* `Request.read`: the request of a command line. An option may be given once in each of the two
  parts, except that the verbose flag is counted. Questions for help and for the version of the
  program need neither a command nor its operand.
-/

namespace DumpConversion.CommandLine

set_option autoImplicit false

/-! ## Looking up mentions -/

/-- The two mentions cannot stand in one part. -/
def Mention.clashes : Mention → Mention → Bool
  | .flag f, .flag g => decide (f = g) && decide (f ≠ .verbose)
  | .parameter p _, .parameter q _ => decide (p = q)
  | _, _ => false

/-- The first mention that is repeated. -/
def repeated? : List Mention → Option Mention
  | [] => none
  | m :: rest => if rest.any m.clashes then some m else repeated? rest

/-- The operands in order. -/
def operands (ms : List Mention) : List Text :=
  ms.filterMap fun
    | .operand word => some word
    | _ => none

/-- The value given to a parameter. -/
def given? (ms : List Mention) (p : Parameter) : Option Text :=
  ms.findSome? fun
    | .parameter q value => if q = p then some value else none
    | _ => none

/-- The value given to a parameter, read as what the parameter stands for. -/
def readGiven {α : Type} (read : Text → Option α) (ms : List Mention) (p : Parameter) :
    Except UsageFault (Option α) :=
  match given? ms p with
  | none => .ok none
  | some value =>
    match read value with
    | some a => .ok (some a)
    | none => .error (.badValue p value)

/-- The flag is given. -/
def hasFlag (ms : List Mention) (f : Flag) : Bool := ms.contains (.flag f)

/-! ## Values -/

/-- A path is not empty. -/
def readPath (value : Text) : Option Path := if value = [] then none else some ⟨value⟩

/-- A port. -/
def readPort (value : Text) : Option UInt16 := (Text.readPort value).map UInt16.ofNat

/-- The greatest number of seconds. -/
def greatestSeconds : Nat := Nat.pow 2 64 - 1

/-- A number of seconds. -/
def readSeconds (value : Text) : Option UInt64 :=
  (Text.readUnsigned greatestSeconds value).toOption.map UInt64.ofNat

/-- An encoding, named as a user may name it. -/
def readEncoding (value : Text) : Option Charset := (Charset.parse value).toOption

/-- A way to load a dump, named as a user may name it. -/
def readLoadMethod (value : Text) : Option LoadMethod := (LoadMethod.parse value).toOption

/-! ## What is asked for -/

/-- The options that every command has. -/
structure General where
  json : Bool
  verbose : Nat
  quiet : Bool
  config : Option Path
  logFile : Option Path
  deriving DecidableEq, Repr

namespace General

/-- The general options of one part of a command line. -/
def ofMentions (ms : List Mention) : Except UsageFault General := do
  let config ← readGiven readPath ms .config
  let logFile ← readGiven readPath ms .logFile
  return ⟨hasFlag ms .json, ms.count (.flag .verbose), hasFlag ms .quiet, config, logFile⟩

/-- The options behind the command, completed by those before it. -/
def completedBy (inner outer : General) : General where
  json := inner.json || outer.json
  verbose := if inner.verbose = 0 then outer.verbose else inner.verbose
  quiet := inner.quiet || outer.quiet
  config := inner.config.or outer.config
  logFile := inner.logFile.or outer.logFile

/-- The level of diagnostics asked for. -/
def level (g : General) : LogLevel := LogLevel.wanted g.verbose g.quiet

end General

/-- The settings given on a command line. -/
def overridesOf (ms : List Mention) : Except UsageFault Overrides := do
  let port ← readGiven readPort ms .port
  let dumpFile ← readGiven readPath ms .dumpFile
  let mysqldump ← readGiven readPath ms .mysqldump
  let sqlite3 ← readGiven readPath ms .sqlite3
  let encoding ← readGiven readEncoding ms .encoding
  let importer ← readGiven readLoadMethod ms .importer
  let timeoutSeconds ← readGiven readSeconds ms .timeout
  return { host := given? ms .host
           port
           user := given? ms .user
           password := given? ms .password
           database := given? ms .database
           dumpFile
           mysqldump
           sqlite3
           encoding
           importer
           timeoutSeconds
           noVerify := hasFlag ms .noVerify
           noRestore := hasFlag ms .noRestore }

/-- A command with what it needs. -/
inductive Task where
  | convert (target : Path) (given : Overrides)
  | sanitize (input : Path) (output : Option Path) (encoding : Option Charset)
  | showSettings (given : Overrides)
  | showVersion
  deriving DecidableEq, Repr

namespace Task

/-- Refuses operands. -/
def withoutOperand (ms : List Mention) : Except UsageFault Unit :=
  match operands ms with
  | [] => .ok ()
  | word :: _ => .error (.needlessOperand word)

/-- The one operand of a command. -/
def onlyOperand (v : Verb) (ms : List Mention) : Except UsageFault Path :=
  match operands ms with
  | [] => .error (.missingOperand v)
  | [word] =>
    match readPath word with
    | some p => .ok p
    | none => .error (.badOperand word)
  | _ :: word :: _ => .error (.needlessOperand word)

/-- The task of a command with what is mentioned behind it. The command for help has none. -/
def ofMentions (v : Verb) (ms : List Mention) : Except UsageFault Task :=
  match v with
  | .convert => do
    let given ← overridesOf ms
    return convert (← onlyOperand v ms) given
  | .sanitize => do
    let output ← readGiven readPath ms .output
    let encoding ← readGiven readEncoding ms .encoding
    return sanitize (← onlyOperand v ms) output encoding
  | .config => do
    withoutOperand ms
    return showSettings (← overridesOf ms)
  | .version => do
    withoutOperand ms
    return showVersion
  | .help => .error .missingVerb

end Task

/-- What a command line asks for. -/
inductive Request where
  | programVersion
  /-- Help about a command, or about the program. -/
  | help (about : Option Verb)
  | task (general : General) (task : Task)
  deriving DecidableEq, Repr

/-- A part of a command line without repeated options. -/
def readPart (v : Vocabulary) (words : List Text) : Except UsageFault Part := do
  let part ← readWords v words
  match repeated? part.mentions with
  | some m => .error (.repeated m)
  | none => return part

namespace Request

/-- What is asked by the words behind the command for help: at most one of them, which names a
command. -/
def readTopic : List Text → Except UsageFault (Option Verb)
  | [] => .ok none
  | word :: rest =>
    match Vocabulary.front.verb? word with
    | none => .error (.unknownVerb word)
    | some v =>
      match rest with
      | [] => .ok (some v)
      | word :: _ => .error (.unknownVerb word)

/-- The request of a command with what is mentioned behind it. Who asks for help may leave out the
operand. -/
def ofMentions (general : General) (v : Verb) (ms : List Mention) : Except UsageFault Request :=
  if hasFlag ms .help then
    match Task.ofMentions v ms with
    | .ok _ | .error (.missingOperand _) => .ok (.help (some v))
    | .error fault => .error fault
  else do return .task general (← Task.ofMentions v ms)

/-- The request of a command with the words behind it. -/
def ofVerb (outer : General) (v : Verb) (words : List Text) : Except UsageFault Request :=
  if v = .help then do return .help (← readTopic words)
  else do
    let second ← readPart (.after v) words
    let inner ← General.ofMentions second.mentions
    ofMentions (inner.completedBy outer) v second.mentions

/-- The request of a command line, given as the words behind the name of the program. -/
def read (words : List Text) : Except UsageFault Request := do
  let first ← readPart .front words
  let outer ← General.ofMentions first.mentions
  Task.withoutOperand first.mentions
  if hasFlag first.mentions .programVersion then return .programVersion
  if hasFlag first.mentions .help then return .help none
  match first.verb with
  | none => .error .missingVerb
  | some (v, rest) => ofVerb outer v rest

end Request

end DumpConversion.CommandLine
