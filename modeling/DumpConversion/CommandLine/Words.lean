import DumpConversion.CommandLine.Options

/-! # The words of a command line

A command line is read from left to right into mentions of options and operands.

* `Mention`: an option with its value, or an operand.
* `UsageFault`: why a command line is refused.
* `readWord`: one word that begins with a dash may mention several flags and, at its end, a
  parameter, whose value is the rest of the word or else the next word.
* `readWords`: a whole part of a command line. It ends at a command, and at the questions for help and
  for the version of the program. After two dashes alone every word is an operand.
-/

namespace DumpConversion.CommandLine

set_option autoImplicit false

/-- Something that a command line says. -/
inductive Mention where
  | flag (f : Flag)
  | parameter (p : Parameter) (value : Text)
  | operand (word : Text)
  deriving DecidableEq, Repr

/-- The mention is a question behind which nothing is read. -/
def Mention.endsReading : Mention → Bool
  | flag f => f.endsReading
  | _ => false

/-- Why a command line is refused. -/
inductive UsageFault where
  | unknownOption (written : Text)
  | needlessValue (f : Flag)
  | missingValue (p : Parameter)
  | badValue (p : Parameter) (value : Text)
  | repeated (m : Mention)
  | needlessOperand (word : Text)
  | badOperand (word : Text)
  | missingOperand (v : Verb)
  | missingVerb
  | unknownVerb (word : Text)
  deriving DecidableEq, Repr

/-- The wording of a fault. -/
def UsageFault.message : UsageFault → String
  | unknownOption written => s!"unknown option {String.ofList written}"
  | needlessValue f => s!"--{f.long} takes no value"
  | missingValue p => s!"--{p.long} needs a value"
  | badValue p value => s!"--{p.long} cannot be {String.ofList value}"
  | repeated (.flag f) => s!"--{f.long} is given twice"
  | repeated (.parameter p _) => s!"--{p.long} is given twice"
  | repeated (.operand word) => s!"{String.ofList word} is given twice"
  | needlessOperand word => s!"unexpected argument {String.ofList word}"
  | badOperand word => s!"{String.ofList word} is not a path"
  | missingOperand v => s!"{v.name} needs a path"
  | missingVerb => "no command is given"
  | unknownVerb word => s!"there is no command {String.ofList word}"

/-! ## One word -/

/-- The value behind an equals sign; the sign itself may be left out. -/
def attachedValue : Text → Text
  | '=' :: value => value
  | value => value

/-- What follows two dashes: a long name, and a value after an equals sign. -/
def readLong (v : Vocabulary) (body : Text) : Except UsageFault (List Mention × Option Parameter) :=
  let name := body.takeWhile fun c => decide (c ≠ '=')
  let tail := body.dropWhile fun c => decide (c ≠ '=')
  match v.flag? name, v.parameter? name with
  | some f, _ => if tail = [] then .ok ([.flag f], none) else .error (.needlessValue f)
  | none, some p =>
    if tail = [] then .ok ([], some p) else .ok ([.parameter p (attachedValue tail)], none)
  | none, none => .error (.unknownOption name)

/-- What follows one dash: letters of flags, and at last perhaps the letter of a parameter with its
value. Nothing is read after a question. -/
def readLetters (v : Vocabulary) : List Char → Except UsageFault (List Mention × Option Parameter)
  | [] => .ok ([], none)
  | c :: rest =>
    match v.flagOf? c, v.parameterOf? c with
    | some f, _ =>
      if f.endsReading then .ok ([.flag f], none)
      else (readLetters v rest).map fun r => (.flag f :: r.1, r.2)
    | none, some p =>
      if rest = [] then .ok ([], some p) else .ok ([.parameter p (attachedValue rest)], none)
    | none, none => .error (.unknownOption [c])

/-- What a word mentions, and the parameter that still waits for its value. -/
def readWord (v : Vocabulary) : Text → Except UsageFault (List Mention × Option Parameter)
  | '-' :: '-' :: body => readLong v body
  | '-' :: c :: letters => readLetters v (c :: letters)
  | word => .ok ([.operand word], none)

/-! ## All words -/

/-- What was read, up to a command with the words behind it. -/
structure Part where
  mentions : List Mention
  verb : Option (Verb × List Text)
  deriving DecidableEq, Repr

/-- The mentions of a word come before what follows it. -/
def Part.after (p : Part) (found : List Mention) : Part :=
  { p with mentions := found ++ p.mentions }

/-- The word after which every word is an operand. -/
def endOfOptions : Text := "--".toList

/-- A word that cannot be the value of the option before it. A single dash can. -/
def looksLikeOption : Text → Bool
  | '-' :: _ :: _ => true
  | _ => false

/-- Reads a part of a command line. -/
def readWords (v : Vocabulary) : List Text → Except UsageFault Part
  | [] => .ok ⟨[], none⟩
  | word :: rest =>
    match v.verb? word with
    | some w => .ok ⟨[], some (w, rest)⟩
    | none =>
      if word = endOfOptions then .ok ⟨rest.map .operand, none⟩
      else
        match readWord v word with
        | .error e => .error e
        | .ok (found, none) =>
          if found.any Mention.endsReading then .ok ⟨found, none⟩
          else (readWords v rest).map fun p => p.after found
        | .ok (found, some p) =>
          match rest with
          | [] => .error (.missingValue p)
          | value :: rest =>
            if looksLikeOption value then .error (.missingValue p)
            else (readWords v rest).map fun q => q.after (found ++ [.parameter p value])

end DumpConversion.CommandLine
