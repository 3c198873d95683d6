import DumpConversion.Machine.Platform

/-! # Verbosity

How much a run reports about itself.

* `LogLevel`: the levels, from the least to the most detailed.
* `LogLevel.wanted`: the level asked for by the number of verbose flags and the quiet flag.
* `Filter`, `Diagnostics`: what is let through to the error stream and into the log file.
-/

namespace DumpConversion

set_option autoImplicit false

/-- The levels of diagnostics. -/
inductive LogLevel where
  | error
  | warn
  | info
  | debug
  | trace
  deriving DecidableEq, Repr

namespace LogLevel

/-- The name of a level. -/
def name : LogLevel → String
  | error => "error"
  | warn => "warn"
  | info => "info"
  | debug => "debug"
  | trace => "trace"

/-- Quiet wins over any number of verbose flags; each of these goes one level further. -/
def wanted (verbose : Nat) (quiet : Bool) : LogLevel :=
  if quiet then error
  else match verbose with
    | 0 => warn
    | 1 => info
    | 2 => debug
    | _ => trace

/-- The level of a log file. -/
def ofFile (verbose : Nat) : LogLevel := if 3 ≤ verbose then trace else debug

/-- The number of levels that are less detailed. -/
def rank : LogLevel → Nat
  | error => 0
  | warn => 1
  | info => 2
  | debug => 3
  | trace => 4

end LogLevel

/-- What is let through: everything up to a level, or what the user has written a filter for. -/
inductive Filter where
  | upTo (level : LogLevel)
  | written (text : Text)
  deriving DecidableEq, Repr

/-- What a run reports about itself: on the error stream, and in a log file if there is one. -/
structure Diagnostics where
  stream : Filter
  file : Option LogLevel
  deriving DecidableEq, Repr

/-- The variable with a filter for the error stream. -/
def filterVariable : Text := "RUST_LOG".toList

/-- The filter for the error stream: the one in the environment if it can be read, or else the level
that is asked for. -/
def streamFilter [Platform] (env : Environment) (level : LogLevel) : Filter :=
  match env.value? filterVariable with
  | some text => if Platform.takesFilter text then .written text else .upTo level
  | none => .upTo level

/-! ## Small lemmas -/

/-- A log file is at least as detailed as the error stream. -/
theorem wanted_le_ofFile (verbose : Nat) (quiet : Bool) :
    (LogLevel.wanted verbose quiet).rank ≤ (LogLevel.ofFile verbose).rank := by
  match verbose, quiet with
  | _, true => simp [LogLevel.wanted, LogLevel.rank]
  | 0, false => decide
  | 1, false => decide
  | 2, false => decide
  | n + 3, false => simp [LogLevel.wanted, LogLevel.ofFile, LogLevel.rank]

end DumpConversion
