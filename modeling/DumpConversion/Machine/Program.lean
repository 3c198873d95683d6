import DumpConversion.Disk.Content
import DumpConversion.Path

/-! # Programs

An external program is an executable file. What it does is a matter of the platform; here is what can
be known of it from outside.

* `Program`: an executable, known by its bytes.
* `Call`: what a program gets to see when it is started.
* `Ending`: a program exits with a status, or a signal ends it.
* `Deeds`, `Activity`: what a program has done by a certain time, and how it ends if it is let.
* `excerpt`: the part of what a failed program printed that goes into a message.
-/

namespace DumpConversion

set_option autoImplicit false

/-- An executable. -/
structure Program where
  code : Bytes
  deriving DecidableEq, Repr

/-- What a program gets to see when it is started, apart from the files. -/
structure Call where
  /-- The name of the file of the program. -/
  tool : Text
  arguments : List Text
  password : Option Text
  stdin : Bytes
  deriving DecidableEq, Repr

/-- How a program ends. -/
inductive Ending where
  | exited (status : UInt8)
  | killed (signal : Nat)
  deriving DecidableEq, Repr

/-- Exit status zero is the only success. -/
def Ending.isSuccess : Ending → Bool
  | exited status => status == 0
  | killed _ => false

/-- The exit code; a program ended by a signal has none. -/
def Ending.code? : Ending → Option Int
  | exited status => some status.toNat
  | killed _ => none

/-- What a program has done so far: what it has printed, and the files that it has written. Their
paths are relative to the working directory. -/
structure Deeds where
  stdout : Bytes
  writes : List (Path × Content)
  deriving DecidableEq, Repr

/-- What a started program does. -/
structure Activity where
  /-- The time that it takes to its end. -/
  milliseconds : Nat
  ending : Ending
  /-- The error output up to the end. -/
  stderr : Bytes
  /-- What it has done after some milliseconds. -/
  deeds : Nat → Deeds

/-- A program that does nothing. -/
def Activity.idle : Activity := ⟨0, .exited 0, [], fun _ => ⟨[], []⟩⟩

/-- The longest part of the error output that is kept, in characters. -/
def excerptLimit : Nat := 4096

/-- The first `limit` characters, with three dots if there were more. -/
def shorten (limit : Nat) (s : Text) : Text :=
  if s.length ≤ limit then s else s.take limit ++ "...".toList

/-- The trimmed error output of a program, shortened to the limit. -/
def excerpt (stderr : Bytes) : Text := shorten excerptLimit (Text.trim (Utf8.decodeLossy stderr))

/-! ## Small lemmas -/

theorem isSuccess_iff {e : Ending} : e.isSuccess = true ↔ e = .exited 0 := by
  cases e <;> simp [Ending.isSuccess]

theorem shorten_of_le {limit : Nat} {s : Text} (h : s.length ≤ limit) : shorten limit s = s := by
  simp [shorten, h]

theorem shorten_of_lt {limit : Nat} {s : Text} (h : limit < s.length) :
    shorten limit s = s.take limit ++ "...".toList := by
  simp [shorten, show ¬ s.length ≤ limit by omega]

end DumpConversion
