import DumpConversion.Text.Blank

/-! # Decimal numerals

Whole numbers written in ASCII digits, read with a greatest allowed value.

* `NumeralFault`: why a text is no such number, with the wording shown to a user.
* `readUnsigned limit`: an optional plus sign and one or more digits. The digits are taken from the
  left, and the first of them that is no digit or passes the limit decides the fault.
* `readPort`: the same with either sign allowed, for values up to the greatest port.
* `decimal`: the shortest numeral of a number.
-/

namespace DumpConversion

set_option autoImplicit false

/-- Why a text is not a number in range. -/
inductive NumeralFault where
  | empty
  | invalidDigit
  | tooLarge
  deriving DecidableEq, Repr

/-- The wording of a fault. -/
def NumeralFault.message : NumeralFault → String
  | empty => "cannot parse integer from empty string"
  | invalidDigit => "invalid digit found in string"
  | tooLarge => "number too large to fit in target type"

namespace Text

/-! ## Digits -/

/-- An ASCII decimal digit. -/
def isDigit (c : Char) : Bool := decide ('0' ≤ c) && decide (c ≤ '9')

/-- The value of an ASCII decimal digit. -/
def digitValue (c : Char) : Nat := c.toNat - '0'.toNat

/-- Extends the value read so far by the digits of the text, as long as it stays within `limit`. -/
def readDigits (limit : Nat) : Nat → Text → Except NumeralFault Nat
  | value, [] => .ok value
  | value, c :: s =>
    if isDigit c then
      let next := value * 10 + digitValue c
      if next ≤ limit then readDigits limit next s else .error .tooLarge
    else .error .invalidDigit

/-- The value of one or more digits within `limit`. -/
def readMagnitude (limit : Nat) : Text → Except NumeralFault Nat
  | [] => .error .invalidDigit
  | s => readDigits limit 0 s

/-! ## Numerals -/

/-- A number up to `limit`: an optional plus sign, then one or more digits. -/
def readUnsigned (limit : Nat) : Text → Except NumeralFault Nat
  | [] => .error .empty
  | '+' :: s => readMagnitude limit s
  | s => readDigits limit 0 s

/-- The greatest port number. -/
def greatestPort : Nat := 65535

/-- A port number with an optional sign; below zero there is none. -/
def readPort : Text → Option Nat
  | '-' :: s => (readMagnitude 0 s).toOption
  | '+' :: s => (readMagnitude greatestPort s).toOption
  | s => (readMagnitude greatestPort s).toOption

/-- The shortest decimal numeral of a number. -/
def decimal (n : Nat) : Text := Nat.toDigits 10 n

/-! ## Small lemmas -/

theorem readDigits_le {limit value n : Nat} {s : Text} (hv : value ≤ limit)
    (h : readDigits limit value s = .ok n) : n ≤ limit := by
  induction s generalizing value with
  | nil => simp only [readDigits, Except.ok.injEq] at h; omega
  | cons c s ih =>
    simp only [readDigits] at h
    split at h
    · split at h
      · exact ih (by assumption) h
      · cases h
    · cases h

end Text

end DumpConversion
