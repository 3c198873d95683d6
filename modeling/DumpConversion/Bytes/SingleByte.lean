import DumpConversion.Bytes.Utf8

/-! # Single-byte encodings

Encodings in which every byte is one character, so that decoding never fails.

* `latin1`: every byte stands for the code point of the same value.
* `windows1252`: the same, except for the bytes `0x80` to `0x9F`, which stand for the characters of
  `windowsUpper`. The five of them without a character of their own keep the control code point.
-/

namespace DumpConversion.SingleByte

set_option autoImplicit false

/-- The character of a byte in ISO 8859-1. -/
def latin1 (b : UInt8) : Char := Char.ofNat b.toNat

/-- The characters of the bytes `0x80` to `0x9F` in Windows code page 1252. -/
def windowsUpper : List Char :=
  ['\u20AC', '\u0081', '\u201A', '\u0192', '\u201E', '\u2026', '\u2020', '\u2021',
    '\u02C6', '\u2030', '\u0160', '\u2039', '\u0152', '\u008D', '\u017D', '\u008F',
    '\u0090', '\u2018', '\u2019', '\u201C', '\u201D', '\u2022', '\u2013', '\u2014',
    '\u02DC', '\u2122', '\u0161', '\u203A', '\u0153', '\u009D', '\u017E', '\u0178']

/-- The character of a byte in Windows code page 1252. -/
def windows1252 (b : UInt8) : Char :=
  if b < 0x80 then latin1 b else windowsUpper.getD (b.toNat - 0x80) (latin1 b)

theorem windowsUpper_length : windowsUpper.length = 32 := rfl

theorem windows1252_eq_latin1_of_lt {b : UInt8} (h : b < 0x80) : windows1252 b = latin1 b := by
  simp [windows1252, h]

end DumpConversion.SingleByte
