import DumpConversion.Bytes.SingleByte

/-! # Encodings of a dump

The encodings in which the bytes of a dump may arrive.

* `Charset.decode`: the text of a dump, or the offset of its first undecodable byte. The two
  single-byte encodings decode everything.
* `Charset.parse`: the encoding a user names, whatever the case and the surrounding blanks.
-/

namespace DumpConversion

set_option autoImplicit false

/-- The encoding of the bytes of a dump. -/
inductive Charset where
  | windows1252
  | latin1
  | utf8
  deriving DecidableEq, Repr

namespace Charset

/-- The canonical name. -/
def name : Charset → String
  | windows1252 => "windows-1252"
  | latin1 => "latin1"
  | utf8 => "utf8"

/-- The encoding assumed when none is named. -/
def default : Charset := windows1252

/-! ## Decoding -/

/-- The text of the bytes, or the length of the longest front that can be decoded. -/
def decode : Charset → Bytes → Except Nat Text
  | windows1252, raw => .ok (raw.map SingleByte.windows1252)
  | latin1, raw => .ok (raw.map SingleByte.latin1)
  | utf8, raw => Utf8.decode raw

/-! ## Names given by a user -/

/-- The names a user may give, in lower case. -/
def givenNames : List (String × Charset) :=
  [("windows-1252", windows1252), ("windows1252", windows1252), ("cp1252", windows1252),
    ("latin1", latin1), ("latin-1", latin1), ("iso-8859-1", latin1),
    ("utf8", utf8), ("utf-8", utf8)]

/-- A name that is no encoding, in the lower-case form in which it was looked up. -/
structure Unknown where
  name : Text
  deriving DecidableEq, Repr

/-- The wording for an unknown name. -/
def Unknown.message (u : Unknown) : String :=
  let shown := String.ofList u.name
  s!"unknown encoding '{shown}' (expected one of: windows-1252, latin1, utf8)"

/-- The encoding a user names; blanks around the name and the case of its ASCII letters do not
matter. -/
def parse (s : Text) : Except Unknown Charset :=
  let wanted := (Text.trim s).map Char.toLower
  match givenNames.find? fun n => decide (n.1.toList = wanted) with
  | some n => .ok n.2
  | none => .error ⟨wanted⟩

/-! ## Small lemmas -/

theorem decode_windows1252 (raw : Bytes) :
    windows1252.decode raw = .ok (raw.map SingleByte.windows1252) := rfl

theorem decode_latin1 (raw : Bytes) : latin1.decode raw = .ok (raw.map SingleByte.latin1) := rfl

theorem parse_name (e : Charset) : parse e.name.toList = .ok e := by
  cases e <;> rfl

end Charset

end DumpConversion
