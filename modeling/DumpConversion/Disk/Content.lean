import DumpConversion.Database.Schema

/-! # Contents of files

A file holds either a database or any other bytes. The byte format of a database is left open, apart
from the header that tells it from other files and from not being UTF-8 text.

* `Content.image`: the bytes seen by whoever reads a file as bytes.
* `Content.database?`: the database seen by whoever opens a file as one. A file of at most one byte
  is a database without objects.
* `memoryNames`: the names under which no file is opened.
-/

namespace DumpConversion

set_option autoImplicit false

/-- What a file holds. -/
inductive Content where
  | bytes (b : Bytes)
  | database (d : Database)
  deriving DecidableEq, Repr

/-- The names of a database that lives in memory only. -/
def memoryNames : List Text := [[], ":memory:".toList]

namespace Content

/-- The content of a new file. -/
def empty : Content := bytes []

/-- A text as the content of a file. -/
def ofText (s : Text) : Content := bytes (Utf8.encode s)

/-- The first bytes of every database file. -/
def databaseHeader : Bytes := Utf8.encode "SQLite format 3\x00".toList

/-- A byte that does not occur in UTF-8 text. -/
def textBreaker : UInt8 := 0xFF

/-- The bytes of a file. -/
def image : Content → Bytes
  | bytes b => b
  | database _ => databaseHeader ++ [textBreaker]

/-- The database in a file, if it is one. -/
def database? : Content → Option Database
  | database d => some d
  | bytes b => if b.length ≤ 1 then some Database.empty else none

/-! ## Small lemmas -/

@[simp] theorem image_bytes (b : Bytes) : (bytes b).image = b := rfl

@[simp] theorem image_ofText (s : Text) : (ofText s).image = Utf8.encode s := rfl

@[simp] theorem database?_database (d : Database) : (database d).database? = some d := rfl

end Content

end DumpConversion
