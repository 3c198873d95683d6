import DumpConversion.Settings.Basic
import DumpConversion.Yaml.Node

/-! # Settings documents

What a document sets is read from its YAML tree into a layer.

* `DocumentFault`: why a document is refused.
* `Field`: a named part of a record with the way in which its value is read.
* `readRecord`: the fields of a mapping, each at most once. Names that are not known are passed
  over, and a field that is left out keeps its value.
* `Layer.ofNode`, `Layer.ofText`: the layer of a document.
-/

namespace DumpConversion

set_option autoImplicit false

open Yaml (Node)

/-! ## Faults -/

/-- Why a settings document is refused. -/
inductive DocumentFault where
  | invalid (cause : Yaml.SyntaxFault)
  | wrongType (field : String)
  | badNumber (field : String)
  | unknownName (field : String)
  | duplicateField (field : String)
  | stated (reason : Text)
  deriving DecidableEq, Repr

/-- The wording of a fault. -/
def DocumentFault.message : DocumentFault → String
  | invalid cause => cause.message
  | wrongType field => s!"{field}: invalid type"
  | badNumber field => s!"{field}: invalid number"
  | unknownName field => s!"{field}: unknown name"
  | duplicateField field => s!"{field}: duplicate field"
  | stated reason => String.ofList reason

namespace Document

/-! ## Scalars -/

/-- The plain texts that stand for no value. -/
def nullNames : List Text := ["null".toList, "Null".toList, "NULL".toList, "~".toList]

/-- The plain texts that stand for yes. -/
def trueNames : List Text := ["true".toList, "True".toList, "TRUE".toList]

/-- The plain texts that stand for no. -/
def falseNames : List Text := ["false".toList, "False".toList, "FALSE".toList]

/-- The value of a digit in a base of at most sixteen. -/
def digitIn (base : Nat) (c : Char) : Option Nat :=
  (Yaml.hexValue? c).filter fun d => decide (d < base)

/-- The number written by one or more digits in a base. -/
def readBase (base : Nat) (s : Text) : Option Nat :=
  if s.isEmpty then none
  else s.foldl (fun n c => n.bind fun n => (digitIn base c).map fun d => n * base + d) (some 0)

/-- The number after a mark for its base. -/
def readMarked (s : Text) : Option Nat :=
  match s with
  | '0' :: 'x' :: digits => readBase 16 digits
  | '0' :: 'o' :: digits => readBase 8 digits
  | '0' :: 'b' :: digits => readBase 2 digits
  | _ => none

/-- Two or more decimal digits of which the first is zero. -/
def isPadded (s : Text) : Bool :=
  s.head? == some '0' && decide (1 < s.length) && s.all Text.isDigit

/-- The number of a plain scalar: an optional plus sign and digits, in base ten unless marked. A
decimal number has no zeros in front. -/
def readNumber (s : Text) : Option Nat :=
  let s := if s.head? = some '+' then s.drop 1 else s
  match readMarked s with
  | some n => some n
  | none => if isPadded s then none else readBase 10 s

/-- The content of any scalar. -/
def readText (field : String) : Node → Except DocumentFault Text
  | .scalar content _ => .ok content
  | _ => .error (.wrongType field)

/-- The content of any scalar, as a path. -/
def readPath (field : String) (n : Node) : Except DocumentFault Path :=
  (readText field n).map Path.mk

/-- A plain yes or no. -/
def readFlag (field : String) : Node → Except DocumentFault Bool
  | .scalar content true =>
    if content ∈ trueNames then .ok true
    else if content ∈ falseNames then .ok false
    else .error (.wrongType field)
  | _ => .error (.wrongType field)

/-- A plain number up to `limit`. -/
def readNat (field : String) (limit : Nat) : Node → Except DocumentFault Nat
  | .scalar content true =>
    match readNumber content with
    | some n => if n ≤ limit then .ok n else .error (.badNumber field)
    | none => .error (.badNumber field)
  | _ => .error (.wrongType field)

/-- A number up to `limit`, or none for an empty plain scalar and for the plain texts of null. -/
def readOptionalNat (field : String) (limit : Nat) : Node → Except DocumentFault (Option Nat)
  | .scalar content true =>
    if content.isEmpty || nullNames.contains content then .ok none
    else (readNat field limit (.scalar content true)).map some
  | n => (readNat field limit n).map some

/-- One of a list of names. -/
def readName {α : Type} (field : String) (names : List (String × α)) :
    Node → Except DocumentFault α
  | .scalar content _ =>
    match names.find? fun n => decide (n.1.toList = content) with
    | some n => .ok n.2
    | none => .error (.unknownName field)
  | _ => .error (.wrongType field)

/-! ## Records -/

/-- A named part of a record, with the record after its value has been read. -/
structure Field (α : Type) where
  name : String
  read : Node → α → Except DocumentFault α

/-- A field from a reader of its value and a way to store the value. -/
def Field.of {α β : Type} (name : String) (read : String → Node → Except DocumentFault β)
    (store : β → α → α) : Field α :=
  ⟨name, fun n record => (read name n).map fun value => store value record⟩

/-- Reads the entries of a mapping into a record; `seen` are the names of the fields read so far. -/
def readEntries {α : Type} (fields : List (Field α)) :
    List Text → List (Node × Node) → α → Except DocumentFault α
  | _, [], record => .ok record
  | seen, (key, value) :: rest, record => do
    let name ← readText "key" key
    match fields.find? fun f => decide (f.name.toList = name) with
    | none => readEntries fields seen rest record
    | some f =>
      if name ∈ seen then throw (.duplicateField f.name)
      let record ← f.read value record
      readEntries fields (name :: seen) rest record

/-- Reads a mapping into a record; an empty plain scalar is a mapping without entries. -/
def readRecord {α : Type} (field : String) (fields : List (Field α)) :
    Node → α → Except DocumentFault α
  | .mapping entries, record => readEntries fields [] entries record
  | .scalar [] true, record => .ok record
  | _, _ => .error (.wrongType field)

/-! ## The fields of the settings -/

/-- The names of the encodings in a document. -/
def encodingNames : List (String × Charset) :=
  [("windows-1252", .windows1252), ("cp1252", .windows1252), ("latin1", .latin1),
    ("iso-8859-1", .latin1), ("utf8", .utf8), ("utf-8", .utf8)]

/-- The names of the importers in a document. -/
def importerNames : List (String × LoadMethod) := [("shell", .shell), ("embedded", .embedded)]

/-- The fields of a connection. -/
def connectionFields : List (Field Layer) :=
  [.of "host" readText fun v l => { l with host := some v },
    .of "port" (fun f => readNat f Text.greatestPort)
      fun v l => { l with port := some (UInt16.ofNat v) },
    .of "user" readText fun v l => { l with user := some v },
    .of "password" readText fun v l => { l with password := some v },
    .of "database" readText fun v l => { l with database := some v }]

/-- The fields of the external programs. -/
def toolFields : List (Field Layer) :=
  [.of "mysqldump" readPath fun v l => { l with mysqldump := some v },
    .of "sqlite3" readPath fun v l => { l with sqlite3 := some v }]

/-- The longest timeout in seconds. -/
def greatestTimeout : Nat := Nat.pow 2 64 - 1

/-- A field whose value is a section with fields of its own. -/
def Field.section {α : Type} (name : String) (fields : List (Field α)) : Field α :=
  ⟨name, readRecord name fields⟩

/-- The fields of the settings. -/
def settingsFields : List (Field Layer) :=
  [.section "mysql" connectionFields,
    .section "tools" toolFields,
    .of "dump_file" readPath fun v l => { l with dumpFile := some v },
    .of "encoding" (fun f => readName f encodingNames) fun v l => { l with encoding := some v },
    .of "importer" (fun f => readName f importerNames) fun v l => { l with importer := some v },
    .of "timeout_secs" (fun f => readOptionalNat f greatestTimeout)
      fun v l => { l with timeoutSeconds := some (v.map UInt64.ofNat) },
    .of "verify" readFlag fun v l => { l with verify := some v },
    .of "restore_on_failure" readFlag fun v l => { l with restoreOnFailure := some v }]

end Document

/-! ## Documents -/

/-- What a document sets. -/
def Layer.ofNode (n : Node) : Except DocumentFault Layer :=
  Document.readRecord "settings" Document.settingsFields n Layer.empty

/-- What the document written in a text sets; an empty stream sets nothing. -/
def Layer.ofText (s : Text) : Except DocumentFault Layer :=
  match Node.parse s with
  | .error cause => .error (.invalid cause)
  | .ok none => .ok Layer.empty
  | .ok (some n) => Layer.ofNode n

end DumpConversion
