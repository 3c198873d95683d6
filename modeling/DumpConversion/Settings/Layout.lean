import DumpConversion.Output.Yaml

/-! # Settings as they are written

One list of named values stands behind every written form of the settings.

* `Setting`: a value or a section of values.
* `Settings.layout`: the names and values in the order in which they are written.
* `Settings.json` and `Settings.yaml`: the written forms.
-/

namespace DumpConversion

set_option autoImplicit false

/-- A value, or a section of named values. -/
inductive Setting where
  | value (s : Scalar)
  | group (fields : List (String × Scalar))
  deriving DecidableEq, Repr

namespace Setting

/-- A text. -/
def text (s : Text) : Setting := value (.text s)

/-- The setting as a tree. -/
def tree : Setting → Tree
  | value s => .scalar s
  | group fields => .record (fields.map fun f => (f.1, .scalar f.2))

end Setting

namespace Settings

/-- The names and values of a connection. -/
def connectionLayout (c : Connection) : List (String × Scalar) :=
  [("host", .text c.host), ("port", .number c.port.toNat), ("user", .text c.user),
    ("password", .text c.password), ("database", .text c.database)]

/-- The names and values of the external programs. -/
def toolLayout (t : Tools) : List (String × Scalar) :=
  [("mysqldump", .text t.mysqldump.text), ("sqlite3", .text t.sqlite3.text)]

/-- A timeout; none is written as null. -/
def timeoutLayout : Option UInt64 → Scalar
  | none => .null
  | some n => .number n.toNat

/-- The names and values of the settings. -/
def layout (s : Settings) : List (String × Setting) :=
  [("mysql", .group (connectionLayout s.connection)),
    ("tools", .group (toolLayout s.tools)),
    ("dump_file", .text s.dumpFile.text),
    ("encoding", .text s.encoding.name.toList),
    ("importer", .text s.importer.name.toList),
    ("timeout_secs", .value (timeoutLayout s.timeoutSeconds)),
    ("verify", .value (.flag s.verify)),
    ("restore_on_failure", .value (.flag s.restoreOnFailure))]

/-! ## Written forms -/

/-- The settings as indented JSON. -/
def json (s : Settings) : Text := (Tree.record (s.layout.map fun f => (f.1, f.2.tree))).pretty

/-- A line with a name and a value at an indentation of `indent` spaces. -/
def yamlLine (indent : Nat) (f : String × Scalar) : Text :=
  List.replicate indent ' ' ++ f.1.toList ++ ": ".toList ++
    Yaml.writeScalar (indent + 2) f.2 ++ ['\n']

/-- A setting under its name. -/
def yamlEntry (f : String × Setting) : Text :=
  match f.2 with
  | .value s => yamlLine 0 (f.1, s)
  | .group fields => f.1.toList ++ ":\n".toList ++ fields.flatMap (yamlLine 2)

/-- The settings as a YAML document. -/
def yaml (s : Settings) : Text := s.layout.flatMap yamlEntry

/-! ## Small lemmas -/

theorem layout_names (s : Settings) :
    s.layout.map (·.1) = Document.settingsFields.map fun f => f.name := rfl

theorem connectionLayout_names (c : Connection) :
    (connectionLayout c).map (·.1) = Document.connectionFields.map fun f => f.name := rfl

theorem toolLayout_names (t : Tools) :
    (toolLayout t).map (·.1) = Document.toolFields.map fun f => f.name := rfl

end Settings

end DumpConversion
