import DumpConversion.Settings.Document

/-! # The fields of a settings document

A document sets what it has a value for, and a setting has what its reader makes of that value.

* `Yaml.Node.under?`: the value under a name.
* `Document.Field.Acts`: what a field does to a part of a record.
* `Document.Sets`: a part of a record that the field of one name changes and no other field touches.
* `Document.Sets.readRecord`: what becomes of such a part when a record is read.
* `Layer.ReadFrom`: a layer with what a document has under the names of the settings.
* `Layer.ofText_readFrom`: the layer of a document is the one read from it.
-/

namespace DumpConversion

set_option autoImplicit false

/-! ## Values under names -/

namespace Yaml.Node

/-- A scalar with the given content. -/
def spells (name : String) : Node → Bool
  | .scalar content _ => decide (content = name.toList)
  | _ => false

/-- The first value under a name in a list of entries. -/
def firstUnder (name : String) (entries : List (Node × Node)) : Option Node :=
  (entries.find? fun e => e.1.spells name).map (·.2)

/-- The value under a name in a mapping. -/
def under? (name : String) : Node → Option Node
  | .mapping entries => firstUnder name entries
  | _ => none

theorem firstUnder_cons_of_eq (name : String) (plain : Bool) (value : Node)
    (rest : List (Node × Node)) :
    firstUnder name ((.scalar name.toList plain, value) :: rest) = some value := by
  simp [firstUnder, spells]

theorem firstUnder_cons_of_ne {name : String} {content : Text} (h : content ≠ name.toList)
    (plain : Bool) (value : Node) (rest : List (Node × Node)) :
    firstUnder name ((.scalar content plain, value) :: rest) = firstUnder name rest := by
  simp [firstUnder, spells, h]

end Yaml.Node

namespace Document

open Yaml (Node)

variable {α β : Type} {fields : List (Field α)} {name : String} {part : α → β}
  {change : Node → β → β → Prop}

/-! ## Entries -/

theorem readText_eq_ok_iff {field : String} {n : Node} {s : Text} :
    readText field n = .ok s ↔ ∃ plain, n = .scalar s plain := by
  cases n with
  | scalar content plain => simp [readText]
  | sequence items => simp [readText]
  | mapping entries => simp [readText]

/-- What reading one more entry comes to. -/
theorem readEntries_cons {seen : List Text} {key value : Node} {rest : List (Node × Node)}
    {record r : α} (h : readEntries fields seen ((key, value) :: rest) record = .ok r) :
    ∃ content plain, key = .scalar content plain ∧
      ((fields.find? (fun f => decide (f.name.toList = content)) = none ∧
          readEntries fields seen rest record = .ok r) ∨
        ∃ f next, fields.find? (fun f => decide (f.name.toList = content)) = some f ∧
          content ∉ seen ∧ f.read value record = .ok next ∧
          readEntries fields (content :: seen) rest next = .ok r) := by
  cases hkey : readText "key" key with
  | error e => simp [readEntries, hkey, bind, Except.bind] at h
  | ok content =>
    obtain ⟨plain, rfl⟩ := readText_eq_ok_iff.mp hkey
    refine ⟨content, plain, rfl, ?_⟩
    cases hfield : fields.find? fun f => decide (f.name.toList = content) with
    | none =>
      simp only [readEntries, hkey, bind, Except.bind, hfield] at h
      exact .inl ⟨rfl, h⟩
    | some f =>
      by_cases hseen : content ∈ seen
      · simp [readEntries, hkey, bind, Except.bind, hfield, hseen, throw, throwThe,
          MonadExceptOf.throw] at h
      cases hvalue : f.read value record with
      | error e =>
        simp [readEntries, hkey, bind, Except.bind, hfield, hseen, hvalue] at h
      | ok next =>
        simp only [readEntries, hkey, bind, Except.bind, hfield, hseen, hvalue, if_false] at h
        exact .inr ⟨f, next, rfl, hseen, hvalue, h⟩

/-! ## Parts of a record -/

/-- What a field makes of a part of the record, whatever value it is given and accepts. -/
def Field.Acts (f : Field α) (part : α → β) (change : Node → β → β → Prop) : Prop :=
  ∀ n record next, f.read n record = .ok next → change n (part record) (part next)

/-- The part stays as it is. -/
def Kept (_ : Node) (before after : β) : Prop := after = before

/-- The part becomes what is read. -/
def Stored (read : Node → Except DocumentFault β) (n : Node) (_ after : Option β) : Prop :=
  ∃ v, read n = .ok v ∧ after = some v

/-- The change by a value that may be left out. -/
def Given (change : Node → β → β → Prop) : Option Node → β → β → Prop
  | none, before, after => after = before
  | some n, before, after => change n before after

/-- A part of a record that the field of the name changes and the other fields leave alone. -/
structure Sets (fields : List (Field α)) (name : String) (part : α → β)
    (change : Node → β → β → Prop) : Prop where
  known : ∃ f ∈ fields, f.name = name
  own : ∀ f ∈ fields, f.name = name → f.Acts part change
  others : ∀ f ∈ fields, f.name ≠ name → f.Acts part Kept

theorem Sets.find_ne_none (c : Sets fields name part change) :
    fields.find? (fun f => decide (f.name.toList = name.toList)) ≠ none := by
  obtain ⟨f, hf, rfl⟩ := c.known
  intro h
  simpa using List.find?_eq_none.mp h f hf

theorem Sets.head {f : Field α} (hown : f.Acts part change)
    (hothers : ∀ g ∈ fields, g.Acts part Kept) (hnames : f.name ∉ fields.map (·.name)) :
    Sets (f :: fields) f.name part change where
  known := ⟨f, List.mem_cons_self, rfl⟩
  own g hg hname := by
    rcases List.mem_cons.mp hg with rfl | hg
    · exact hown
    · exact absurd (hname ▸ List.mem_map_of_mem hg) hnames
  others g hg hname := by
    rcases List.mem_cons.mp hg with rfl | hg
    · exact absurd rfl hname
    · exact hothers g hg

theorem Sets.tail {f : Field α} (hname : f.name ≠ name) (hkept : f.Acts part Kept)
    (c : Sets fields name part change) : Sets (f :: fields) name part change where
  known := by
    obtain ⟨g, hg, hknown⟩ := c.known
    exact ⟨g, List.mem_cons_of_mem f hg, hknown⟩
  own g hg hgname := by
    rcases List.mem_cons.mp hg with rfl | hg
    · exact absurd hgname hname
    · exact c.own g hg hgname
  others g hg hgname := by
    rcases List.mem_cons.mp hg with rfl | hg
    · exact hkept
    · exact c.others g hg hgname

/-- The first value under the name changes the part, and a name does not come again: what was seen
before stays. -/
theorem Sets.readEntries (c : Sets fields name part change) {entries : List (Node × Node)}
    {seen : List Text} {record r : α} (h : readEntries fields seen entries record = .ok r) :
    Given change (Node.firstUnder name entries) (part record) (part r) ∧
      (name.toList ∈ seen → part r = part record) := by
  induction entries generalizing seen record with
  | nil =>
    obtain rfl : record = r := by simpa [Document.readEntries] using h
    exact ⟨rfl, fun _ => rfl⟩
  | cons entry rest ih =>
    obtain ⟨key, value⟩ := entry
    obtain ⟨content, plain, rfl, ⟨hunknown, hrest⟩ | ⟨f, next, hfield, hseen, hvalue, hrest⟩⟩ :=
      readEntries_cons h
    · have hne : content ≠ name.toList := by
        rintro rfl
        exact c.find_ne_none hunknown
      rw [Node.firstUnder_cons_of_ne hne]
      exact ih hrest
    have hf : f ∈ fields := List.mem_of_find?_eq_some hfield
    have hname : f.name.toList = content := by simpa using List.find?_some hfield
    obtain ⟨hgiven, hlater⟩ := ih hrest
    by_cases heq : content = name.toList
    · -- no later entry has the name, so the part stays what this entry makes it
      subst heq
      refine ⟨?_, fun hmem => absurd hmem hseen⟩
      rw [Node.firstUnder_cons_of_eq, hlater List.mem_cons_self]
      exact c.own f hf (String.toList_inj.mp hname) value record next hvalue
    · have hne : f.name ≠ name := fun e => heq (by rw [← hname, e])
      have hkept : part next = part record := c.others f hf hne value record next hvalue
      rw [Node.firstUnder_cons_of_ne heq, ← hkept]
      exact ⟨hgiven, fun hmem => hlater (List.mem_cons_of_mem _ hmem)⟩

theorem Sets.readRecord (c : Sets fields name part change) {field : String} {n : Node} {base r : α}
    (h : readRecord field fields n base = .ok r) :
    Given change (n.under? name) (part base) (part r) := by
  match n, h with
  | .mapping entries, h => exact (c.readEntries h).1
  | .scalar [] true, h =>
    obtain rfl : base = r := by simpa [Document.readRecord] using h
    rfl

/-- What no field of a record touches stays as it is. -/
theorem readRecord_kept {field : String} {n : Node} {base r : α}
    (hfields : ∀ f ∈ fields, f.Acts part Kept) (h : readRecord field fields n base = .ok r) :
    part r = part base := by
  have hentries {entries : List (Node × Node)} {seen : List Text} {record : α}
      (h : readEntries fields seen entries record = .ok r) : part r = part record := by
    induction entries generalizing seen record with
    | nil =>
      obtain rfl : record = r := by simpa [readEntries] using h
      rfl
    | cons entry rest ih =>
      obtain ⟨content, plain, -, ⟨-, hrest⟩ | ⟨f, next, hfield, -, hvalue, hrest⟩⟩ :=
        readEntries_cons h
      · exact ih hrest
      · exact (ih hrest).trans
          (hfields f (List.mem_of_find?_eq_some hfield) entry.2 record next hvalue)
  match n, h with
  | .mapping entries, h => exact hentries h
  | .scalar [] true, h =>
    obtain rfl : base = r := by simpa [readRecord] using h
    rfl

/-! ## Kinds of fields -/

section Kinds

variable {γ : Type} {field : String} {readValue : String → Node → Except DocumentFault γ}
  {store : γ → α → α}

@[simp] theorem Field.of_name : (Field.of field readValue store).name = field := rfl

@[simp] theorem Field.section_name (field : String) (fields : List (Field α)) :
    (Field.section field fields).name = field := rfl

/-- What a field comes to is what storing a value that was read comes to. -/
@[simp] theorem Field.acts_of_iff : (Field.of field readValue store).Acts part change ↔
    ∀ n v, readValue field n = .ok v → ∀ record, change n (part record) (part (store v record)) := by
  constructor
  · intro h n v hv record
    exact h n record _ (by simp [Field.of, hv, Except.map])
  · intro h n record next hn
    cases hv : readValue field n with
    | error e => simp [Field.of, hv, Except.map] at hn
    | ok v =>
      obtain rfl : store v record = next := by simpa [Field.of, hv, Except.map] using hn
      exact h n v hv record

theorem Field.section_acts (c : Sets fields name part change) :
    (Field.section field fields).Acts part (fun n => Given change (n.under? name)) :=
  fun _ _ _ h => c.readRecord h

theorem Field.section_acts_kept (h : ∀ f ∈ fields, f.Acts part Kept) :
    (Field.section field fields).Acts part Kept :=
  fun _ _ _ hread => readRecord_kept h hread

end Kinds

end Document

/-! ## The layer of a document -/

namespace Layer

open Yaml (Node)
open Document

/-- What is left out is read as nothing, and what is there has been read. -/
def ReadAs {β : Type} (read : Node → Except DocumentFault β) : Option Node → Option β → Prop :=
  Option.Rel fun n v => read n = .ok v

/-- The reader of the port. -/
def readPort (n : Node) : Except DocumentFault UInt16 :=
  (readNat "port" Text.greatestPort n).map UInt16.ofNat

/-- The reader of the timeout; null is no timeout. -/
def readTimeout (n : Node) : Except DocumentFault (Option UInt64) :=
  (readOptionalNat "timeout_secs" greatestTimeout n).map fun v => v.map UInt64.ofNat

/-- What a document has under a name, in one of its sections. -/
def inSection (doc : Option Node) (part name : String) : Option Node :=
  (doc.bind (Node.under? part)).bind (Node.under? name)

/-- The values of a document: each is read from what the document has under its name. -/
structure ReadFrom (doc : Option Node) (l : Layer) : Prop where
  host : ReadAs (readText "host") (inSection doc "mysql" "host") l.host
  port : ReadAs readPort (inSection doc "mysql" "port") l.port
  user : ReadAs (readText "user") (inSection doc "mysql" "user") l.user
  password : ReadAs (readText "password") (inSection doc "mysql" "password") l.password
  database : ReadAs (readText "database") (inSection doc "mysql" "database") l.database
  mysqldump : ReadAs (readPath "mysqldump") (inSection doc "tools" "mysqldump") l.mysqldump
  sqlite3 : ReadAs (readPath "sqlite3") (inSection doc "tools" "sqlite3") l.sqlite3
  dumpFile : ReadAs (readPath "dump_file") (doc.bind (Node.under? "dump_file")) l.dumpFile
  encoding : ReadAs (readName "encoding" encodingNames) (doc.bind (Node.under? "encoding")) l.encoding
  importer : ReadAs (readName "importer" importerNames) (doc.bind (Node.under? "importer")) l.importer
  timeoutSeconds : ReadAs readTimeout (doc.bind (Node.under? "timeout_secs")) l.timeoutSeconds
  verify : ReadAs (readFlag "verify") (doc.bind (Node.under? "verify")) l.verify
  restoreOnFailure : ReadAs (readFlag "restore_on_failure")
    (doc.bind (Node.under? "restore_on_failure")) l.restoreOnFailure

section

variable {β : Type} {read : Node → Except DocumentFault β}

theorem readAs_of_given {n : Option Node} {v : Option β} (h : Given (Stored read) n none v) :
    ReadAs read n v := by
  cases n with
  | none =>
    obtain rfl : v = none := h
    exact .none
  | some n =>
    obtain ⟨v, hread, rfl⟩ := h
    exact .some hread

theorem readAs_of_given_section {name : String} {n : Option Node} {v : Option β}
    (h : Given (fun n => Given (Stored read) (n.under? name)) n none v) :
    ReadAs read (n.bind (Node.under? name)) v := by
  cases n with
  | none => exact readAs_of_given (n := none) h
  | some n => exact readAs_of_given h

end

/-- The fields of the settings outside the sections. -/
def plainFields : List (Document.Field Layer) := settingsFields.drop 2

theorem connectionFields_set :
    Sets connectionFields "host" Layer.host (Stored (readText "host")) ∧
    Sets connectionFields "port" Layer.port (Stored readPort) ∧
    Sets connectionFields "user" Layer.user (Stored (readText "user")) ∧
    Sets connectionFields "password" Layer.password (Stored (readText "password")) ∧
    Sets connectionFields "database" Layer.database (Stored (readText "database")) := by
  refine ⟨⟨?_, ?_, ?_⟩, ⟨?_, ?_, ?_⟩, ⟨?_, ?_, ?_⟩, ⟨?_, ?_, ?_⟩, ⟨?_, ?_, ?_⟩⟩ <;>
    simp +contextual [connectionFields, Stored, Kept, readPort, Except.map]

theorem toolFields_set :
    Sets toolFields "mysqldump" Layer.mysqldump (Stored (readPath "mysqldump")) ∧
    Sets toolFields "sqlite3" Layer.sqlite3 (Stored (readPath "sqlite3")) := by
  refine ⟨⟨?_, ?_, ?_⟩, ⟨?_, ?_, ?_⟩⟩ <;>
    simp +contextual [toolFields, Stored, Kept]

theorem plainFields_set :
    Sets plainFields "dump_file" Layer.dumpFile (Stored (readPath "dump_file")) ∧
    Sets plainFields "encoding" Layer.encoding (Stored (readName "encoding" encodingNames)) ∧
    Sets plainFields "importer" Layer.importer (Stored (readName "importer" importerNames)) ∧
    Sets plainFields "timeout_secs" Layer.timeoutSeconds (Stored readTimeout) ∧
    Sets plainFields "verify" Layer.verify (Stored (readFlag "verify")) ∧
    Sets plainFields "restore_on_failure" Layer.restoreOnFailure
      (Stored (readFlag "restore_on_failure")) := by
  refine ⟨⟨?_, ?_, ?_⟩, ⟨?_, ?_, ?_⟩, ⟨?_, ?_, ?_⟩, ⟨?_, ?_, ?_⟩, ⟨?_, ?_, ?_⟩, ⟨?_, ?_, ?_⟩⟩ <;>
    simp +contextual [plainFields, settingsFields, Stored, Kept, readTimeout, Except.map]

/-- Each group of fields leaves alone what the others set. -/
theorem fields_kept :
    (∀ f ∈ toolFields ++ plainFields, f.Acts Layer.host Kept ∧ f.Acts Layer.port Kept ∧
      f.Acts Layer.user Kept ∧ f.Acts Layer.password Kept ∧ f.Acts Layer.database Kept) ∧
    (∀ f ∈ connectionFields ++ plainFields,
      f.Acts Layer.mysqldump Kept ∧ f.Acts Layer.sqlite3 Kept) ∧
    (∀ f ∈ connectionFields ++ toolFields, f.Acts Layer.dumpFile Kept ∧
      f.Acts Layer.encoding Kept ∧ f.Acts Layer.importer Kept ∧
      f.Acts Layer.timeoutSeconds Kept ∧ f.Acts Layer.verify Kept ∧
      f.Acts Layer.restoreOnFailure Kept) := by
  simp [connectionFields, toolFields, plainFields, settingsFields, Kept]

section Parts

variable {n : Node} {l : Layer} {β : Type} {name : String} {part : Layer → Option β}
  {read : Node → Except DocumentFault β}

theorem readAs_of_connection (h : ofNode n = .ok l) (hempty : part empty = none)
    (c : Sets connectionFields name part (Stored read))
    (hothers : ∀ f ∈ toolFields ++ plainFields, f.Acts part Kept) :
    ReadAs read (inSection (some n) "mysql" name) (part l) := by
  obtain ⟨htools, hplain⟩ := List.forall_mem_append.mp hothers
  have hsets : Sets settingsFields "mysql" part fun n => Given (Stored read) (n.under? name) :=
    Sets.head (f := .section "mysql" connectionFields) (Field.section_acts c)
      (List.forall_mem_cons.mpr ⟨Field.section_acts_kept htools, hplain⟩) (by decide)
  exact readAs_of_given_section (hempty ▸ hsets.readRecord h)

theorem readAs_of_tool (h : ofNode n = .ok l) (hempty : part empty = none)
    (c : Sets toolFields name part (Stored read))
    (hothers : ∀ f ∈ connectionFields ++ plainFields, f.Acts part Kept) :
    ReadAs read (inSection (some n) "tools" name) (part l) := by
  obtain ⟨hconnection, hplain⟩ := List.forall_mem_append.mp hothers
  have hsets : Sets settingsFields "tools" part fun n => Given (Stored read) (n.under? name) :=
    Sets.tail (by decide) (Field.section_acts_kept hconnection)
      (Sets.head (f := .section "tools" toolFields) (Field.section_acts c) hplain (by decide))
  exact readAs_of_given_section (hempty ▸ hsets.readRecord h)

theorem readAs_of_plain (h : ofNode n = .ok l) (hempty : part empty = none)
    (hname : name ∉ ["mysql", "tools"]) (c : Sets plainFields name part (Stored read))
    (hothers : ∀ f ∈ connectionFields ++ toolFields, f.Acts part Kept) :
    ReadAs read ((some n).bind (Node.under? name)) (part l) := by
  obtain ⟨hconnection, htools⟩ := List.forall_mem_append.mp hothers
  have hne : "mysql" ≠ name ∧ "tools" ≠ name := by
    constructor <;> rintro rfl <;> simp at hname
  have hsets : Sets settingsFields name part (Stored read) :=
    Sets.tail hne.1 (Field.section_acts_kept hconnection)
      (Sets.tail hne.2 (Field.section_acts_kept htools) c)
  exact readAs_of_given (hempty ▸ hsets.readRecord h)

end Parts

theorem ofNode_readFrom {n : Node} {l : Layer} (h : ofNode n = .ok l) : ReadFrom (some n) l := by
  obtain ⟨hhost, hport, huser, hpassword, hdatabase⟩ := connectionFields_set
  obtain ⟨hmysqldump, hsqlite3⟩ := toolFields_set
  obtain ⟨hdump, hencoding, himporter, htimeout, hverify, hrestore⟩ := plainFields_set
  obtain ⟨hconnection, htool, hplain⟩ := fields_kept
  exact
    { host := readAs_of_connection h rfl hhost fun f hf => (hconnection f hf).1
      port := readAs_of_connection h rfl hport fun f hf => (hconnection f hf).2.1
      user := readAs_of_connection h rfl huser fun f hf => (hconnection f hf).2.2.1
      password := readAs_of_connection h rfl hpassword fun f hf => (hconnection f hf).2.2.2.1
      database := readAs_of_connection h rfl hdatabase fun f hf => (hconnection f hf).2.2.2.2
      mysqldump := readAs_of_tool h rfl hmysqldump fun f hf => (htool f hf).1
      sqlite3 := readAs_of_tool h rfl hsqlite3 fun f hf => (htool f hf).2
      dumpFile := readAs_of_plain h rfl (by decide) hdump fun f hf => (hplain f hf).1
      encoding := readAs_of_plain h rfl (by decide) hencoding fun f hf => (hplain f hf).2.1
      importer := readAs_of_plain h rfl (by decide) himporter fun f hf => (hplain f hf).2.2.1
      timeoutSeconds :=
        readAs_of_plain h rfl (by decide) htimeout fun f hf => (hplain f hf).2.2.2.1
      verify := readAs_of_plain h rfl (by decide) hverify fun f hf => (hplain f hf).2.2.2.2.1
      restoreOnFailure :=
        readAs_of_plain h rfl (by decide) hrestore fun f hf => (hplain f hf).2.2.2.2.2 }

/-- An empty stream sets nothing. -/
theorem readFrom_none : ReadFrom none empty :=
  ⟨.none, .none, .none, .none, .none, .none, .none, .none, .none, .none, .none, .none, .none⟩

/-- The layer of a document has what the document has under the names of the settings. -/
theorem ofText_readFrom {s : Text} {l : Layer} (h : ofText s = .ok l) :
    ∃ doc, Node.parse s = .ok doc ∧ ReadFrom doc l := by
  unfold ofText at h
  cases hparse : Node.parse s with
  | error e => simp [hparse] at h
  | ok doc =>
    refine ⟨doc, rfl, ?_⟩
    cases doc with
    | none =>
      obtain rfl : empty = l := by simpa [hparse] using h
      exact readFrom_none
    | some n => exact ofNode_readFrom (by simpa [hparse] using h)

end Layer

end DumpConversion
