import DumpConversion.CommandLine.Run
import DumpConversion.Proofs.Disk.Places
import DumpConversion.Proofs.Yaml.Documents

/-! # Settings that are written and read again

The document that shows the settings can be saved and read: it gives the settings back, with the mask
in place of a password.

* `Settings.IsWritable`: a setting under a name that the scanner takes for one, with values of one
  line.
* `Settings.parse_yaml`: the tree of the written document.
* `Document.Fills`: entries that name the fields of a record in their order, and what they make of it.
* `Document.ofNode_layout`: the tree is read as a layer with all of the settings.
* `Settings.ofFile_of_printed`: the whole way, through a file.
-/

namespace DumpConversion

set_option autoImplicit false

open Yaml
open Yaml.Scanner (IsName Item nameTokens blockTokens)

/-! ## Written settings -/

namespace Settings

/-- The tree of a value. -/
def valueNode (v : Scalar) : Node := .scalar (contentOf v) (isWrittenPlain v)

/-- The entry of a named value. -/
def valueEntry (f : String × Scalar) : Node × Node := (.scalar f.1.toList true, valueNode f.2)

/-- The tree of a setting. -/
def settingNode : Setting → Node
  | .value v => valueNode v
  | .group fields => .mapping (fields.map valueEntry)

/-- The entry of a named setting. -/
def settingEntry (f : String × Setting) : Node × Node :=
  (.scalar f.1.toList true, settingNode f.2)

/-- The tokens of a named value. -/
def valueTokens (f : String × Scalar) : List Token :=
  nameTokens f.1.toList ++ [.scalar (contentOf f.2) (isWrittenPlain f.2)]

/-- The tokens of a named setting. -/
def settingTokens (f : String × Setting) : List Token :=
  match f.2 with
  | .value v => valueTokens (f.1, v)
  | .group fields => nameTokens f.1.toList ++ blockTokens (fields.flatMap valueTokens)

/-- A value of one line under a name. -/
structure IsWritableValue (f : String × Scalar) : Prop where
  name : IsName f.1.toList
  line : IsLine f.2

/-- A setting that can be written: its names are taken for names and its values stay on their lines. -/
inductive IsWritable : String × Setting → Prop where
  | value {name : String} {v : Scalar} (h : IsWritableValue (name, v)) :
    IsWritable (name, .value v)
  | group {name : String} {fields : List (String × Scalar)} (hname : IsName name.toList)
    (hne : fields ≠ []) (h : ∀ f ∈ fields, IsWritableValue f) : IsWritable (name, .group fields)

theorem item_yamlLine {f : String × Scalar} (h : IsWritableValue f) (k : Nat) :
    Item k (yamlLine k f) (valueTokens f) := by
  have hitem := Scanner.item_value h.name (written_writeScalar h.line (k + 2)) k
  have hline : yamlLine k f = List.replicate k ' ' ++
      (f.1.toList ++ ':' :: ' ' :: (writeScalar (k + 2) f.2 ++ ['\n'])) := by
    simp [yamlLine]
  rw [hline]
  exact hitem

theorem item_yamlEntry {f : String × Setting} (h : IsWritable f) :
    Item 0 (yamlEntry f) (settingTokens f) := by
  cases h with
  | value h => exact item_yamlLine h 0
  | @group name fields hname hne h =>
    have hitem := Scanner.item_section (k := 0) hname hne (fun f hf => item_yamlLine (h f hf) 2)
      (by decide)
    have hlines : yamlEntry (name, .group fields) = List.replicate 0 ' ' ++
        (name.toList ++ ':' :: '\n' :: fields.flatMap (yamlLine 2)) := by
      simp [yamlEntry]
    rw [hlines]
    exact hitem

theorem isEntry_setting (f : String × Setting) :
    Node.IsEntry (settingTokens f) (settingEntry f) := by
  obtain ⟨name, setting⟩ := f
  cases setting with
  | value v => exact Node.isEntry_of_value _ (Node.isValue_scalar _ _)
  | group fields =>
    exact Node.isEntry_of_value _ (Node.isValue_block fun f _ =>
      Node.isEntry_of_value _ (Node.isValue_scalar _ _))

/-! ## The settings -/

/-- The texts and paths among the settings. -/
def texts (s : Settings) : List Text :=
  [s.connection.host, s.connection.user, s.connection.password, s.connection.database,
    s.tools.mysqldump.text, s.tools.sqlite3.text, s.dumpFile.text]

/-- Every text and every path stays on its line. -/
def OnOneLine (s : Settings) : Prop := ∀ t ∈ s.texts, OneLine t

/-- Every name in a document of settings. -/
def fieldNames : List String :=
  Document.settingsFields.map (·.name) ++ Document.connectionFields.map (·.name) ++
    Document.toolFields.map (·.name)

theorem isName_of_mem_fieldNames {name : String} (h : name ∈ fieldNames) : IsName name.toList := by
  obtain ⟨hplain, hdash, hdot, hshort⟩ : plainable name.toList = true ∧
      name.toList.head? ≠ some '-' ∧ name.toList.head? ≠ some '.' ∧
      name.toList.length ≤ Scanner.keyLimit := by
    revert name
    decide
  exact ⟨plainable_iff.mp hplain, hdash, hdot, hshort⟩

theorem isLine_text {t : Text} (h : OneLine t) : IsLine (.text t) := by
  rintro s ⟨⟩
  exact h

theorem isLine_number (n : Nat) : IsLine (.number n) := fun _ h => by cases h

theorem isLine_flag (b : Bool) : IsLine (.flag b) := fun _ h => by cases h

theorem isLine_timeout (n : Option UInt64) : IsLine (timeoutLayout n) := by
  cases n with
  | none => exact fun _ h => by cases h
  | some n => exact isLine_number _

/-- Values that stay on their lines can be written under names of fields. -/
theorem isWritable_values {fields : List (String × Scalar)}
    (hnames : ∀ name ∈ fields.map (·.1), name ∈ fieldNames) (hlines : ∀ f ∈ fields, IsLine f.2) :
    ∀ f ∈ fields, IsWritableValue f := fun f hf =>
  ⟨isName_of_mem_fieldNames (hnames _ (List.mem_map_of_mem hf)), hlines f hf⟩

theorem isWritable_connection {s : Settings} (h : s.OnOneLine) :
    ∀ f ∈ connectionLayout s.connection, IsWritableValue f := by
  refine isWritable_values (fun name hname => ?_) ?_
  · rw [connectionLayout_names] at hname
    exact List.mem_append_left _ (List.mem_append_right _ hname)
  · simp only [connectionLayout, List.forall_mem_cons]
    exact ⟨isLine_text (h _ (by simp [texts])), isLine_number _,
      isLine_text (h _ (by simp [texts])), isLine_text (h _ (by simp [texts])),
      isLine_text (h _ (by simp [texts])), fun _ hf => absurd hf List.not_mem_nil⟩

theorem isWritable_tools {s : Settings} (h : s.OnOneLine) :
    ∀ f ∈ toolLayout s.tools, IsWritableValue f := by
  refine isWritable_values (fun name hname => ?_) ?_
  · rw [toolLayout_names] at hname
    exact List.mem_append_right _ hname
  · simp only [toolLayout, List.forall_mem_cons]
    exact ⟨isLine_text (h _ (by simp [texts])), isLine_text (h _ (by simp [texts])),
      fun _ hf => absurd hf List.not_mem_nil⟩

theorem isWritable_layout {s : Settings} (h : s.OnOneLine) : ∀ f ∈ s.layout, IsWritable f := by
  have hname : ∀ name ∈ s.layout.map (·.1), IsName name.toList := by
    intro name hmem
    rw [layout_names] at hmem
    exact isName_of_mem_fieldNames (List.mem_append_left _ (List.mem_append_left _ hmem))
  have hencoding : OneLine s.encoding.name.toList := by
    refine OneLine.of_all ?_
    cases s.encoding <;> decide
  have himporter : OneLine s.importer.name.toList := by
    refine OneLine.of_all ?_
    cases s.importer <;> decide
  simp only [layout, List.map_cons, List.forall_mem_cons] at hname
  obtain ⟨hmysql, htools, hdump, hcharset, hmethod, htimeout, hverify, hrestore, -⟩ := hname
  simp only [layout, List.forall_mem_cons]
  exact ⟨.group hmysql (List.cons_ne_nil _ _) (isWritable_connection h),
    .group htools (List.cons_ne_nil _ _) (isWritable_tools h),
    .value ⟨hdump, isLine_text (h _ (by simp [texts]))⟩, .value ⟨hcharset, isLine_text hencoding⟩,
    .value ⟨hmethod, isLine_text himporter⟩, .value ⟨htimeout, isLine_timeout _⟩,
    .value ⟨hverify, isLine_flag _⟩, .value ⟨hrestore, isLine_flag _⟩,
    fun _ hf => absurd hf List.not_mem_nil⟩

/-- The tree of the written document. -/
theorem parse_yaml {s : Settings} (h : s.OnOneLine) :
    Node.parse s.yaml = .ok (some (.mapping (s.layout.map settingEntry))) :=
  Node.parse_items (List.cons_ne_nil _ _) (fun f hf => item_yamlEntry (isWritable_layout h f hf))
    (fun f _ => isEntry_setting f)

end Settings

/-! ## Reading in order -/

namespace Document

/-- Entries that name the fields in their order, and the record before and after them. -/
inductive Fills {α : Type} : List (Field α) → List (Node × Node) → α → α → Prop where
  | nil {r : α} : Fills [] [] r r
  | cons {f : Field α} {fields : List (Field α)} {plain : Bool} {value : Node}
    {entries : List (Node × Node)} {r next last : α} (hread : f.read value r = .ok next)
    (hrest : Fills fields entries next last) :
    Fills (f :: fields) ((.scalar f.name.toList plain, value) :: entries) r last

theorem readEntries_of_fills {α : Type} (earlier : List (Field α)) {later : List (Field α)}
    {entries : List (Node × Node)} {seen : List Text} {r last : α}
    (hnodup : ((earlier ++ later).map (·.name)).Nodup)
    (hseen : ∀ n ∈ seen, ∃ f ∈ earlier, f.name.toList = n) (h : Fills later entries r last) :
    readEntries (earlier ++ later) seen entries r = .ok last := by
  -- The names seen so far are those of the earlier fields, so each field is found and is new.
  induction h generalizing earlier seen with
  | nil => rfl
  | @cons f fields plain value entries r next last hread hrest ih =>
    have hapart : ∀ g ∈ earlier, g.name.toList ≠ f.name.toList := by
      intro g hg heq
      rw [List.map_append, List.map_cons, List.nodup_append] at hnodup
      exact hnodup.2.2 _ (List.mem_map_of_mem hg) _ List.mem_cons_self (String.toList_inj.mp heq)
    have hfind : (earlier ++ f :: fields).find?
        (fun g => decide (g.name.toList = f.name.toList)) = some f := by
      rw [List.find?_append, List.find?_eq_none.mpr (by simpa using hapart)]
      simp
    have hfresh : f.name.toList ∉ seen := by
      intro hmem
      obtain ⟨g, hg, heq⟩ := hseen _ hmem
      exact hapart g hg heq
    have hseen' : ∀ n ∈ f.name.toList :: seen, ∃ g ∈ earlier ++ [f], g.name.toList = n := by
      intro n hn
      rcases List.mem_cons.mp hn with rfl | hn
      · exact ⟨f, by simp, rfl⟩
      · obtain ⟨g, hg, heq⟩ := hseen n hn
        exact ⟨g, by simp [hg], heq⟩
    have hnext := ih (earlier ++ [f]) (by simpa using hnodup) hseen'
    rw [List.append_assoc, List.singleton_append] at hnext
    simp only [readEntries, readText, bind, Except.bind, hfind, if_neg hfresh, hread]
    exact hnext

/-- A mapping that names every field in order is read field by field. -/
theorem readRecord_of_fills {α : Type} (field : String) {fields : List (Field α)}
    {entries : List (Node × Node)} {r last : α} (hnodup : (fields.map (·.name)).Nodup)
    (h : Fills fields entries r last) :
    readRecord field fields (.mapping entries) r = .ok last :=
  readEntries_of_fills [] hnodup (fun _ hn => absurd hn List.not_mem_nil) h

/-! ## Values that are read -/

theorem Field.of_read {α β : Type} {name : String}
    {read : String → Node → Except DocumentFault β} {store : β → α → α} {n : Node} {v : β}
    (h : read name n = .ok v) (r : α) : (Field.of name read store).read n r = .ok (store v r) := by
  simp [Field.of, h, Except.map]

open Settings (valueNode valueEntry settingEntry timeoutLayout)

theorem readNat_number (field : String) {limit n : Nat} (h : n ≤ limit) :
    readNat field limit (valueNode (.number n)) = .ok n := by
  simp [readNat, valueNode, contentOf, isWrittenPlain, readNumber_decimal, h]

theorem readFlag_flag (field : String) (b : Bool) :
    readFlag field (valueNode (.flag b)) = .ok b := by
  cases b <;> rfl

theorem readTimeout (field : String) (t : Option UInt64) :
    readOptionalNat field greatestTimeout (valueNode (timeoutLayout t)) =
      .ok (t.map UInt64.toNat) := by
  cases t with
  | none => rfl
  | some n =>
    have hlimit : n.toNat ≤ greatestTimeout := Nat.le_sub_one_of_lt n.toNat_lt
    have hread := readNat_number field hlimit
    have hempty : (Text.decimal n.toNat).isEmpty = false :=
      List.isEmpty_eq_false_iff.mpr (decimal_ne_nil _)
    have hnull : nullNames.contains (Text.decimal n.toNat) = false := by
      have hnames : (nullNames.all fun name => name.any fun c => !c.isDigit) = true := by decide
      rw [Bool.eq_false_iff, Ne, List.contains_iff_mem]
      intro hmem
      obtain ⟨c, hc, hdigit⟩ := List.any_eq_true.mp (List.all_eq_true.mp hnames _ hmem)
      exact not_mem_decimal (by simpa using hdigit) hc
    simp only [readOptionalNat, timeoutLayout, valueNode, isWrittenPlain, contentOf, hempty, hnull,
      Bool.or_self, Bool.false_eq_true, if_false]
    exact congrArg (Except.map some) hread

theorem readName_encoding (field : String) (e : Charset) :
    readName field encodingNames (valueNode (.text e.name.toList)) = .ok e := by
  cases e <;> rfl

theorem readName_importer (field : String) (k : LoadMethod) :
    readName field importerNames (valueNode (.text k.name.toList)) = .ok k := by
  cases k <;> rfl

/-! ## The records -/

/-- The layer with all values of a connection. -/
def withConnection (c : Connection) (l : Layer) : Layer :=
  { l with
    host := some c.host
    port := some c.port
    user := some c.user
    password := some c.password
    database := some c.database }

/-- The layer with both programs. -/
def withTools (t : Tools) (l : Layer) : Layer :=
  { l with
    mysqldump := some t.mysqldump
    sqlite3 := some t.sqlite3 }

/-- The layer that sets everything. -/
def layerOf (s : Settings) : Layer :=
  { withTools s.tools (withConnection s.connection Layer.empty) with
    dumpFile := some s.dumpFile
    encoding := some s.encoding
    importer := some s.importer
    timeoutSeconds := some s.timeoutSeconds
    verify := some s.verify
    restoreOnFailure := some s.restoreOnFailure }

theorem layerOf_onto (s r : Settings) : (layerOf s).onto r = s := rfl

theorem fills_connection (c : Connection) (l : Layer) :
    Fills connectionFields ((Settings.connectionLayout c).map valueEntry) l (withConnection c l) := by
  have hport : c.port.toNat ≤ Text.greatestPort := Nat.le_of_lt_succ c.port.toNat_lt
  have hfills : Fills connectionFields ((Settings.connectionLayout c).map valueEntry) l
      (withConnection { c with port := UInt16.ofNat c.port.toNat } l) :=
    .cons (Field.of_read rfl _) (.cons (Field.of_read (readNat_number _ hport) _)
      (.cons (Field.of_read rfl _) (.cons (Field.of_read rfl _) (.cons (Field.of_read rfl _) .nil))))
  rwa [UInt16.ofNat_toNat] at hfills

theorem fills_tools (t : Tools) (l : Layer) :
    Fills toolFields ((Settings.toolLayout t).map valueEntry) l (withTools t l) :=
  .cons (Field.of_read rfl _) (.cons (Field.of_read rfl _) .nil)

theorem fills_settings (s : Settings) :
    Fills settingsFields (s.layout.map settingEntry) Layer.empty (layerOf s) := by
  have htimeout : (s.timeoutSeconds.map UInt64.toNat).map UInt64.ofNat = s.timeoutSeconds := by
    cases s.timeoutSeconds <;> simp
  have hconnection := readRecord_of_fills "mysql" (by decide)
    (fills_connection s.connection Layer.empty)
  have htools := readRecord_of_fills "tools" (by decide)
    (fills_tools s.tools (withConnection s.connection Layer.empty))
  have hfills : Fills settingsFields (s.layout.map settingEntry) Layer.empty
      (layerOf { s with timeoutSeconds := (s.timeoutSeconds.map UInt64.toNat).map UInt64.ofNat }) :=
    .cons hconnection (.cons htools
      (.cons (Field.of_read rfl _) (.cons (Field.of_read (readName_encoding _ _) _)
        (.cons (Field.of_read (readName_importer _ _) _)
          (.cons (Field.of_read (readTimeout _ _) _)
            (.cons (Field.of_read (readFlag_flag _ _) _)
              (.cons (Field.of_read (readFlag_flag _ _) _) .nil)))))))
  rwa [htimeout] at hfills

/-- The tree of the settings is read as a layer that sets them all, whatever their texts. -/
theorem ofNode_layout (s : Settings) :
    Layer.ofNode (.mapping (s.layout.map settingEntry)) = .ok (layerOf s) :=
  readRecord_of_fills _ (by decide) (fills_settings s)

end Document

namespace Settings

/-- A document that is written sets everything. -/
theorem ofText_yaml {s : Settings} (h : s.OnOneLine) :
    Layer.ofText s.yaml = .ok (Document.layerOf s) := by
  rw [Layer.ofText, parse_yaml h]
  exact Document.ofNode_layout s

/-! ## Settings that are shown -/

theorem OnOneLine.masked {s : Settings} (h : s.OnOneLine) : s.masked.OnOneLine := by
  unfold Settings.masked
  split
  · exact h
  · have hmask : OneLine mask := OneLine.of_all (by decide)
    simp only [OnOneLine, texts, List.forall_mem_cons] at h ⊢
    obtain ⟨hhost, huser, -, hrest⟩ := h
    exact ⟨hhost, huser, hmask, hrest⟩

/-- Settings whose texts and paths hold no line break are shown in a document from which they are
read: saved under any path, it gives back every setting, except that a password is the mask. -/
theorem ofFile_of_printed {s : Settings} (h : s.OnOneLine) {d d' : Disk} {p : Path}
    (hsaved : d.create p (.ofText (CommandLine.settingsReport false s)) = .ok d') :
    ofFile Layer.ofText d' p = .ok s.masked ∧
      s.masked = { s with connection := { s.connection with
        password := if s.connection.password = [] then [] else mask } } := by
  have hread := Disk.readText_ofText (Disk.read_of_create hsaved)
  have htext : Layer.ofText (CommandLine.settingsReport false s) =
      .ok (Document.layerOf s.masked) := ofText_yaml h.masked
  refine ⟨?_, ?_⟩
  · rw [ofFile, hread]
    simp only [htext, Document.layerOf_onto]
  · by_cases hpassword : s.connection.password = []
    · rw [masked_of_no_password hpassword, if_pos hpassword, ← hpassword]
    · rw [masked, if_neg hpassword, if_neg hpassword]

/-- Texts that would be read as something else without quotes, one with a tab, and an empty one. -/
theorem ofFile_of_printed_odd_texts :
    let s : Settings :=
      { connection := ⟨"null".toList, 3307, "# it's: me".toList, "secret".toList, []⟩
        tools := ⟨Path.ofString "007", Path.ofString "C:\\tab\t"⟩
        dumpFile := Path.ofString "- dump \"1\".sql"
        encoding := .latin1
        importer := .embedded
        timeoutSeconds := none
        verify := false
        restoreOnFailure := true }
    let shown := CommandLine.settingsReport false s
    let d : Disk := ⟨[], []⟩
    let d' := d.set ["shown.yaml".toList] (.file (.ofText shown))
    s.OnOneLine ∧ d.create (Path.ofString "shown.yaml") (.ofText shown) = .ok d' ∧
      ofFile Layer.ofText d' (Path.ofString "shown.yaml") =
        .ok { s with connection := { s.connection with password := mask } } := by
  intro s shown d d'
  have hline : s.OnOneLine := by
    have hall : (s.texts.all fun t => t.all fun c => !isBreak c) = true := by decide
    exact fun t ht => OneLine.of_all (List.all_eq_true.mp hall t ht)
  have hsaved : d.create (Path.ofString "shown.yaml") (.ofText shown) = .ok d' := rfl
  have hread := (ofFile_of_printed hline hsaved).1
  exact ⟨hline, hsaved, hread⟩

end Settings

end DumpConversion
