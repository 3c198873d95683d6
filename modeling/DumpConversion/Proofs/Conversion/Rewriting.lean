import DumpConversion.Conversion.Sanitizing
import DumpConversion.Proofs.Bytes.RoundTrip
import DumpConversion.Proofs.Disk.Places

/-! # Rewriting a dump

A dump is read and scanned as a whole before anything is written. So a refused dump leaves the
machine as it was, and an accepted one ends up in one file, the same wherever that file is.

* `Machine.Rewritten`: one file is written, and nothing else changes.
* `RefusesDump`: the four ways in which a dump is refused.
* `sanitizeInto_eq_error_iff`, `sanitizeInto_eq_ok_iff`: the two outcomes, each with its cause.
* `sanitizeInto_all_or_nothing`: what every run leaves behind, in its own place or in another.
-/

namespace DumpConversion

set_option autoImplicit false

/-! ## Outcomes -/

/-- The second machine has a file with these bytes where the path leads, and is otherwise like the
first. -/
structure Machine.Rewritten (m : Machine) (p : Path) (b : Bytes) (n : Machine) : Prop where
  place : ∃ l, m.disk.Names p l ∧ n.disk.find? l = some (.file (.bytes b)) ∧
    ∀ k, k ≠ l → n.disk.find? k = m.disk.find? k
  read : n.disk.read p = .ok (.bytes b)
  workDir : n.disk.workDir = m.disk.workDir
  environment : n.environment = m.environment
  calls : n.calls = m.calls

/-- A dump is refused when it cannot be read, decoded or scanned, or when its new form cannot be
written. -/
inductive RefusesDump (d : Disk) (input output : Path) (encoding : Charset) : Failure → Prop where
  | unreadable {cause : IoError} (h : d.read input = .error cause) :
    RefusesDump d input output encoding (.io cause)
  | undecodable {raw : Content} {offset : Nat} (h : d.read input = .ok raw)
    (h' : encoding.decode raw.image = .error offset) :
    RefusesDump d input output encoding (.dump input (.undecodable encoding offset))
  | malformed {raw : Content} {text : Text} {cause : DumpError} (h : d.read input = .ok raw)
    (h' : encoding.decode raw.image = .ok text) (h'' : sanitizeText text = .error cause) :
    RefusesDump d input output encoding (.dump input cause)
  | unwritable {raw : Content} {out : SanitizedDump} {cause : IoError}
    (h : d.read input = .ok raw) (h' : sanitize encoding raw.image = .ok out)
    (h'' : d.writable output = .error cause) : RefusesDump d input output encoding (.io cause)

section

variable {d : Disk} {m n : Machine} {input output : Path} {encoding : Charset} {raw : Content}
variable {out : SanitizedDump} {e : Failure} {s : Statistics}

/-! ## One stage after the other -/

theorem sanitizedContent_of_read (h : d.read input = .ok raw) :
    sanitizedContent d input encoding = (sanitize encoding raw.image).mapError (.dump input) := by
  rw [sanitizedContent, h]

theorem sanitizedContent_eq_ok_iff :
    sanitizedContent d input encoding = .ok out ↔
      ∃ raw, d.read input = .ok raw ∧ sanitize encoding raw.image = .ok out := by
  cases hread : d.read input with
  | error cause => simp [sanitizedContent, hread]
  | ok raw =>
    rw [sanitizedContent_of_read hread]
    cases hout : sanitize encoding raw.image <;> simp [Except.mapError, hout]

theorem sanitizeInto_of_content (h : sanitizedContent m.disk input encoding = .ok out) :
    sanitizeInto input output encoding m = match m.disk.writable output with
      | .ok l => (.ok out.statistics, { m with disk := m.disk.set l (.file (.ofText out.text)) })
      | .error cause => (.error (.io cause), m) := by
  rw [sanitizeInto, Procedure.bind_of_ok (Procedure.disk_apply m),
    Procedure.bind_of_ok (Procedure.check_of_ok h m)]
  cases hl : m.disk.writable output with
  | ok l =>
    have hcreate : m.disk.create output (.ofText out.text) =
        .ok (m.disk.set l (.file (.ofText out.text))) := by
      rw [Disk.create, hl]
      rfl
    rw [Procedure.bind_of_ok (Procedure.change_of_ok hcreate)]
    rfl
  | error cause =>
    have hcreate : m.disk.create output (.ofText out.text) = .error cause := by
      rw [Disk.create, hl]
      rfl
    rw [Procedure.bind_of_error (Procedure.change_of_error hcreate)]

/-! ## The two outcomes -/

theorem sanitizeInto_eq_ok_iff :
    sanitizeInto input output encoding m = (.ok s, n) ↔
      ∃ raw out l, m.disk.read input = .ok raw ∧ sanitize encoding raw.image = .ok out ∧
        m.disk.writable output = .ok l ∧ s = out.statistics ∧
        n = { m with disk := m.disk.set l (.file (.ofText out.text)) } := by
  constructor
  · intro h
    cases hcontent : sanitizedContent m.disk input encoding with
    | error e =>
      rw [sanitizeInto_of_error hcontent] at h
      cases h
    | ok out =>
      obtain ⟨raw, hread, hout⟩ := sanitizedContent_eq_ok_iff.mp hcontent
      rw [sanitizeInto_of_content hcontent] at h
      cases hl : m.disk.writable output with
      | error cause =>
        rw [hl] at h
        cases h
      | ok l =>
        rw [hl] at h
        cases h
        exact ⟨raw, out, l, hread, hout, rfl, rfl, rfl⟩
  · rintro ⟨raw, out, l, hread, hout, hl, rfl, rfl⟩
    rw [sanitizeInto_of_content (sanitizedContent_eq_ok_iff.mpr ⟨raw, hread, hout⟩), hl]

theorem RefusesDump.sanitizeInto (h : RefusesDump m.disk input output encoding e) :
    DumpConversion.sanitizeInto input output encoding m = (.error e, m) := by
  cases h with
  | unreadable h =>
    refine sanitizeInto_of_error ?_
    rw [sanitizedContent, h]
  | undecodable h h' =>
    refine sanitizeInto_of_error ?_
    rw [sanitizedContent_of_read h, sanitize_of_undecodable h']
    rfl
  | malformed h h' h'' =>
    refine sanitizeInto_of_error ?_
    rw [sanitizedContent_of_read h, sanitize_of_decode h', h'']
    rfl
  | unwritable h h' h'' =>
    rw [sanitizeInto_of_content (sanitizedContent_eq_ok_iff.mpr ⟨_, h, h'⟩), h'']

theorem exists_refusesDump (h : ∀ raw out l, m.disk.read input = .ok raw →
    sanitize encoding raw.image = .ok out → m.disk.writable output ≠ .ok l) :
    ∃ e, RefusesDump m.disk input output encoding e := by
  cases hread : m.disk.read input with
  | error cause => exact ⟨_, .unreadable hread⟩
  | ok raw =>
    cases htext : encoding.decode raw.image with
    | error offset => exact ⟨_, .undecodable hread htext⟩
    | ok text =>
      cases hout : sanitizeText text with
      | error cause => exact ⟨_, .malformed hread htext hout⟩
      | ok out =>
        rw [← sanitize_of_decode htext] at hout
        cases hl : m.disk.writable output with
        | error cause => exact ⟨_, .unwritable hread hout hl⟩
        | ok l => exact absurd hl (h raw out l hread hout)

theorem sanitizeInto_eq_error_iff :
    sanitizeInto input output encoding m = (.error e, n) ↔
      n = m ∧ RefusesDump m.disk input output encoding e := by
  constructor
  · intro h
    obtain ⟨e', he⟩ : ∃ e', RefusesDump m.disk input output encoding e' := by
      refine exists_refusesDump fun raw out l hread hout hl => ?_
      rw [sanitizeInto_eq_ok_iff.mpr ⟨raw, out, l, hread, hout, hl, rfl, rfl⟩] at h
      cases h
    rw [he.sanitizeInto] at h
    cases h
    exact ⟨rfl, he⟩
  · rintro ⟨rfl, he⟩
    exact he.sanitizeInto

theorem rewritten_of_writable {l : Location} {text : Text} (h : m.disk.writable output = .ok l) :
    m.Rewritten output (Utf8.encode text)
      { m with disk := m.disk.set l (.file (.ofText text)) } := by
  obtain ⟨hl, hdir⟩ := Disk.writable_eq_ok_iff.mp h
  have hfound := Disk.find?_set_self m.disk l (.file (.ofText text)) hl.ne_nil
  exact ⟨⟨l, hl, hfound, fun k hk => Disk.find?_set_of_ne m.disk _ hk⟩,
    ((Disk.KeepsDirectories.set hdir _).names hl).read hfound rfl, rfl, rfl, rfl⟩

end

/-- A refused dump changes nothing. An accepted one changes one file, which then holds the scan of
the bytes that the input had, in UTF-8; the statistics are those of the scan. So neither the bytes
nor the statistics hang on where a dump is written, be it in its own place. -/
theorem sanitizeInto_all_or_nothing (input output : Path) (encoding : Charset) (m : Machine) :
    (∀ e n, sanitizeInto input output encoding m = (.error e, n) ↔
      n = m ∧ RefusesDump m.disk input output encoding e) ∧
    (∀ s n, sanitizeInto input output encoding m = (.ok s, n) →
      ∃ raw out, m.disk.read input = .ok raw ∧ sanitize encoding raw.image = .ok out ∧
        s = out.statistics ∧ m.Rewritten output (Utf8.encode out.text) n) ∧
    ∀ other s n s' n', sanitizeInto input output encoding m = (.ok s, n) →
      sanitizeInto input other encoding m = (.ok s', n') →
        s' = s ∧ n'.disk.read other = n.disk.read output := by
  have hrewritten : ∀ {p s n}, sanitizeInto input p encoding m = (.ok s, n) →
      ∃ raw out, m.disk.read input = .ok raw ∧ sanitize encoding raw.image = .ok out ∧
        s = out.statistics ∧ m.Rewritten p (Utf8.encode out.text) n := by
    intro p s n h
    obtain ⟨raw, out, l, hread, hout, hl, rfl, rfl⟩ := sanitizeInto_eq_ok_iff.mp h
    exact ⟨raw, out, hread, hout, rfl, rewritten_of_writable hl⟩
  refine ⟨fun e n => sanitizeInto_eq_error_iff, fun s n => hrewritten, ?_⟩
  intro other s n s' n' h h'
  -- both runs start on one machine, so they read the same bytes
  obtain ⟨raw, out, hread, hout, rfl, hthere⟩ := hrewritten h
  obtain ⟨raw', out', hread', hout', rfl, hhere⟩ := hrewritten h'
  rw [hread] at hread'
  cases hread'
  rw [hout] at hout'
  cases hout'
  exact ⟨rfl, hhere.read.trans hthere.read.symm⟩

/-- A column loses its qualifier in the place of the old line and in a file beside it. -/
theorem sanitizeInto_all_or_nothing_of_column :
    let input := Path.ofString "in.sql"
    let output := Path.ofString "out.sql"
    let m : Machine :=
      ⟨⟨[(["in.sql".toList], .file (.ofText "\"a\" int unsigned".toList))], []⟩, [], []⟩
    ∃ s n n', sanitizeInto input output .utf8 m = (.ok s, n) ∧
      sanitizeInto input input .utf8 m = (.ok s, n') ∧ s.unsigned = 1 ∧
      m.Rewritten output (Utf8.encode "\"a\" int".toList) n ∧
      n'.disk.read input = n.disk.read output := by
  intro input output m
  let out : SanitizedDump := ⟨"\"a\" int".toList, .lf,
    { Statistics.zero with read := 1, written := 1, unsigned := 1 }⟩
  have hread : m.disk.read input = .ok (.ofText "\"a\" int unsigned".toList) := rfl
  have hout : sanitize .utf8 (Content.ofText "\"a\" int unsigned".toList).image = .ok out := by
    have htext : Charset.utf8.decode (Content.ofText "\"a\" int unsigned".toList).image =
        .ok "\"a\" int unsigned".toList := Utf8.decode_encode _
    rw [sanitize_of_decode htext]
    rfl
  obtain ⟨n, hthere⟩ : ∃ n, sanitizeInto input output .utf8 m = (.ok out.statistics, n) :=
    ⟨_, sanitizeInto_eq_ok_iff.mpr ⟨_, out, _, hread, hout, rfl, rfl, rfl⟩⟩
  obtain ⟨n', hhere⟩ : ∃ n, sanitizeInto input input .utf8 m = (.ok out.statistics, n) :=
    ⟨_, sanitizeInto_eq_ok_iff.mpr ⟨_, out, _, hread, hout, rfl, rfl, rfl⟩⟩
  obtain ⟨-, hok, hsame⟩ := sanitizeInto_all_or_nothing input output .utf8 m
  obtain ⟨raw, out', hraw, hout', -, hrewritten⟩ := hok _ _ hthere
  rw [hread] at hraw
  cases hraw
  rw [hout] at hout'
  cases hout'
  exact ⟨_, n, n', hthere, hhere, rfl, hrewritten, (hsame _ _ _ _ _ hthere hhere).2⟩

end DumpConversion
