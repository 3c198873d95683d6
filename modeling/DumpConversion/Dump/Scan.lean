import DumpConversion.Dump.Retained
import DumpConversion.Dump.Charset
import DumpConversion.Dump.Line

/-! # The scan of a dump

A dump is read line by line and written again in the dialect of the target database.

* `Statistics`: what one scan read, wrote, dropped and changed.
* `DumpError`: the two ways in which a dump is refused.
* `scanLine`: the effect of one line. A key line is dropped. A line that closes a block first takes
  the trailing commas off the newest retained line that is not blank. Every retained line is
  changed by the rules of `Line.adapt`.
* `sanitizeText` and `sanitize`: the scan of a text and of bytes in an encoding. The lines of the
  result are joined by the line ending of the input.
-/

namespace DumpConversion

set_option autoImplicit false

/-! ## Results -/

/-- The counts of one scan. -/
structure Statistics where
  read : Nat
  written : Nat
  keyLines : Nat
  trailingCommas : Nat
  collations : Nat
  characterSets : Nat
  unsigned : Nat
  quotes : Nat
  deriving DecidableEq, Repr

/-- The counts before the first line. -/
def Statistics.zero : Statistics := ⟨0, 0, 0, 0, 0, 0, 0, 0⟩

/-- Why a dump is refused. -/
inductive DumpError where
  /-- The bytes are not well formed in the encoding; the offset is that of the first bad byte. -/
  | undecodable (encoding : Charset) (offset : Nat)
  /-- A line closes a block although no line that is not blank came before it. -/
  | nothingToClose (line : Nat)
  deriving DecidableEq, Repr

/-- The wording of a refusal. -/
def DumpError.message : DumpError → String
  | undecodable encoding offset =>
    s!"Dump is not valid {encoding.name}: malformed byte sequence at offset {offset}"
  | nothingToClose line =>
    s!"Malformed dump at line {line}: ')' has no preceding definition to close"

/-- A dump in the target dialect. -/
structure SanitizedDump where
  text : Text
  lineEnding : LineEnding
  statistics : Statistics
  deriving DecidableEq, Repr

/-! ## One line -/

/-- What the scan holds between two lines. -/
structure ScanState where
  retained : Retained
  statistics : Statistics
  deriving DecidableEq, Repr

namespace ScanState

/-- The state before the first line. -/
def initial : ScanState := ⟨Retained.empty, Statistics.zero⟩

/-- Counts a key line, which is not retained. -/
def dropKeyLine (st : ScanState) : ScanState :=
  { st with statistics :=
    { st.statistics with keyLines := st.statistics.keyLines + 1 } }

/-- Takes the trailing commas off the newest retained line that is not blank. -/
def repairCommas (number : Nat) (st : ScanState) : Except DumpError ScanState :=
  match st.retained.dropTrailingCommas with
  | none => .error (.nothingToClose number)
  | some (retained, removed) =>
    .ok ⟨retained, { st.statistics with
      trailingCommas := st.statistics.trailingCommas + removed }⟩

/-- Retains a line in the new form. -/
def retain (line : Text) (st : ScanState) : ScanState :=
  let r := Line.adapt line
  ⟨st.retained.add r.line, { st.statistics with
    collations := st.statistics.collations + r.collations
    characterSets := st.statistics.characterSets + r.characterSets
    unsigned := st.statistics.unsigned + r.unsigned
    quotes := st.statistics.quotes + r.quotes }⟩

/-- The effect of the line with the given number, trimmed before any rule sees it. -/
def scanLine (number : Nat) (raw : Text) (st : ScanState) : Except DumpError ScanState :=
  let line := Text.trim raw
  let st := { st with statistics :=
    { st.statistics with read := st.statistics.read + 1 } }
  if Line.declaresKey line then .ok st.dropKeyLine
  else if Line.closesTable line then (st.repairCommas number).map (retain line)
  else .ok (st.retain line)

/-- The effect of consecutive lines, the first of which has the given number. -/
def scanLines : Nat → List Text → ScanState → Except DumpError ScanState
  | _, [], st => .ok st
  | number, raw :: rest, st =>
    match st.scanLine number raw with
    | .ok st => scanLines (number + 1) rest st
    | .error e => .error e

end ScanState

/-! ## Whole dumps -/

/-- The statistics of a finished scan: every line read and not dropped was written. -/
def Statistics.finish (s : Statistics) : Statistics :=
  { s with written := s.read - s.keyLines }

/-- Brings the text of a dump into the target dialect. -/
def sanitizeText (s : Text) : Except DumpError SanitizedDump :=
  let ending := LineEnding.ofText s
  (ScanState.initial.scanLines 1 (Text.lines s)).map fun st =>
    ⟨st.retained.joinedBy ending.separator, ending, st.statistics.finish⟩

/-- Brings the bytes of a dump in the given encoding into the target dialect. -/
def sanitize (encoding : Charset) (raw : Bytes) : Except DumpError SanitizedDump :=
  match encoding.decode raw with
  | .ok text => sanitizeText text
  | .error offset => .error (.undecodable encoding offset)

/-! ## Small lemmas -/

theorem sanitize_of_decode {encoding : Charset} {raw : Bytes} {text : Text}
    (h : encoding.decode raw = .ok text) : sanitize encoding raw = sanitizeText text := by
  simp [sanitize, h]

theorem sanitize_of_undecodable {encoding : Charset} {raw : Bytes} {offset : Nat}
    (h : encoding.decode raw = .error offset) :
    sanitize encoding raw = .error (.undecodable encoding offset) := by
  simp [sanitize, h]

theorem sanitizeText_nil :
    sanitizeText [] = .ok ⟨[], .lf, { Statistics.zero with read := 1, written := 1 }⟩ :=
  rfl

end DumpConversion
