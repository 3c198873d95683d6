import DumpConversion.Text.Blank

/-! # Tokens of a YAML stream

The part of YAML 1.1 in which settings are written: block and flow collections, plain and quoted
scalars, comments and document marks. Anchors, tags, directives and block scalars are refused.

* `SyntaxFault`: why a stream is refused.
* `Position`: line, column and index of a character.
* `plainScalar`, `quotedScalar`: the value of a scalar, with its line breaks folded.
* `Scanner`: the tokens so far and what decides about the next one. A key is known for a key only
  when its colon is reached, so the scanner remembers where a key may have begun.
* `tokens`: the tokens of a whole stream.
-/

namespace DumpConversion.Yaml

set_option autoImplicit false

/-! ## Tokens and faults -/

/-- The tokens of a stream. -/
inductive Token where
  | documentStart
  | documentEnd
  | blockSequenceStart
  | blockMappingStart
  | blockEnd
  | flowSequenceStart
  | flowSequenceEnd
  | flowMappingStart
  | flowMappingEnd
  | blockEntry
  | flowEntry
  | key
  | value
  | scalar (content : Text) (plain : Bool)
  deriving DecidableEq, Repr

/-- Why a stream is refused. -/
inductive SyntaxFault where
  | forbiddenCharacter
  | strayCharacter
  | strayTab
  | strayColon
  | strayMark
  | unfinishedScalar
  | badEscape
  | keyWithoutValue
  | notAllowedHere
  | unexpectedToken
  | severalDocuments
  deriving DecidableEq, Repr

/-- The wording of a fault. -/
def SyntaxFault.message : SyntaxFault → String
  | forbiddenCharacter => "control characters are not allowed"
  | strayCharacter => "found a character that cannot start any token"
  | strayTab => "found a tab character that violates indentation"
  | strayColon => "found an unexpected colon"
  | strayMark => "found an unexpected document mark"
  | unfinishedScalar => "found an unexpected end of the stream"
  | badEscape => "found an unknown escape sequence"
  | keyWithoutValue => "could not find the colon of a key"
  | notAllowedHere => "found a token that is not allowed in this context"
  | unexpectedToken => "did not find the expected token"
  | severalDocuments => "found more than one document"

/-! ## Characters -/

/-- The characters that may stand in a stream. -/
def isAllowed (c : Char) : Bool :=
  let n := c.toNat
  n == 0x09 || n == 0x0A || n == 0x0D || n == 0x85 || (0x20 ≤ n && n ≤ 0x7E) ||
    (0xA0 ≤ n && n ≤ 0xD7FF) || (0xE000 ≤ n && n ≤ 0xFFFD) || 0x10000 ≤ n

/-- Writes every line break that folds as a line feed. -/
def unifyBreaks : Text → Text
  | [] => []
  | '\r' :: '\n' :: s => '\n' :: unifyBreaks s
  | c :: s => (if c = '\r' ∨ c = '\u0085' then '\n' else c) :: unifyBreaks s

/-- A line break; only the line feed folds. -/
def isBreak (c : Char) : Bool := c == '\n' || c == '\u2028' || c == '\u2029'

/-- A space or a tab. -/
def isSpace (c : Char) : Bool := c == ' ' || c == '\t'

/-- Nothing, a space, a tab or a line break comes next. -/
def endsWord (s : Text) : Bool := s.head?.all fun c => isSpace c || isBreak c

/-- The characters that give flow collections their structure. -/
def isFlowIndicator (c : Char) : Bool :=
  c == ',' || c == '[' || c == ']' || c == '{' || c == '}'

/-- The characters that begin no plain scalar, unless the next one allows it. -/
def isIndicator (c : Char) : Bool :=
  isFlowIndicator c || "-?:#&*!|>'\"%@\x60".toList.contains c

/-- Line, column and index of a character, counted from zero. -/
structure Position where
  line : Nat
  column : Nat
  index : Nat
  deriving DecidableEq, Repr

/-- The position of the character after `c`. -/
def Position.after (p : Position) (c : Char) : Position :=
  if isBreak c then ⟨p.line + 1, 0, p.index + 1⟩ else ⟨p.line, p.column + 1, p.index + 1⟩

/-- A mark of three characters that stands alone at the start of a line. -/
def isMark (mark : String) (p : Position) (s : Text) : Bool :=
  p.column == 0 && mark.toList.isPrefixOf s && endsWord (s.drop 3)

/-- One of the two document marks stands here. -/
def isDocumentMark (p : Position) (s : Text) : Bool := isMark "---" p s || isMark "..." p s

/-! ## Gaps inside scalars -/

/-- The spaces and line breaks between two words of a scalar. -/
structure Gap where
  /-- The spaces before the first line break, newest first. -/
  spaces : Text
  /-- A line break has been seen. -/
  broken : Bool
  /-- The first line break, unless it was escaped. -/
  first : Option Char
  /-- The line breaks after the first, newest first. -/
  more : Text

namespace Gap

/-- No gap. -/
def none : Gap := ⟨[], false, .none, []⟩

/-- A gap that begins with an escaped line break. -/
def escaped : Gap := ⟨[], true, .none, []⟩

/-- The gap with one more space or line break. -/
def add (g : Gap) (c : Char) : Gap :=
  if isBreak c then
    if g.broken then { g with more := c :: g.more } else ⟨[], true, some c, []⟩
  else if g.broken then g else { g with spaces := c :: g.spaces }

/-- What stands for the gap in the value: its spaces, one space for a single line feed, and
otherwise the line breaks after a line feed or all of them. -/
def folded (g : Gap) : Text :=
  if g.broken then
    match g.first with
    | some '\n' => if g.more.isEmpty then [' '] else g.more.reverse
    | some c => c :: g.more.reverse
    | .none => g.more.reverse
  else g.spaces.reverse

end Gap

/-! ## Plain scalars -/

/-- A plain scalar with the place where it ends. -/
structure Plain where
  content : Text
  /-- The scalar was followed by a line break. -/
  broken : Bool
  position : Position
  rest : Text

/-- Reads on in a plain scalar whose characters so far are `acc`, newest first. Continuation lines
of a block scalar are indented by at least `indent`; `fresh` holds at the start of a word. -/
def plainFrom (inFlow : Bool) (indent : Nat) :
    Text → Gap → Bool → Position → Text → Except SyntaxFault Plain
  | acc, gap, _, p, [] => .ok ⟨acc.reverse, gap.broken, p, []⟩
  | acc, gap, fresh, p, c :: s =>
    if isSpace c || isBreak c then
      if c == '\t' && gap.broken && decide (p.column < indent) then .error .strayTab
      else plainFrom inFlow indent acc (gap.add c) true (p.after c) s
    else if fresh && (isDocumentMark p (c :: s) || c == '#' ||
        (gap.broken && !inFlow && decide (p.column < indent))) then
      .ok ⟨acc.reverse, gap.broken, p, c :: s⟩
    else if inFlow && c == ':' && s.head?.any (fun d => isFlowIndicator d || d == '?') then
      .error .strayColon
    else if (c == ':' && endsWord s) || (inFlow && isFlowIndicator c) then
      .ok ⟨acc.reverse, gap.broken, p, c :: s⟩
    else plainFrom inFlow indent (c :: (gap.folded.reverse ++ acc)) Gap.none false (p.after c) s

/-- The plain scalar at the front of a text. -/
def plainScalar (inFlow : Bool) (indent : Nat) (p : Position) (s : Text) :
    Except SyntaxFault Plain :=
  plainFrom inFlow indent [] Gap.none true p s

/-! ## Quoted scalars -/

/-- The character that an escape letter stands for. -/
def escapeOf : Char → Option Char
  | '0' => some '\x00'
  | 'a' => some '\x07'
  | 'b' => some '\x08'
  | 't' => some '\t'
  | '\t' => some '\t'
  | 'n' => some '\n'
  | 'v' => some '\x0B'
  | 'f' => some '\x0C'
  | 'r' => some '\r'
  | 'e' => some '\x1B'
  | ' ' => some ' '
  | '"' => some '"'
  | '/' => some '/'
  | '\\' => some '\\'
  | 'N' => some '\u0085'
  | '_' => some '\u00A0'
  | 'L' => some '\u2028'
  | 'P' => some '\u2029'
  | _ => none

/-- The number of hexadecimal digits after an escape letter. -/
def hexWidth : Char → Option Nat
  | 'x' => some 2
  | 'u' => some 4
  | 'U' => some 8
  | _ => none

/-- The value of a hexadecimal digit. -/
def hexValue? (c : Char) : Option Nat :=
  if '0' ≤ c ∧ c ≤ '9' then some (c.toNat - '0'.toNat)
  else if 'a' ≤ c ∧ c ≤ 'f' then some (c.toNat - 'a'.toNat + 10)
  else if 'A' ≤ c ∧ c ≤ 'F' then some (c.toNat - 'A'.toNat + 10)
  else none

/-- The character of a code point, if it is one of a character. -/
def charOf? (n : Nat) : Option Char := if n.isValidChar then some (Char.ofNat n) else none

/-- What the characters before mean for the next one inside quotes. -/
inductive QuoteMode where
  | text
  /-- A backslash came before. -/
  | escape
  /-- Some digits of an escape are missing. -/
  | hex (missing value : Nat)
  /-- A single quote came before, which either closes the scalar or is the first of two. -/
  | quote
  deriving DecidableEq, Repr

/-- A quoted scalar with the place where it ends. -/
structure Quoted where
  content : Text
  position : Position
  rest : Text

/-- Reads on in a quoted scalar whose characters so far are `acc`, newest first. -/
def quotedFrom (single : Bool) :
    QuoteMode → Text → Gap → Position → Text → Except SyntaxFault Quoted
  | .quote, acc, _, p, [] => .ok ⟨acc.reverse, p, []⟩
  | _, _, _, _, [] => .error .unfinishedScalar
  | .quote, acc, gap, p, c :: s =>
    if c = '\'' then quotedFrom single .text (c :: acc) gap (p.after c) s
    else .ok ⟨acc.reverse, p, c :: s⟩
  | .escape, acc, gap, p, c :: s =>
    if isBreak c then quotedFrom single .text acc Gap.escaped (p.after c) s
    else match hexWidth c, escapeOf c with
      | some width, _ => quotedFrom single (.hex width 0) acc gap (p.after c) s
      | none, some e => quotedFrom single .text (e :: acc) gap (p.after c) s
      | none, none => .error .badEscape
  | .hex missing value, acc, gap, p, c :: s =>
    match hexValue? c with
    | none => .error .badEscape
    | some d =>
      if missing ≤ 1 then
        match charOf? (value * 16 + d) with
        | some e => quotedFrom single .text (e :: acc) gap (p.after c) s
        | none => .error .badEscape
      else quotedFrom single (.hex (missing - 1) (value * 16 + d)) acc gap (p.after c) s
  | .text, acc, gap, p, c :: s =>
    if isSpace c || isBreak c then quotedFrom single .text acc (gap.add c) (p.after c) s
    else if isDocumentMark p (c :: s) then .error .strayMark
    else
      let acc := gap.folded.reverse ++ acc
      if single && c == '\'' then quotedFrom single .quote acc Gap.none (p.after c) s
      else if !single && c == '"' then .ok ⟨acc.reverse, p.after c, s⟩
      else if !single && c == '\\' then quotedFrom single .escape acc Gap.none (p.after c) s
      else quotedFrom single .text (c :: acc) Gap.none (p.after c) s

/-- The quoted scalar at the front of a text, after its opening quote. -/
def quotedScalar (single : Bool) (p : Position) (s : Text) : Except SyntaxFault Quoted :=
  quotedFrom single .text [] Gap.none p s

/-! ## Between tokens -/

/-- What follows the spaces, comments and line breaks before a token. -/
structure Ahead where
  keyAllowed : Bool
  position : Position
  rest : Text

/-- Passes over spaces, comments and line breaks. A tab counts as a space inside flow collections
and wherever no key can begin; a line break outside flow collections allows a key. -/
def skipGap (inFlow : Bool) : Bool → Bool → Position → Text → Ahead
  | _, keyAllowed, p, [] => ⟨keyAllowed, p, []⟩
  | comment, keyAllowed, p, c :: s =>
    if isBreak c then skipGap inFlow false (keyAllowed || !inFlow) (p.after c) s
    else if comment then skipGap inFlow true keyAllowed (p.after c) s
    else if c == ' ' || (c == '\t' && (inFlow || !keyAllowed)) then
      skipGap inFlow false keyAllowed (p.after c) s
    else if c == '#' then skipGap inFlow true keyAllowed (p.after c) s
    else ⟨keyAllowed, p, c :: s⟩

/-! ## The scanner -/

/-- A token that may turn out to be the first of a key. -/
structure Candidate where
  /-- The block collection cannot go on here without a key. -/
  required : Bool
  /-- How many tokens come before it. -/
  number : Nat
  position : Position
  deriving DecidableEq, Repr

/-- The state between two tokens. -/
structure Scanner where
  position : Position
  rest : Text
  /-- A key may begin at the next token. -/
  keyAllowed : Bool
  /-- The candidate in the innermost open flow collection, or outside all of them. -/
  candidate : Option Candidate
  /-- The candidates around the open flow collections, innermost first. -/
  outer : List (Option Candidate)
  /-- The columns of the open block collections, innermost first. -/
  indents : List Nat
  /-- The tokens so far, newest first. -/
  newestFirst : List Token

namespace Scanner

/-- The scanner at the start of a stream. A byte order mark is passed over and keeps its column. -/
def start : Text → Scanner
  | '\uFEFF' :: s => ⟨⟨0, 1, 1⟩, s, true, none, [], [], []⟩
  | s => ⟨⟨0, 0, 0⟩, s, true, none, [], [], []⟩

/-- A flow collection is open. -/
def inFlow (st : Scanner) : Bool := !st.outer.isEmpty

/-- Adds a token. -/
def emit (st : Scanner) (t : Token) : Scanner := { st with newestFirst := t :: st.newestFirst }

/-- Puts a token after the first `number` tokens. -/
def emitAt (st : Scanner) (number : Nat) (t : Token) : Scanner :=
  let later := st.newestFirst.length - number
  { st with newestFirst := st.newestFirst.take later ++ t :: st.newestFirst.drop later }

/-- Passes over `n` characters of one line. -/
def advance (st : Scanner) (n : Nat) : Scanner :=
  { st with
    position := ⟨st.position.line, st.position.column + n, st.position.index + n⟩
    rest := st.rest.drop n }

/-- Sets whether a key may begin next. -/
def allowKey (st : Scanner) (allowed : Bool) : Scanner := { st with keyAllowed := allowed }

/-! ### Candidates -/

/-- The longest key in characters. -/
def keyLimit : Nat := 1024

/-- A candidate is out of date on a later line or too far behind. -/
def isStale (p : Position) (c : Candidate) : Bool :=
  decide (c.position.line < p.line) || decide (c.position.index + keyLimit < p.index)

/-- Gives up a candidate; one that is required cannot be given up. -/
def giveUp : Option Candidate → Except SyntaxFault (Option Candidate)
  | none => .ok none
  | some c => if c.required then .error .keyWithoutValue else .ok none

/-- Gives up a candidate if it is out of date. -/
def refresh (p : Position) (c : Option Candidate) : Except SyntaxFault (Option Candidate) :=
  if c.any (isStale p) then giveUp c else .ok c

/-- Gives up every candidate that is out of date. -/
def refreshAll (st : Scanner) : Except SyntaxFault Scanner := do
  let candidate ← refresh st.position st.candidate
  let outer ← st.outer.mapM (refresh st.position)
  return { st with candidate, outer }

/-- Gives up the innermost candidate. -/
def dropCandidate (st : Scanner) : Except SyntaxFault Scanner := do
  let candidate ← giveUp st.candidate
  return { st with candidate }

/-- Remembers the next token as a candidate, if a key may begin here. -/
def saveCandidate (st : Scanner) : Except SyntaxFault Scanner :=
  if st.keyAllowed then do
    let st ← st.dropCandidate
    let required := !st.inFlow && st.indents.head? == some st.position.column
    return { st with candidate := some ⟨required, st.newestFirst.length, st.position⟩ }
  else .ok st

/-! ### Indentation -/

/-- The column lies right of the innermost block collection. -/
def isDeeper (st : Scanner) (column : Nat) : Bool :=
  st.indents.head?.all fun i => decide (i < column)

/-- Opens a block collection at a column right of the innermost one. -/
def openBlock (st : Scanner) (column number : Nat) (t : Token) : Scanner :=
  if !st.inFlow && st.isDeeper column then
    { st.emitAt number t with indents := column :: st.indents }
  else st

/-- Closes the block collections whose columns satisfy `p`, up to the first that does not. -/
def closeWhile (p : Nat → Bool) (st : Scanner) : Scanner :=
  if st.inFlow then st
  else
    let closed := (st.indents.takeWhile p).length
    { st with
      indents := st.indents.drop closed
      newestFirst := List.replicate closed Token.blockEnd ++ st.newestFirst }

/-- Closes the block collections that a token at this column does not belong to. -/
def closeTo (st : Scanner) (column : Nat) : Scanner := st.closeWhile fun i => decide (column < i)

/-- Closes all block collections. -/
def closeAll (st : Scanner) : Scanner := st.closeWhile fun _ => true

/-! ### One token -/

/-- A document mark. -/
def fetchMark (st : Scanner) (t : Token) : Except SyntaxFault Scanner := do
  let st ← st.closeAll.dropCandidate
  return ((st.allowKey false).advance 3).emit t

/-- The start of a flow collection. -/
def fetchFlowStart (st : Scanner) (t : Token) : Except SyntaxFault Scanner := do
  let st ← st.saveCandidate
  let st := { st with candidate := none, outer := st.candidate :: st.outer }
  return ((st.allowKey true).advance 1).emit t

/-- The end of a flow collection. -/
def fetchFlowEnd (st : Scanner) (t : Token) : Except SyntaxFault Scanner := do
  let st ← st.dropCandidate
  let st := match st.outer with
    | [] => st
    | c :: outer => { st with candidate := c, outer }
  return ((st.allowKey false).advance 1).emit t

/-- The comma of a flow collection. -/
def fetchFlowEntry (st : Scanner) : Except SyntaxFault Scanner := do
  let st ← st.dropCandidate
  return ((st.allowKey true).advance 1).emit .flowEntry

/-- Opens a block collection for an indicator that needs no candidate. -/
def openHere (st : Scanner) (t : Token) : Except SyntaxFault Scanner :=
  if st.inFlow then .ok st
  else if st.keyAllowed then .ok (st.openBlock st.position.column st.newestFirst.length t)
  else .error .notAllowedHere

/-- The dash of a block sequence. -/
def fetchBlockEntry (st : Scanner) : Except SyntaxFault Scanner := do
  let st ← st.openHere .blockSequenceStart
  let st ← st.dropCandidate
  return ((st.allowKey true).advance 1).emit .blockEntry

/-- The question mark of an explicit key. -/
def fetchKey (st : Scanner) : Except SyntaxFault Scanner := do
  let st ← st.openHere .blockMappingStart
  let st ← st.dropCandidate
  return ((st.allowKey !st.inFlow).advance 1).emit .key

/-- The colon of a value. A candidate becomes the key, and opens a block mapping where it stands. -/
def fetchValue (st : Scanner) : Except SyntaxFault Scanner :=
  match st.candidate with
  | some c =>
    let st := (st.emitAt c.number .key).openBlock c.position.column c.number .blockMappingStart
    .ok ((({ st with candidate := none }.allowKey false).advance 1).emit .value)
  | none => do
    let st ← st.openHere .blockMappingStart
    return ((st.allowKey !st.inFlow).advance 1).emit .value

/-- A quoted scalar. -/
def fetchQuoted (st : Scanner) (single : Bool) : Except SyntaxFault Scanner := do
  let st ← st.saveCandidate
  let st := st.advance 1
  let q ← quotedScalar single st.position st.rest
  return { st with position := q.position, rest := q.rest, keyAllowed := false }.emit
    (.scalar q.content false)

/-- A plain scalar. -/
def fetchPlain (st : Scanner) : Except SyntaxFault Scanner := do
  let st ← st.saveCandidate
  let indent := match st.indents with
    | [] => 0
    | i :: _ => i + 1
  let q ← plainScalar st.inFlow indent st.position st.rest
  return { st with position := q.position, rest := q.rest, keyAllowed := q.broken }.emit
    (.scalar q.content true)

/-- The token that begins with `c`, which `s` follows. -/
def fetch (st : Scanner) (c : Char) (s : Text) : Except SyntaxFault Scanner :=
  if isMark "---" st.position (c :: s) then st.fetchMark .documentStart
  else if isMark "..." st.position (c :: s) then st.fetchMark .documentEnd
  else if c = '[' then st.fetchFlowStart .flowSequenceStart
  else if c = '{' then st.fetchFlowStart .flowMappingStart
  else if c = ']' then st.fetchFlowEnd .flowSequenceEnd
  else if c = '}' then st.fetchFlowEnd .flowMappingEnd
  else if c = ',' then st.fetchFlowEntry
  else if c = '-' ∧ endsWord s then st.fetchBlockEntry
  else if c = '?' ∧ (st.inFlow ∨ endsWord s) then st.fetchKey
  else if c = ':' ∧ (st.inFlow ∨ endsWord s) then st.fetchValue
  else if c = '\'' then st.fetchQuoted true
  else if c = '"' then st.fetchQuoted false
  else if !isIndicator c ∨ c = '-' ∨ (!st.inFlow ∧ (c = '?' ∨ c = ':')) then
    if isSpace c then .error .strayCharacter else st.fetchPlain
  else .error .strayCharacter

/-- Passes over what stands before the next token and closes the block collections it ends. -/
def settle (st : Scanner) : Except SyntaxFault Scanner := do
  let a := skipGap st.inFlow false st.keyAllowed st.position st.rest
  let st ← { st with keyAllowed := a.keyAllowed, position := a.position, rest := a.rest }.refreshAll
  return match st.rest with
    | [] => st
    | _ => st.closeTo st.position.column

/-- Reads tokens to the end of the stream, at most `fuel` of them. -/
def run : Nat → Scanner → Except SyntaxFault (List Token)
  | 0, _ => .error .strayCharacter
  | fuel + 1, st =>
    match st.settle with
    | .error e => .error e
    | .ok st =>
      match st.rest with
      | [] => st.closeAll.dropCandidate.map fun st => st.newestFirst.reverse
      | c :: s =>
        match st.fetch c s with
        | .error e => .error e
        | .ok st => run fuel st

end Scanner

/-- The tokens of a stream. Every token takes at least one character. -/
def tokens (s : Text) : Except SyntaxFault (List Token) :=
  if s.all isAllowed then
    let s := unifyBreaks s
    (Scanner.start s).run (s.length + 1)
  else .error .forbiddenCharacter

end DumpConversion.Yaml
