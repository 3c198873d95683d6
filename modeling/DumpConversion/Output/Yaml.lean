import DumpConversion.Output.Json
import DumpConversion.Settings.Document

/-! # YAML output

Values as they are written to a YAML document. A text is written in the plainest form that is read
back as the same text.

* `looksTyped`: a plain text would be read as null, a boolean or a number.
* `Yaml.quotable`, `Yaml.plainable`: which forms a text allows.
* `Yaml.writeText`: a text as a plain scalar, between single quotes, between double quotes with
  escapes, or as a literal block.
* `Yaml.writeScalar`: any scalar.
-/

namespace DumpConversion.Yaml

set_option autoImplicit false

open Document (nullNames trueNames falseNames readBase readMarked isPadded)

/-! ## Texts that look like other values -/

/-- The text without a minus sign at its front. -/
def dropMinus (s : Text) : Text := if s.head? = some '-' then s.drop 1 else s

/-- The text without a plus sign at its front. -/
def dropPlus (s : Text) : Text := if s.head? = some '+' then s.drop 1 else s

/-- The least number that does not fit 128 bits. -/
def widestNumber : Nat := Nat.pow 2 128

/-- The greatest magnitude of a signed number of 128 bits. -/
def widestNegative : Nat := Nat.pow 2 127

/-- The text is a whole number with a sign or without one, in a marked base or in base ten. -/
def looksWhole (s : Text) : Bool :=
  let magnitude (t : Text) : Option Nat := (readMarked t).or (readBase 10 t)
  if s.head? = some '-' then (magnitude (s.drop 1)).any fun n => decide (n ≤ widestNegative)
  else (magnitude (dropPlus s)).any fun n => decide (n < widestNumber)

/-- The parts of a decimal fraction: whole digits, digits after the point, and the exponent. -/
structure Fraction where
  whole : Text
  after : Text
  exponent : Int
  deriving Repr

/-- An exponent with an optional sign. -/
def readExponent : Text → Option Int
  | '-' :: s => (readBase 10 s).map fun n => -(n : Int)
  | '+' :: s => (readBase 10 s).map fun n => (n : Int)
  | s => (readBase 10 s).map fun n => (n : Int)

/-- Reads a decimal fraction without a sign. -/
def Fraction.read (s : Text) : Option Fraction :=
  let whole := s.takeWhile Text.isDigit
  let s := s.dropWhile Text.isDigit
  let (after, s) := match s with
    | '.' :: t => (t.takeWhile Text.isDigit, t.dropWhile Text.isDigit)
    | s => ([], s)
  if whole.isEmpty && after.isEmpty then none
  else match s with
    | [] => some ⟨whole, after, 0⟩
    | c :: t => if c = 'e' ∨ c = 'E' then (readExponent t).map (⟨whole, after, ·⟩) else none

/-- The least magnitude that rounds to infinity among the floating-point numbers of 64 bits. -/
def overflowBound : Nat := Nat.pow 2 1024 - Nat.pow 2 970

/-- The fraction has a finite nearest floating-point number. -/
def Fraction.isFinite (f : Fraction) : Bool :=
  let digits := (f.whole ++ f.after).dropWhile (· == '0')
  let shift := f.exponent - f.after.length
  let size := shift + digits.length
  if digits.isEmpty || decide (size < 300) then true
  else if 320 < size then false
  else
    let n := (readBase 10 digits).getD 0
    if 0 ≤ shift then decide (n * Nat.pow 10 shift.toNat < overflowBound)
    else decide (n < overflowBound * Nat.pow 10 (-shift).toNat)

/-- The texts of an infinity without a sign. -/
def infinityNames : List Text := [".inf".toList, ".Inf".toList, ".INF".toList]

/-- The texts that are no number. -/
def nanNames : List Text := [".nan".toList, ".NaN".toList, ".NAN".toList]

/-- The text is a finite fraction, an infinity or the text of no number. -/
def looksFractional (s : Text) : Bool :=
  let t := dropPlus s
  if s.head? = some '+' ∧ (t.head? = some '+' ∨ t.head? = some '-') then false
  else
    infinityNames.contains t || infinityNames.contains (dropMinus s) || nanNames.contains s ||
      (Fraction.read (dropMinus t)).any Fraction.isFinite

/-- The text has digits only, after an optional sign, and begins with a zero that is not all. -/
def looksPadded (s : Text) : Bool := isPadded (dropMinus s) || isPadded (dropPlus s)

/-- A plain scalar with this content would not be read as a text, or could be mistaken for a number
by other readers. -/
def looksTyped (s : Text) : Bool :=
  s.isEmpty || nullNames.contains s || trueNames.contains s || falseNames.contains s ||
    looksWhole s || looksPadded s || looksFractional s

/-! ## Forms -/

/-- A character that is written as it is. -/
def isPrintable (c : Char) : Bool :=
  let n := c.toNat
  n == 0x0A || (0x20 ≤ n && n ≤ 0x7E) || (0xA0 ≤ n && n ≤ 0xD7FF) ||
    (0xE000 ≤ n && n ≤ 0xFFFD && n != 0xFEFF) || 0x10000 ≤ n

/-- A line break of the written document. -/
def isBreakOut (c : Char) : Bool := c == '\r' || c == '\u0085' || isBreak c

/-- A space and a line break stand next to each other in this order. -/
def hasSpaceBeforeBreak : Text → Bool
  | c :: d :: s => (c == ' ' && isBreakOut d) || hasSpaceBeforeBreak (d :: s)
  | _ => false

/-- A text can stand between single quotes when every character is written as it is and no space
stands before a line break. -/
def quotable (s : Text) : Bool := s.all isPrintable && !hasSpaceBeforeBreak s

/-- A text can be a literal block under the same conditions, and when it does not end in a space. -/
def blockable (s : Text) : Bool := quotable s && s.getLast? != some ' '

/-- The first characters that no plain scalar begins with. -/
def startIndicators : Text := "#,[]{}&*!|>'\"%@\x60".toList

/-- A mark that separates documents stands at the start. -/
def startsWithMark (s : Text) : Bool :=
  "---".toList.isPrefixOf s || "...".toList.isPrefixOf s

/-- The text begins like something else than a plain scalar. -/
def startsSpecial (s : Text) : Bool :=
  match s with
  | [] => false
  | c :: rest =>
    startIndicators.contains c || ((c == '?' || c == ':' || c == '-') && endsWord rest)

/-- The text holds a colon or a number sign where it would end a plain scalar. -/
def hasStop : Option Char → Text → Bool
  | _, [] => false
  | previous, c :: s =>
    (c == ':' && endsWord s) || (c == '#' && previous.any fun p => isSpace p || isBreak p) ||
      hasStop (some c) s

/-- A text can be a plain scalar when nothing in it has another meaning. -/
def plainable (s : Text) : Bool :=
  !s.isEmpty && s.all isPrintable && !s.any isBreakOut && s.head? != some ' ' &&
    s.getLast? != some ' ' && !startsWithMark s && !startsSpecial s && !hasStop none s

/-! ## Single and double quotes -/

/-- A text between single quotes. -/
def singleQuoted (s : Text) : Text :=
  '\'' :: (s.flatMap (fun c => if c = '\'' then ['\'', '\''] else [c]) ++ ['\''])

/-- The `width` lowest hexadecimal digits of a number, in upper case. -/
def upperHex (width n : Nat) : Text :=
  let digits := (Nat.toDigits 16 n).map Char.toUpper
  List.replicate (width - digits.length) '0' ++ digits

/-- The letter of an escape. -/
def escapeLetter (c : Char) : Option Char :=
  [('\x00', '0'), ('\x07', 'a'), ('\x08', 'b'), ('\t', 't'), ('\n', 'n'), ('\x0B', 'v'),
    ('\x0C', 'f'), ('\r', 'r'), ('\x1B', 'e'), ('"', '"'), ('\\', '\\'), ('\u0085', 'N'),
    ('\u00A0', '_'), ('\u2028', 'L'), ('\u2029', 'P')].lookup c

/-- A character between double quotes. -/
def escapeOut (c : Char) : Text :=
  if isPrintable c && !isBreakOut c && c != '"' && c != '\\' then [c]
  else match escapeLetter c with
    | some letter => ['\\', letter]
    | none =>
      let n := c.toNat
      if n ≤ 0xFF then '\\' :: 'x' :: upperHex 2 n
      else if n ≤ 0xFFFF then '\\' :: 'u' :: upperHex 4 n
      else '\\' :: 'U' :: upperHex 8 n

/-- A text between double quotes. -/
def doubleQuoted (s : Text) : Text := '"' :: (s.flatMap escapeOut ++ ['"'])

/-! ## Literal blocks -/

/-- The line breaks at the end of a text. -/
def breaksAtEnd (s : Text) : Nat := (s.reverse.takeWhile isBreakOut).length

/-- How the end of a block is to be read: without its last line break, with it, or with all. -/
def chomping (s : Text) : Text :=
  let n := breaksAtEnd s
  if n = 0 then ['-'] else if 2 ≤ n ∨ n = s.length then ['+'] else []

/-- A hint at the indentation of a block whose first line begins with a space or is empty. -/
def indentHint (s : Text) : Text :=
  if s.head?.any fun c => c == ' ' || isBreakOut c then ['2'] else []

/-- The lines of a block, each that is not empty with its indentation in front. -/
def blockLines (indent : Nat) (s : Text) : Text :=
  (Text.splitOn '\n' s).flatMap fun line =>
    if line.isEmpty then ['\n'] else '\n' :: (List.replicate indent ' ' ++ line)

/-- A text as a literal block. -/
def literalBlock (indent : Nat) (s : Text) : Text :=
  let body := if 0 < breaksAtEnd s then s.dropLast else s
  '|' :: (indentHint s ++ chomping s ++ blockLines indent body)

/-! ## Values -/

/-- A text; a block is indented by `indent` spaces. -/
def writeText (indent : Nat) (s : Text) : Text :=
  if s.contains '\n' then if blockable s then literalBlock indent s else doubleQuoted s
  else if !s.isEmpty && !quotable s then doubleQuoted s
  else if looksTyped s || !plainable s then singleQuoted s
  else s

/-- A scalar; a block is indented by `indent` spaces. -/
def writeScalar (indent : Nat) : Scalar → Text
  | .null => "null".toList
  | .flag b => flagText b
  | .number n => Text.decimal n
  | .text s => writeText indent s

end DumpConversion.Yaml
