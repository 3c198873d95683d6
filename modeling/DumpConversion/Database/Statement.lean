import DumpConversion.Database.Schema

/-! # Statements

The statements of a loaded dump: plain tables with simple columns, and rows of numbers, texts and
nulls. Everything else that SQL knows is left out.

* `SqlToken`, `SqlToken.lexStep`: words, names in two kinds of quotes, texts, numbers and symbols.
  Blanks and comments separate tokens.
* `SqlToken.lexStatement`: the tokens up to a semicolon. A NUL ends the script.
* `SqlToken.name?`: the tokens that are names. Not every keyword is one.
* `Statement`, `Statement.read`: the two statements that change a database.
-/

namespace DumpConversion

set_option autoImplicit false

/-! ## Tokens -/

/-- The tokens of a script. -/
inductive SqlToken where
  | word (w : Text)
  | name (n : Text)
  | backquoted (n : Text)
  | text (s : Text)
  | number (n : Text)
  | symbol (c : Char)
  deriving DecidableEq, Repr

namespace SqlToken

/-- A blank between tokens. -/
def isSqlBlank (c : Char) : Bool :=
  c == ' ' || c == '\t' || c == '\n' || c == '\x0C' || c == '\r' || c == '\uFEFF'

/-- A character of a word. -/
def isWordPart (c : Char) : Bool := c.isAlphanum || c == '_' || c == '$' || decide (0x80 ≤ c.toNat)

/-- What stands between quotes, in which a doubled quote is a quote, and what follows. -/
def readQuoted (quote : Char) : Text → Option (Text × Text)
  | [] => none
  | [c] => if c = quote then some ([], []) else none
  | c :: d :: s =>
    if c = quote then
      if d = quote then (readQuoted quote s).map fun r => (quote :: r.1, r.2) else some ([], d :: s)
    else (readQuoted quote (d :: s)).map fun r => (c :: r.1, r.2)

/-- What follows the end of a comment between slashes and asterisks. -/
def dropComment : Text → Text
  | '*' :: '/' :: s => s
  | _ :: s => dropComment s
  | [] => []

/-- The characters of a number without a sign. -/
def isNumberPart (c : Char) : Bool := c.isDigit || c == '.'

/-- The exponent at the front of a text and what follows. -/
def readExponent (s : Text) : Text × Text :=
  match s with
  | e :: c :: d :: rest =>
    if (e = 'e' ∨ e = 'E') ∧ (c = '+' ∨ c = '-') ∧ d.isDigit then
      (e :: c :: (d :: rest).takeWhile Char.isDigit, (d :: rest).dropWhile Char.isDigit)
    else if (e = 'e' ∨ e = 'E') ∧ c.isDigit then
      (e :: (c :: d :: rest).takeWhile Char.isDigit, (c :: d :: rest).dropWhile Char.isDigit)
    else ([], s)
  | [e, c] => if (e = 'e' ∨ e = 'E') ∧ c.isDigit then ([e, c], []) else ([], s)
  | s => ([], s)

/-- A number has at most one point and at least one digit. -/
def isNumber (digits : Text) : Bool :=
  decide (digits.count '.' ≤ 1) && digits.any Char.isDigit

/-- What begins with the character and the text behind it: a token or a gap between tokens, and
what follows it. A quote that is not closed and a malformed number are neither. -/
def lexStep (c : Char) (s : Text) : Option (Option SqlToken × Text) :=
  if isSqlBlank c then some (none, s)
  else if c = '-' ∧ s.head? = some '-' then some (none, s.dropWhile (· != '\n'))
  else if c = '/' ∧ s.head? = some '*' then some (none, dropComment (s.drop 1))
  else if c = '\'' then (readQuoted '\'' s).map fun r => (some (text r.1), r.2)
  else if c = '"' then (readQuoted '"' s).map fun r => (some (name r.1), r.2)
  else if c = '\x60' then (readQuoted '\x60' s).map fun r => (some (backquoted r.1), r.2)
  else if c.isDigit ∨ (c = '.' ∧ s.head?.any Char.isDigit) then
    let digits := (c :: s).takeWhile isNumberPart
    let r := readExponent ((c :: s).dropWhile isNumberPart)
    if isNumber digits && !r.2.head?.any isWordPart then some (some (number (digits ++ r.1)), r.2)
    else none
  else if isWordPart c then
    some (some (word ((c :: s).takeWhile isWordPart)), (c :: s).dropWhile isWordPart)
  else some (some (symbol c), s)

/-- The token that ends a statement. -/
def statementEnd : SqlToken := symbol ';'

/-- Reads the tokens of a statement in at most `fuel` steps. -/
def lexStatementUpTo : Nat → Text → Option (List SqlToken × Text)
  | _, [] => some ([], [])
  | 0, _ => none
  | fuel + 1, c :: s =>
    match lexStep c s with
    | none => none
    | some (none, rest) => lexStatementUpTo fuel rest
    | some (some t, rest) =>
      if t = statementEnd then some ([], rest)
      else (lexStatementUpTo fuel rest).map fun r => (t :: r.1, r.2)

/-- The part of a script that is read: a NUL ends it. -/
def untilNul (script : Text) : Text := script.takeWhile (· != '\x00')

/-- The tokens of the first statement of a script, and what follows its semicolon. Every step takes at
least one character. -/
def lexStatement (script : Text) : Option (List SqlToken × Text) :=
  lexStatementUpTo (untilNul script).length (untilNul script)

/-- The token is a keyword, in any case of its letters. -/
def isKeyword (k : String) : SqlToken → Bool
  | word w => decide (foldCase w = foldCase k.toList)
  | _ => false

/-- The keywords that are no names. -/
def reservedWords : List Text :=
  ["add", "all", "alter", "and", "as", "autoincrement", "between", "case", "check", "collate",
    "commit", "constraint", "create", "cross", "default", "deferrable", "delete", "distinct",
    "drop", "else", "escape", "except", "exists", "foreign", "from", "full", "generated", "group",
    "having", "in", "index", "indexed", "inner", "insert", "intersect", "into", "is", "isnull",
    "join", "left", "limit", "natural", "not", "nothing", "notnull", "null", "on", "or", "order",
    "outer", "primary", "references", "returning", "right", "select", "set", "table", "then",
    "to", "transaction", "union", "unique", "update", "using", "values", "when",
    "where"].map String.toList

/-- Those of them that may still be the name of a table or a column. -/
def namingWords : List Text :=
  ["cross", "full", "generated", "indexed", "inner", "left", "natural", "outer", "right"].map
    String.toList

/-- The word is a keyword that is no name, in any case of its letters. -/
def isReserved (w : Text) : Bool := reservedWords.contains (foldCase w)

/-- The name that a token gives to a table or a column. -/
def name? : SqlToken → Option Text
  | word w => if isReserved w && !namingWords.contains (foldCase w) then none else some w
  | name n => some n
  | backquoted n => some n
  | text s => some s
  | _ => none

/-- The pieces of a token list between commas that stand outside parentheses. -/
def splitCommas : Nat → List SqlToken → List (List SqlToken)
  | _, [] => [[]]
  | depth, t :: ts =>
    if t = .symbol ',' ∧ depth = 0 then [] :: splitCommas depth ts
    else
      let inner :=
        if t = .symbol '(' then depth + 1 else if t = .symbol ')' then depth - 1 else depth
      match splitCommas inner ts with
      | [] => [[t]]
      | piece :: rest => (t :: piece) :: rest

end SqlToken

/-! ## Statements -/

/-- A statement that changes a database. -/
inductive Statement where
  | createTable (name : Text) (columns : List Column)
  | insert (table : Text) (values : List Value)
  deriving DecidableEq, Repr

namespace Statement

open SqlToken

/-- The token belongs to the words of a type. -/
def isTypeWord : SqlToken → Bool
  | .word w => !isReserved w
  | t => t.name?.isSome

/-- The token is a default value by itself. -/
def isDefault (t : SqlToken) : Bool :=
  match t with
  | .number _ => true
  | t => t.isKeyword "NULL" || isTypeWord t

/-- What follows a number with an optional sign. -/
def afterSigned : List SqlToken → Option (List SqlToken)
  | .symbol c :: .number _ :: rest => if c = '-' ∨ c = '+' then some rest else none
  | .number _ :: rest => some rest
  | _ => none

/-- What follows the sizes of a type: one or two numbers in parentheses, or nothing. -/
def afterSizes (ts : List SqlToken) : Option (List SqlToken) :=
  match ts with
  | .symbol '(' :: rest =>
    (afterSigned rest).bind fun rest => match rest with
      | .symbol ')' :: rest => some rest
      | .symbol ',' :: rest => (afterSigned rest).bind fun rest => match rest with
        | .symbol ')' :: rest => some rest
        | _ => none
      | _ => none
  | ts => some ts

/-- Whether the constraints of a column make it required; the token list holds nothing else. -/
def readConstraints : Bool → List SqlToken → Option Bool
  | required, [] => some required
  | required, t :: ts =>
    if t.isKeyword "NOT" then
      match ts with
      | u :: ts => if u.isKeyword "NULL" then readConstraints true ts else none
      | [] => none
    else if t.isKeyword "NULL" then readConstraints required ts
    else if t.isKeyword "DEFAULT" then
      match ts with
      | .symbol c :: .number _ :: ts =>
        if c = '-' ∨ c = '+' then readConstraints required ts else none
      | u :: ts => if isDefault u then readConstraints required ts else none
      | [] => none
    else none

/-- A column: its name, the words and sizes of its type, and its constraints. -/
def readColumn : List SqlToken → Option Column
  | [] => none
  | t :: ts => do
    let name ← t.name?
    let rest := ts.dropWhile isTypeWord
    let rest ← if ts.head?.any isTypeWord then afterSizes rest else some rest
    let required ← readConstraints false rest
    return ⟨name, required⟩

/-- A value: a null, a text, or a number with an optional sign. -/
def readValue : List SqlToken → Option Value
  | [.text s] => some (.text s)
  | [.name s] => some (.text s)
  | [.number n] => some (.number n)
  | [.symbol c, .number n] => if c = '-' ∨ c = '+' then some (.number (c :: n)) else none
  | [t] => if t.isKeyword "NULL" then some .null else none
  | _ => none

/-- What stands between parentheses that enclose the whole token list. -/
def insideParentheses (ts : List SqlToken) : Option (List SqlToken) :=
  match ts, ts.getLast? with
  | .symbol '(' :: rest, some (.symbol ')') => if rest.isEmpty then none else some rest.dropLast
  | _, _ => none

/-- A statement without its semicolon. -/
def read : List SqlToken → Option Statement
  | t :: u :: n :: rest => do
    let name ← n.name?
    if t.isKeyword "CREATE" && u.isKeyword "TABLE" then
      let body ← insideParentheses rest
      let columns ← (splitCommas 0 body).mapM readColumn
      return .createTable name columns
    else if t.isKeyword "INSERT" && u.isKeyword "INTO" then
      match rest with
      | v :: rest =>
        if v.isKeyword "VALUES" then
          let body ← insideParentheses rest
          let values ← (splitCommas 0 body).mapM readValue
          return .insert name values
        else none
      | [] => none
    else none
  | _ => none

end Statement

end DumpConversion
