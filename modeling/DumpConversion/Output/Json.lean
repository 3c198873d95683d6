import DumpConversion.Text.Numeral

/-! # Structured output

Reports and settings are shown as trees of named values.

* `Scalar`, `Tree`: the values.
* `Tree.compact`: the tree as JSON on one line.
* `Tree.pretty`: the tree as JSON with one entry a line, indented by two spaces a level.
-/

namespace DumpConversion

set_option autoImplicit false

/-- A single value. -/
inductive Scalar where
  | null
  | flag (b : Bool)
  | number (n : Nat)
  | text (s : Text)
  deriving DecidableEq, Repr

/-- A value with its parts. -/
inductive Tree where
  | scalar (s : Scalar)
  | list (items : List Tree)
  | record (fields : List (String × Tree))
  deriving Repr

/-! ## Scalars -/

namespace Json

/-- A hexadecimal digit in lower case. -/
def hexDigit (n : Nat) : Char := Nat.digitChar n

/-- A character inside a JSON string. -/
def escape (c : Char) : Text :=
  if c = '"' then ['\\', '"']
  else if c = '\\' then ['\\', '\\']
  else if c = '\x08' then ['\\', 'b']
  else if c = '\t' then ['\\', 't']
  else if c = '\n' then ['\\', 'n']
  else if c = '\x0C' then ['\\', 'f']
  else if c = '\r' then ['\\', 'r']
  else if c.toNat < 0x20 then
    ['\\', 'u', '0', '0', hexDigit (c.toNat / 16), hexDigit (c.toNat % 16)]
  else [c]

/-- A JSON string. -/
def quote (s : Text) : Text := '"' :: (s.flatMap escape ++ ['"'])

end Json

/-- A boolean as it is written. -/
def flagText (b : Bool) : Text := if b then "true".toList else "false".toList

/-- A scalar as JSON. -/
def Scalar.json : Scalar → Text
  | null => "null".toList
  | flag b => flagText b
  | number n => Text.decimal n
  | text s => Json.quote s

namespace Tree

/-! ## Shorthands -/

/-- A number. -/
def number (n : Nat) : Tree := scalar (.number n)

/-- A text. -/
def text (s : Text) : Tree := scalar (.text s)

/-! ## One line -/

mutual

/-- The tree as JSON on one line. -/
def compact : Tree → Text
  | scalar s => s.json
  | list items => '[' :: (compactItems items ++ [']'])
  | record fields => '\x7b' :: (compactFields fields ++ ['\x7d'])

/-- The items of a list, with commas between them. -/
def compactItems : List Tree → Text
  | [] => []
  | [t] => t.compact
  | t :: rest => t.compact ++ ',' :: compactItems rest

/-- The fields of a record, with commas between them. -/
def compactFields : List (String × Tree) → Text
  | [] => []
  | [(name, t)] => Json.quote name.toList ++ ':' :: t.compact
  | (name, t) :: rest => Json.quote name.toList ++ ':' :: (t.compact ++ ',' :: compactFields rest)

end

/-! ## One entry a line -/

/-- The start of a line at a depth. -/
def newline (depth : Nat) : Text := '\n' :: List.replicate (2 * depth) ' '

mutual

/-- The tree as JSON, with its parts at the given depth. -/
def prettyAt (depth : Nat) : Tree → Text
  | scalar s => s.json
  | list [] => "[]".toList
  | list items => '[' :: (prettyItems (depth + 1) items ++ newline depth ++ [']'])
  | record [] => "\x7b\x7d".toList
  | record fields => '\x7b' :: (prettyFields (depth + 1) fields ++ newline depth ++ ['\x7d'])

/-- The items of a list, each on a line of its own. -/
def prettyItems (depth : Nat) : List Tree → Text
  | [] => []
  | [t] => newline depth ++ t.prettyAt depth
  | t :: rest => newline depth ++ t.prettyAt depth ++ ',' :: prettyItems depth rest

/-- The fields of a record, each on a line of its own. -/
def prettyFields (depth : Nat) : List (String × Tree) → Text
  | [] => []
  | [(name, t)] => newline depth ++ Json.quote name.toList ++ ": ".toList ++ t.prettyAt depth
  | (name, t) :: rest =>
    newline depth ++ Json.quote name.toList ++ ": ".toList ++ t.prettyAt depth ++
      ',' :: prettyFields depth rest

end

/-- The tree as JSON with one entry a line. -/
def pretty (t : Tree) : Text := t.prettyAt 0

end Tree

end DumpConversion
