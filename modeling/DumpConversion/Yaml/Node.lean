import DumpConversion.Yaml.Token

/-! # YAML documents

The tree of a document, built from its tokens.

* `Node`: scalars, sequences and mappings. A value that is left out is an empty plain scalar.
* `Node.ofTokens`: the tree of the only document of a stream, or `none` for an empty stream.
* `Node.parse`: the same from the characters of the stream.
-/

namespace DumpConversion.Yaml

set_option autoImplicit false

/-- A document or a part of it. -/
inductive Node where
  | scalar (content : Text) (plain : Bool)
  | sequence (items : List Node)
  | mapping (entries : List (Node × Node))
  deriving Repr

namespace Node

/-- The value that is left out. -/
def absent : Node := scalar [] true

/-- What was read, and the tokens that follow. -/
abbrev Reading (α : Type) := α × List Token

/-- One of the given tokens comes next. -/
def comesNext (ts : List Token) (stops : List Token) : Bool := ts.head?.any stops.contains

mutual

/-- A node. Block collections are allowed if `block` holds, and a block sequence without an indent
of its own if `bare` holds. -/
def readNode : Nat → Bool → Bool → List Token → Except SyntaxFault (Reading Node)
  | _, _, _, .scalar content plain :: rest => .ok (scalar content plain, rest)
  | fuel + 1, _, _, .flowSequenceStart :: rest =>
    (readFlowSequence fuel true rest).map fun r => (sequence r.1, r.2)
  | fuel + 1, _, _, .flowMappingStart :: rest =>
    (readFlowMapping fuel true rest).map fun r => (mapping r.1, r.2)
  | fuel + 1, true, _, .blockSequenceStart :: rest =>
    (readBlockSequence fuel rest).map fun r => (sequence r.1, r.2)
  | fuel + 1, true, _, .blockMappingStart :: rest =>
    (readBlockMapping fuel rest).map fun r => (mapping r.1, r.2)
  | fuel + 1, _, true, .blockEntry :: rest =>
    (readBareSequence fuel (.blockEntry :: rest)).map fun r => (sequence r.1, r.2)
  | _, _, _, _ => .error .unexpectedToken

/-- A node, unless one of the given tokens shows that it is left out. -/
def readOptional : Nat → Bool → Bool → List Token → List Token → Except SyntaxFault (Reading Node)
  | 0, _, _, _, _ => .error .unexpectedToken
  | fuel + 1, block, bare, stops, ts =>
    if comesNext ts stops then .ok (absent, ts) else readNode fuel block bare ts

/-- The items of a block sequence. -/
def readBlockSequence : Nat → List Token → Except SyntaxFault (Reading (List Node))
  | fuel + 1, .blockEntry :: rest => do
    let (item, rest) ← readOptional fuel true false [.blockEntry, .blockEnd] rest
    let (items, rest) ← readBlockSequence fuel rest
    return (item :: items, rest)
  | _, .blockEnd :: rest => .ok ([], rest)
  | _, _ => .error .unexpectedToken

/-- The items of a block sequence without an indent of its own; it ends at any other token. -/
def readBareSequence : Nat → List Token → Except SyntaxFault (Reading (List Node))
  | fuel + 1, .blockEntry :: rest => do
    let (item, rest) ← readOptional fuel true false [.blockEntry, .key, .value, .blockEnd] rest
    let (items, rest) ← readBareSequence fuel rest
    return (item :: items, rest)
  | 0, .blockEntry :: _ => .error .unexpectedToken
  | _, ts => .ok ([], ts)

/-- The entries of a block mapping. -/
def readBlockMapping : Nat → List Token → Except SyntaxFault (Reading (List (Node × Node)))
  | fuel + 1, .key :: rest => do
    let (k, rest) ← readOptional fuel true true [.key, .value, .blockEnd] rest
    let (v, rest) ← match rest with
      | .value :: rest => readOptional fuel true true [.key, .value, .blockEnd] rest
      | rest => .ok (absent, rest)
    let (entries, rest) ← readBlockMapping fuel rest
    return ((k, v) :: entries, rest)
  | _, .blockEnd :: rest => .ok ([], rest)
  | _, _ => .error .unexpectedToken

/-- The items of a flow sequence, of which `first` tells whether the next is the first. An item with
a key of its own is a mapping of one entry. -/
def readFlowSequence : Nat → Bool → List Token → Except SyntaxFault (Reading (List Node))
  | _, _, .flowSequenceEnd :: rest => .ok ([], rest)
  | 0, _, _ => .error .unexpectedToken
  | fuel + 1, first, ts =>
    match first, ts with
    | false, .flowEntry :: .flowSequenceEnd :: rest => .ok ([], rest)
    | false, .flowEntry :: rest => readFlowItems fuel rest
    | true, rest => readFlowItems fuel rest
    | _, _ => .error .unexpectedToken

/-- An item of a flow sequence and those after it. -/
def readFlowItems : Nat → List Token → Except SyntaxFault (Reading (List Node))
  | fuel + 1, .key :: rest => do
    let (k, rest) ← readNode fuel false false rest
    let (v, rest) ← match rest with
      | .value :: rest => readOptional fuel false false [.flowEntry, .flowSequenceEnd] rest
      | rest => .ok (absent, rest)
    let (items, rest) ← readFlowSequence fuel false rest
    return (mapping [(k, v)] :: items, rest)
  | fuel + 1, ts => do
    let (item, rest) ← readNode fuel false false ts
    let (items, rest) ← readFlowSequence fuel false rest
    return (item :: items, rest)
  | _, _ => .error .unexpectedToken

/-- The entries of a flow mapping, of which `first` tells whether the next is the first. -/
def readFlowMapping : Nat → Bool → List Token → Except SyntaxFault (Reading (List (Node × Node)))
  | _, _, .flowMappingEnd :: rest => .ok ([], rest)
  | 0, _, _ => .error .unexpectedToken
  | fuel + 1, first, ts =>
    match first, ts with
    | false, .flowEntry :: .flowMappingEnd :: rest => .ok ([], rest)
    | false, .flowEntry :: rest => readFlowEntries fuel rest
    | true, rest => readFlowEntries fuel rest
    | _, _ => .error .unexpectedToken

/-- An entry of a flow mapping and those after it. Without a key token it has no value. -/
def readFlowEntries : Nat → List Token → Except SyntaxFault (Reading (List (Node × Node)))
  | fuel + 1, .key :: rest => do
    let (k, rest) ← readOptional fuel false false [.value, .flowEntry, .flowMappingEnd] rest
    let (v, rest) ← match rest with
      | .value :: rest => readOptional fuel false false [.flowEntry, .flowMappingEnd] rest
      | rest => .ok (absent, rest)
    let (entries, rest) ← readFlowMapping fuel false rest
    return ((k, v) :: entries, rest)
  | fuel + 1, ts => do
    let (k, rest) ← readNode fuel false false ts
    let (entries, rest) ← readFlowMapping fuel false rest
    return ((k, absent) :: entries, rest)
  | _, _ => .error .unexpectedToken

end

/-! ## Documents -/

/-- Nothing but ends of documents may follow the only document. -/
def closeDocument (r : Node × List Token) : Except SyntaxFault Node :=
  if r.2.all (· == .documentEnd) then .ok r.1 else .error .severalDocuments

/-- The only document of a stream. The fuel allows three steps for every token. -/
def ofTokens (ts : List Token) : Except SyntaxFault (Option Node) :=
  let fuel := 3 * ts.length + 3
  match ts with
  | [] => .ok none
  | [.documentStart] => .ok (some absent)
  | .documentStart :: rest => do
    let r ← readOptional fuel true false [.documentStart, .documentEnd] rest
    return some (← closeDocument r)
  | ts => do
    let r ← readNode fuel true false ts
    return some (← closeDocument r)

/-- The only document of a stream, or nothing if the stream is empty. -/
def parse (s : Text) : Except SyntaxFault (Option Node) := do ofTokens (← tokens s)

end Node

end DumpConversion.Yaml
