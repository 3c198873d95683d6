import DumpConversion.Text.Lines

/-! # Paths

A path is a text whose pieces are separated by slashes. Empty pieces and pieces of a single dot say
nothing, except a dot at the very start.

* `Path.components`: what a path says, piece by piece. Paths with equal components name the same
  place.
* `Path.fileName?`: the last component, when it is a name.
* `Path.aside`: the sibling that keeps the previous content of a file. Its name is that of the file
  with `.bk` appended, and the rest of the path stays as it is written.
* `Path.unfinished`: the neighbour into which a dump is written until it is complete.
-/

namespace DumpConversion

set_option autoImplicit false

/-- A path as it is written. -/
structure Path where
  text : Text
  deriving DecidableEq, Repr

namespace Path

/-- A path written as a string literal. -/
def ofString (s : String) : Path := ⟨s.toList⟩

/-- The path as it is shown in a message. -/
def shown (p : Path) : String := String.ofList p.text

/-! ## Components -/

/-- One step of a path. -/
inductive Component where
  | root
  | here
  | up
  | name (n : Text)
  deriving DecidableEq, Repr

/-- How a path begins: at the root, with a dot, or with neither. -/
inductive Start where
  | root
  | here
  | plain
  deriving DecidableEq, Repr

/-- The component that a start stands for. -/
def Start.component : Start → List Component
  | root => [.root]
  | here => [.here]
  | plain => []

/-- The written form of a start. -/
def Start.text : Start → Text
  | root => ['/']
  | here => ['.']
  | plain => []

/-- The piece that stays in place. -/
def dot : Text := ['.']

/-- The piece that leads to the parent. -/
def dots : Text := ['.', '.']

/-- How the path begins, and the pieces that follow. -/
def parts (p : Path) : Start × List Text :=
  match Text.splitOn '/' p.text with
  | [] | [[]] => (.plain, [])
  | [] :: pieces => (.root, pieces)
  | piece :: pieces => if piece = dot then (.here, pieces) else (.plain, piece :: pieces)

/-- A piece that says nothing: empty or a single dot. -/
def isIdle (piece : Text) : Bool := piece.isEmpty || piece == dot

/-- The component of a piece that says something. -/
def componentOf (piece : Text) : Component := if piece = dots then .up else .name piece

/-- The components of a path in order. -/
def components (p : Path) : List Component :=
  p.parts.1.component ++ (p.parts.2.filter fun piece => !isIdle piece).map componentOf

/-- The path begins at the root. -/
def isAbsolute (p : Path) : Bool := p.text.head? == some '/'

/-- The last component, when it is a name. -/
def fileName? (p : Path) : Option Text :=
  match p.components.getLast? with
  | some (.name n) => some n
  | _ => none

/-! ## Neighbours -/

/-- The pieces without the idle ones at the end. -/
def dropIdleEnd (pieces : List Text) : List Text := (pieces.reverse.dropWhile isIdle).reverse

/-- The written form of a start followed by pieces. -/
def written (start : Start) (pieces : List Text) : Text :=
  match start, pieces with
  | .here, _ :: _ => start.text ++ '/' :: Text.joinWith ['/'] pieces
  | _, _ => start.text ++ Text.joinWith ['/'] pieces

/-- A name inside the directory of the given written form. -/
def inside (directory name : Text) : Text :=
  if directory.isEmpty || directory.getLast? == some '/' then directory ++ name
  else directory ++ '/' :: name

/-- The ending of a file that keeps a previous database. -/
def asideEnding : Text := ".bk".toList

/-- The sibling that keeps the previous content of a file. A path that does not end in a name is
taken for a directory, in which the file has no name but the ending. -/
def aside (p : Path) : Path :=
  let kept := dropIdleEnd p.parts.2
  match kept.getLast? with
  | some piece =>
    if piece = dots then ⟨inside p.text asideEnding⟩
    else ⟨inside (written p.parts.1 (dropIdleEnd kept.dropLast)) (piece ++ asideEnding)⟩
  | none => ⟨inside p.text asideEnding⟩

/-- The ending of a dump that is not complete yet. -/
def unfinishedEnding : Text := ".part".toList

/-- The neighbour into which a dump is written until it is complete. -/
def unfinished (p : Path) : Path := ⟨p.text ++ unfinishedEnding⟩

/-! ## Small lemmas -/

theorem unfinished_text (p : Path) : p.unfinished.text = p.text ++ unfinishedEnding := rfl

end Path

end DumpConversion
