import DumpConversion.Machine.Program

/-! # The disk

A tree of directories, files and programs, kept as a finite map from locations. A location is the
list of names from the root.

* `Disk.find?`, `Disk.set`, `Disk.erase`: the map.
* `IoError`: why an operation on a path is refused, with the wording of the system.
* `Disk.locate`: where the last step of a path is taken. Every step before it needs a directory.
* `Disk.entry`, `Disk.isPresent`, `Disk.isFile`, `Disk.read`, `Disk.create`, `Disk.remove`,
  `Disk.rename`, `Disk.copy`: the operations of the system on paths. A refused operation changes
  nothing.
-/

namespace DumpConversion

set_option autoImplicit false

/-- The names from the root to a place. -/
abbrev Location := List Text

/-- What can be at a location. -/
inductive Entry where
  | directory
  | file (content : Content)
  | program (p : Program)
  deriving DecidableEq, Repr

/-- What a file holds when it is read. -/
def Entry.content? : Entry → Option Content
  | directory => none
  | file c => some c
  | program p => some (.bytes p.code)

/-- Why an operation is refused. -/
inductive IoError where
  | notFound
  | accessDenied
  | busy
  | notDirectory
  | isDirectory
  | notUtf8
  deriving DecidableEq, Repr

/-- The wording of the system. -/
def IoError.message : IoError → String
  | notFound => "No such file or directory (os error 2)"
  | accessDenied => "Permission denied (os error 13)"
  | busy => "Device or resource busy (os error 16)"
  | notDirectory => "Not a directory (os error 20)"
  | isDirectory => "Is a directory (os error 21)"
  | notUtf8 => "stream did not contain valid UTF-8"

/-- The entries below the root and the directory from which relative paths start. -/
structure Disk where
  entries : List (Location × Entry)
  workDir : Location
  deriving DecidableEq, Repr

namespace Disk

/-! ## The map -/

/-- The entry at a location; the root is a directory. -/
def find? (d : Disk) (l : Location) : Option Entry :=
  if l = [] then some .directory else (d.entries.find? fun e => decide (e.1 = l)).map (·.2)

/-- The entries at other locations than `l`. -/
def others (d : Disk) (l : Location) : List (Location × Entry) :=
  d.entries.filter fun e => decide (e.1 ≠ l)

/-- Puts an entry at a location. -/
def set (d : Disk) (l : Location) (e : Entry) : Disk := { d with entries := (l, e) :: d.others l }

/-- Leaves nothing at a location. -/
def erase (d : Disk) (l : Location) : Disk := { d with entries := d.others l }

/-- Puts directories at the given locations unless something is there. -/
def addDirectories (d : Disk) : List Location → Disk
  | [] => d
  | l :: rest =>
    match d.find? l with
    | some _ => d.addDirectories rest
    | none => (d.set l .directory).addDirectories rest

/-- Puts an entry at a location together with the directories above it. -/
def plant (d : Disk) (l : Location) (e : Entry) : Disk :=
  (d.addDirectories ((List.range l.length).map fun n => l.take n)).set l e

/-! ## Paths -/

/-- Where the last step of a path is taken. -/
structure Destination where
  /-- The directory that the steps before lead to. -/
  directory : Location
  /-- The last piece of the path; without one the path is the root. -/
  last : Option Text
  /-- The path goes on with a slash. -/
  slash : Bool
  deriving DecidableEq, Repr

/-- The location, provided that a directory is there. -/
def enter (d : Disk) (l : Location) : Except IoError Location :=
  match d.find? l with
  | some .directory => .ok l
  | some _ => .error .notDirectory
  | none => .error .notFound

/-- The location that one piece leads to. -/
def step (l : Location) (piece : Text) : Location :=
  if piece = Path.dot then l else if piece = Path.dots then l.dropLast else l ++ [piece]

/-- The directory that a path without its last piece leads to. -/
def follow (d : Disk) (l : Location) : List Text → Except IoError Location
  | [] => d.enter l
  | piece :: rest =>
    match d.enter l with
    | .ok l => d.follow (step l piece) rest
    | .error e => .error e

/-- Where the last step of a path is taken. The empty path leads nowhere. -/
def locate (d : Disk) (p : Path) : Except IoError Destination :=
  if p.text = [] then .error .notFound
  else
    let start := if p.isAbsolute then [] else d.workDir
    let pieces := (Text.splitOn '/' p.text).filter fun piece => !piece.isEmpty
    match d.follow start pieces.dropLast with
    | .ok directory => .ok ⟨directory, pieces.getLast?, p.text.getLast? == some '/'⟩
    | .error e => .error e

namespace Destination

/-- The last piece, when it names an entry of the directory. -/
def name? (t : Destination) : Option Text :=
  t.last.filter fun piece => decide (piece ≠ Path.dot) && decide (piece ≠ Path.dots)

/-- The location of the destination. -/
def location (t : Destination) : Location :=
  match t.last with
  | some piece => step t.directory piece
  | none => t.directory

end Destination

/-- The entry at a path and its location. A slash at the end asks for a directory. -/
def entry (d : Disk) (p : Path) : Except IoError (Location × Entry) :=
  match d.locate p with
  | .error e => .error e
  | .ok t =>
    match d.find? t.location with
    | none => .error .notFound
    | some .directory => .ok (t.location, .directory)
    | some e => if t.slash then .error .notDirectory else .ok (t.location, e)

/-- Something is at the path. -/
def isPresent (d : Disk) (p : Path) : Bool := (d.entry p).toOption.isSome

/-- A file is at the path. -/
def isFile (d : Disk) (p : Path) : Bool :=
  ((d.entry p).toOption.bind fun e => e.2.content?).isSome

/-- The absolute form of a path to something that exists; any other path stays as it is. -/
def canonical (d : Disk) (p : Path) : Path :=
  match d.entry p with
  | .ok (l, _) => ⟨'/' :: Text.joinWith ['/'] l⟩
  | .error _ => p

/-! ## Operations -/

/-- The content of a file. -/
def read (d : Disk) (p : Path) : Except IoError Content :=
  match d.entry p with
  | .error e => .error e
  | .ok (_, e) =>
    match e.content? with
    | some c => .ok c
    | none => .error .isDirectory

/-- The content of a file that holds UTF-8 text. -/
def readText (d : Disk) (p : Path) : Except IoError Text :=
  match d.read p with
  | .error e => .error e
  | .ok c =>
    match Utf8.decode c.image with
    | .ok s => .ok s
    | .error _ => .error .notUtf8

/-- The location at which a file can be written: one that is named without a slash at the end, where
no directory is. -/
def writable (d : Disk) (p : Path) : Except IoError Location :=
  match d.locate p with
  | .error e => .error e
  | .ok t =>
    if t.name?.isNone || t.slash || d.find? t.location = some .directory then .error .isDirectory
    else .ok t.location

/-- Writes a file, in place of one that may be there. -/
def create (d : Disk) (p : Path) (c : Content) : Except IoError Disk :=
  (d.writable p).map fun l => d.set l (.file c)

/-- Opens a file for appending; a missing one is made. -/
def touch (d : Disk) (p : Path) : Except IoError Disk :=
  (d.writable p).map fun l => if (d.find? l).isSome then d else d.set l (.file Content.empty)

/-- Removes a file. -/
def remove (d : Disk) (p : Path) : Except IoError Disk :=
  match d.locate p with
  | .error e => .error e
  | .ok t =>
    if t.name?.isNone then .error .isDirectory
    else
      match d.find? t.location with
      | none => .error .notFound
      | some .directory => .error .isDirectory
      | some _ => if t.slash then .error .notDirectory else .ok (d.erase t.location)

/-- Moves a file to another path, in place of a file that may be there. -/
def rename (d : Disk) (source target : Path) : Except IoError Disk :=
  match d.locate source, d.locate target with
  | .error e, _ => .error e
  | _, .error e => .error e
  | .ok s, .ok t =>
    if s.name?.isNone || t.name?.isNone then .error .busy
    else
      match d.find? s.location with
      | none => .error .notFound
      | some e =>
        if s.slash || t.slash then .error .notDirectory
        else if d.find? t.location = some .directory then .error .isDirectory
        else .ok ((d.erase s.location).set t.location e)

/-- Copies a file to another path. -/
def copy (d : Disk) (source target : Path) : Except IoError Disk :=
  match d.read source with
  | .error e => .error e
  | .ok c => d.create target c

/-! ## Small lemmas -/

theorem find?_set_self (d : Disk) (l : Location) (e : Entry) (h : l ≠ []) :
    (d.set l e).find? l = some e := by
  simp [find?, set, h]

theorem find?_others (d : Disk) {l m : Location} (h : m ≠ l) :
    (d.others l).find? (fun e => decide (e.1 = m)) =
      d.entries.find? (fun e => decide (e.1 = m)) := by
  unfold others
  rw [List.find?_filter]
  congr 1
  funext e
  by_cases hm : e.1 = m
  · simp [hm, h]
  · simp [hm]

theorem find?_set_of_ne (d : Disk) (e : Entry) {l m : Location} (h : m ≠ l) :
    (d.set l e).find? m = d.find? m := by
  simp only [find?, set, List.find?_cons, Ne.symm h, decide_false]
  rw [find?_others d h]

theorem find?_erase_of_ne (d : Disk) {l m : Location} (h : m ≠ l) :
    (d.erase l).find? m = d.find? m := by
  simp only [find?, erase]
  rw [find?_others d h]

theorem find?_erase_self (d : Disk) (l : Location) (h : l ≠ []) : (d.erase l).find? l = none := by
  simp [find?, erase, others, h]

end Disk

end DumpConversion
