import DumpConversion.Database.Engine
import DumpConversion.Machine.Basic

/-! # The platform

What a conversion uses and is no part of: the programs that are installed, the reader of settings
documents, the database engine, and the reader of filters for diagnostics. It is bound once, as a class.

* `Platform`: the four of them.
* `Environment.searchPath`, `Machine.program`: the executable behind a name.
-/

namespace DumpConversion

set_option autoImplicit false

/-- What a conversion uses and is no part of. -/
class Platform where
  /-- What an executable does when it is called while the files are as on the disk. -/
  behaviour : Program → Call → Disk → Activity
  /-- What a settings document sets. -/
  readLayer : Text → Except DocumentFault Layer
  /-- The database engine. -/
  engine : Engine
  /-- The text is a filter for diagnostics. -/
  takesFilter : Text → Bool

/-! ## Executables -/

/-- The variable with the directories in which programs are looked for. -/
def searchVariable : Text := "PATH".toList

/-- The directories in which programs are looked for unless the variable says otherwise. -/
def usualDirectories : List Path := [Path.ofString "/bin", Path.ofString "/usr/bin"]

/-- The directories in which programs are looked for. -/
def Environment.searchPath (env : Environment) : List Path :=
  match env.value? searchVariable with
  | none => usualDirectories
  | some s => (Text.splitOn ':' s).map Path.mk

namespace Disk

/-- The executable at a path, with the name of its file. -/
def executable (d : Disk) (p : Path) : Except IoError (Text × Program) :=
  match d.entry p with
  | .ok (l, .program p) => .ok (l.getLastD [], p)
  | .ok _ => .error .accessDenied
  | .error e => .error e

/-- The first executable of a name in the directories. A file that cannot be executed is passed over,
but it is what is told of if none can. -/
def search (d : Disk) (name : Text) : List Path → Except IoError (Text × Program)
  | [] => .error .notFound
  | directory :: rest =>
    match d.executable ⟨Path.inside directory.text name⟩ with
    | .ok found => .ok found
    | .error .accessDenied =>
      match d.search name rest with
      | .ok found => .ok found
      | .error _ => .error .accessDenied
    | .error _ => d.search name rest

end Disk

/-- The executable behind a name. A name with a slash is a path; any other is looked for. -/
def Machine.program (m : Machine) (name : Text) : Except IoError (Text × Program) :=
  if name.contains '/' then m.disk.executable ⟨name⟩
  else if name = [] then .error .notFound
  else m.disk.search name m.environment.searchPath

end DumpConversion
