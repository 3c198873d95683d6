import DumpConversion.Machine.Basic

/-! # Sanitizing a file

* `sanitizeInto`: reads a dump and writes it in the target dialect, perhaps in its own place.
  Nothing is written before everything else has succeeded.
-/

namespace DumpConversion

set_option autoImplicit false

open Procedure (disk check change)

/-- The dump in a file, in the target dialect. -/
def sanitizedContent (d : Disk) (input : Path) (encoding : Charset) :
    Except Failure SanitizedDump :=
  match d.read input with
  | .error cause => .error (.io cause)
  | .ok raw => (sanitize encoding raw.image).mapError (.dump input)

/-- Sanitizes the dump in the file `input` and writes the result to `output`. -/
def sanitizeInto (input output : Path) (encoding : Charset) : Procedure Statistics := do
  let result ← check (sanitizedContent (← disk) input encoding)
  change (fun d => d.create output (.ofText result.text)) .io
  return result.statistics

/-! ## Small lemmas -/

theorem sanitizeInto_of_error {input output : Path} {encoding : Charset} {m : Machine}
    {e : Failure} (h : sanitizedContent m.disk input encoding = .error e) :
    sanitizeInto input output encoding m = (.error e, m) := by
  rw [sanitizeInto, Procedure.bind_of_ok (Procedure.disk_apply m),
    Procedure.bind_of_error (show check _ m = (.error e, m) by rw [h]; rfl)]

end DumpConversion
