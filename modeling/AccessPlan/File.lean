import AccessPlan.Settings
import AccessPlan.Yaml.Document

/-!
# Files

A file as the library sees it: its path, and its bytes if there is such a file. What the bytes say is up to a
`File.Reader`, which is that of YAML unless another one is given.
-/

set_option autoImplicit false

namespace AccessPlan

/-- A path, and the bytes of the file there, if there is one. -/
structure File where
  path : String
  bytes : Option (List UInt8)

/-- How bytes are read as the value of a document. -/
abbrev File.Reader := List UInt8 → Except Yaml.Problem Value

/-- The value of the document in a file; `malformed` is the fault of a file that holds none. -/
def File.document (f : File) (malformed : Fault) (read : File.Reader := Yaml.load) : Outcome Value :=
  match f.bytes with
  | none => .error (.missingFile f.path)
  | some bytes => match read bytes with
    | .ok v => pure v
    | .error .malformed => .error malformed
    | .error (.misuse m) => misuse m

/-- The settings in a file. -/
def Settings.load (f : File) : Outcome Settings := do
  Settings.ofDocument f.path (← f.document (.settings (.malformed f.path)))

end AccessPlan
