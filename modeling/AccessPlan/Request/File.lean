import AccessPlan.File
import AccessPlan.Request.Validation

/-!
# Request files

A request file is a mapping whose key `requests` holds the requests: as a mapping from names to fields, or as
a list of fields with names among them. The structure of all entries is looked at first; then they are built
in order, and the first fault ends it.

* `Request.ofDocument`: the requests of a document, by name and in order.
-/

set_option autoImplicit false

namespace AccessPlan.Request

/-- The entry of a request file: the fields of one request, `name` among them. -/
abbrev Entry := Mapping

/-- The name of a value in a request file: its spelling. -/
def nameOf (v : Value) : Outcome String := orMisuse .longInteger v.spelling?

/-- An entry of the mapping form: its key is its name, whatever the fields say. -/
def namedEntry (path : String) (e : Value × Value) : Outcome Entry := do
  let name ← nameOf e.1
  match e.2 with
  | .map fields => pure (Mapping.put fields (.text "name") (.text name))
  | v => .error (.requestFile path (.namedNotMapping name v.kindName))

/-- An entry of the list form, which has to hold a name. -/
def numberedEntry (path : String) (e : Value × Nat) : Outcome Entry :=
  match e.1 with
  | .map fields =>
    if Mapping.hasKey fields (.text "name") then pure fields
    else .error (.requestFile path (.unnamed e.2))
  | v => .error (.requestFile path (.numberedNotMapping e.2 v.kindName))

/-- The entries of a document, if its structure is sound. -/
def entries (path : String) (document : Value) : Outcome (List Entry) :=
  match document with
  | .map m => match Mapping.getText? m "requests" with
    | none => .error (.requestFile path .noRequests)
    | some (.map requests) => requests.mapM (namedEntry path)
    | some (.list requests) => requests.zipIdx.mapM (numberedEntry path)
    | some v => .error (.requestFile path (.requestsKind v.kindName))
  | v => .error (.requestFile path (.notMapping v.kindName))

/-- Builds the entries in order; `taken` are the names of those before. -/
def buildAll (path : String) (taken : List String) :
    List Entry → Outcome (List (String × Request))
  | [] => pure []
  | entry :: rest => do
    let name ← nameOf ((Mapping.getText? entry "name").getD .null)
    if taken.contains name then .error (.requestFile path (.duplicate name))
    else
      let request ← build .builder entry (some name)
      pure ((name, request) :: (← buildAll path (name :: taken) rest))

/-- The requests of a document, by name and in order. -/
def ofDocument (path : String) (document : Value) : Outcome (List (String × Request)) := do
  buildAll path [] (← entries path document)

/-- The requests of a file, by name and in order. -/
def load (f : File) (read : File.Reader := Yaml.load) : Outcome (List (String × Request)) := do
  ofDocument f.path (← f.document (.requestFile f.path .malformed) read)

end AccessPlan.Request
