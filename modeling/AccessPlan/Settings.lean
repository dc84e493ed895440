import AccessPlan.Label
import AccessPlan.MatchBlock
import AccessPlan.Text.Split
import AccessPlan.Value.Write

/-!
# Settings

The settings of the compiler are a tree of mappings, the user's laid over the defaults. A setting is
read by its path, the keys with dots between them. The label template among them may ask for members of
values; how these are looked up comes along with the tree.

* `Settings.layer`, `Settings.overlay`: one tree over another. Where both have a mapping the two are
  merged, and anywhere else the upper value hides the lower.
* `Settings.lookup?`: walks a path.
-/

set_option autoImplicit false

namespace AccessPlan

/-- A tree of settings, and the lookup of members for its labels. -/
structure Settings where
  tree : Mapping
  members : Label.Members := Label.Members.none

namespace Settings

/-! ## Layering -/

mutual

/-- A value over what is there already. -/
def layer : Value → Option Value → Value
  | .map upper, under => match under with
    | some (.map lower) => .map (overlay upper lower)
    | _ => .map upper
  | v, _ => v
termination_by structural v => v

/-- The entries of the first tree written over the second. -/
def overlay : List (Value × Value) → Mapping → Mapping
  | [], lower => lower
  | (k, v) :: rest, lower => overlay rest (lower.put k (layer v (lower.get? k)))
termination_by structural upper => upper

end

/-! ## Defaults -/

/-- The settings that hold unless the user says otherwise. -/
def defaults : Mapping := [
  (.text "pam", .map [
    (.text "permission", .text "+"),
    (.text "position", .text "end")]),
  (.text "firewall", .map [
    (.text "port", .int 22),
    (.text "protocol", .text "tcp"),
    (.text "action", .text "accept"),
    (.text "label_format", .text "022 \x7bname\x7d allow ssh from \x7bhost\x7d")]),
  (.text "tcpwrapper", .map [
    (.text "service", .text "sshd")]),
  (.text "sshd", .map [
    (.text "match_position", .text defaultPosition)])]

/-- The user's tree over the defaults. -/
def ofTree (tree : Mapping) : Settings where
  tree := overlay tree defaults

/-- The settings of a value that may be absent: it has to be a mapping if it is present. -/
def ofValue (data : Value) : Outcome Settings :=
  if data.isPresent then
    match data with
    | .map tree => pure (ofTree tree)
    | _ => misuse .notMapping
  else pure (ofTree [])

/-- The settings of the document of a settings file: nothing, or a mapping whose keys are all sections of
the defaults. -/
def ofDocument (path : String) (document : Value) : Outcome Settings :=
  match document with
  | .null => pure (ofTree [])
  | .map tree =>
    match (Mapping.keys tree).filter fun k => !Mapping.hasKey defaults k with
    | [] => pure (ofTree tree)
    | unknown => do
      let names ← unknown.mapM fun k => orMisuse .longInteger k.spelling?
      .error (.settings (.unknownSections path names))
  | v => .error (.settings (.notMapping v.kindName))

/-! ## Reading -/

/-- The value at the end of a path of keys. A path ends where a mapping comes again inside itself. -/
def lookup? : Value → List String → Option Value
  | v, [] => some v
  | .map m, key :: path => match Mapping.getText? m key with
    | some v => lookup? v path
    | none => none
  | _, _ :: _ => none

/-- The setting at a dotted path, or the default if the path leads nowhere. -/
def get (s : Settings) (path : String) (default : Value) : Value :=
  (lookup? (.map s.tree) (Text.split '.' path)).getD default

/-- The setting at a dotted path, or null. -/
def read (s : Settings) (path : String) : Value := s.get path .null

/-- The setting at a path that may be of any kind. -/
def getAt (s : Settings) (path default : Value) : Outcome Value :=
  match path with
  | .text p => pure (s.get p default)
  | .bytes _ => misuse .notText
  | _ => misuse .noPart

/-! ## Writing -/

/-- The tree with the value at the end of a path changed. -/
def update (change : Value → Outcome Value) : Value → List String → Outcome Value
  | v, [] => change v
  | .map m, key :: path => match Mapping.getText? m key with
    | some v => do pure (.map (Mapping.put m (.text key) (← update change v path)))
    | none => change .null
  | _, _ :: _ => change .null

/-- Writes into the value at a dotted path. -/
def write (s : Settings) (path : String) (key value : Value) : Outcome Settings := do
  match ← update (fun v => v.write key value) (.map s.tree) (Text.split '.' path) with
  | .map tree => pure { s with tree }
  | _ => pure s

end Settings

end AccessPlan
