import AccessPlan.Host
import AccessPlan.Value.Write

/-!
# Access requests

A request allows users and groups to reach sshd from a list of hosts. A `Request` has passed validation. A
`Draft` has the same fields with values of any kind; it may have been put together without any check.
-/

set_option autoImplicit false

namespace AccessPlan

/-- The value of a directive: one word or several. -/
inductive Directive where
  | word (s : String)
  | words (ss : List String)
  deriving DecidableEq, Repr

/-- A directive as a value. -/
def Directive.toValue : Directive → Value
  | .word s => .text s
  | .words ss => .tuple (ss.map .text)

/-- A valid request. -/
structure Request where
  name : String
  hosts : List String
  users : List String
  groups : List String
  /-- The sshd directives that the request sets, in order. -/
  overrides : List (String × Directive)
  deriving DecidableEq, Repr

/-- The fields of a request with values of any kind. -/
structure Draft where
  name : Value
  /-- The hosts may be missing. -/
  hosts : Option Value
  users : Value
  groups : Value
  overrides : Value
  /-- Whether the directives are fixed, as those of a validated request are. -/
  isFixed : Bool

/-- The directives of a request as a mapping. -/
def Request.directives (r : Request) : Mapping :=
  r.overrides.map fun e => (.text e.1, e.2.toValue)

/-- A valid request as a draft. -/
def Request.draft (r : Request) : Draft where
  name := .text r.name
  hosts := some (.tuple (r.hosts.map .text))
  users := .tuple (r.users.map .text)
  groups := .tuple (r.groups.map .text)
  overrides := .map r.directives
  isFixed := true

namespace Draft

/-- The value of the hosts. -/
def hostValue (d : Draft) : Outcome Value := orMisuse .noHosts d.hosts

/-- Whether a draft allows nobody. -/
def allowsNobody (d : Draft) : Bool := !d.users.isPresent && !d.groups.isPresent

/-- Refuses a draft that allows nobody. -/
def checkSubjects (d : Draft) : Outcome Unit :=
  if d.allowsNobody then .error .emptySubjects else pure ()

/-- The fields of a draft by name. -/
def fields (d : Draft) : Outcome (List (String × Value)) := do
  let hosts ← d.hostValue
  pure [("name", d.name), ("hostlist", hosts), ("users", d.users), ("groups", d.groups),
    ("sshd_overrides", d.overrides)]

/-- Writes a directive into a draft, unless its directives are fixed. -/
def writeOverride (d : Draft) (key value : Value) : Outcome Draft :=
  if d.isFixed then misuse .readOnly
  else do pure { d with overrides := ← d.overrides.write key value }

end Draft

@[simp] theorem Request.allowsNobody_draft (r : Request) :
    r.draft.allowsNobody = (r.users.isEmpty && r.groups.isEmpty) := by
  simp [Draft.allowsNobody, Request.draft, Value.isPresent]

end AccessPlan
