import AccessPlan.Host

/-!
# Directives

The sshd directives of a Match block. `Directives.normalize?` turns a value into directive words, and
`Directives.isEndless` says where that never comes to an end; `Directives.merge` writes the allow lists of a
request over its own directives.
-/

set_option autoImplicit false

namespace AccessPlan.Directives

/-- The directive that lists the users who may log in. -/
def allowUsers : String := "AllowUsers"

/-- The directive that lists the groups whose members may log in. -/
def allowGroups : String := "AllowGroups"

mutual

/-- A value in directive words: truth values become `yes` and `no`, numbers their text, and lists keep
their shape. There is none if an integer is too long to be written, or a list holds itself. -/
def normalize? : Value → Option Value
  | .bool b => some (.text (if b then "yes" else "no"))
  | .int i => (Value.literal? (.int i)).map .text
  | .float x => some (.text x.text)
  | .list items => (normalizeAll? items).map .list
  | .tuple items => (normalizeAll? items).map .list
  | .loop .list => none
  | v => some v
termination_by structural v => v

/-- The values in directive words. -/
def normalizeAll? : List Value → Option (List Value)
  | [] => some []
  | v :: vs => match normalize? v, normalizeAll? vs with
    | some w, some ws => some (w :: ws)
    | _, _ => none
termination_by structural vs => vs

end

mutual

/-- Whether putting a value into words comes to no end: it goes through the items in order, and comes upon a
list inside itself before it comes upon an integer that is too long. -/
def isEndless : Value → Bool
  | .list items | .tuple items => anyEndless items
  | .loop .list => true
  | _ => false
termination_by structural v => v

/-- Whether putting the values into words, one after another, comes to no end. -/
def anyEndless : List Value → Bool
  | [] => false
  | v :: vs => isEndless v || ((normalize? v).isSome && anyEndless vs)
termination_by structural vs => vs

end

/-- A sequence as a list; any other value as it is. -/
def listed : Value → Value
  | .tuple items => .list items
  | v => v

/-- Writes the list of subjects at a directive, if there are subjects. -/
def allow (directive : String) (subjects : Value) (m : Mapping) : Outcome Mapping :=
  if subjects.isPresent then do pure (m.put (.text directive) (.list (← subjects.items)))
  else pure m

/-- The directives of a request with its allow lists written over them. A directive of the same name is
replaced in its place. -/
def merge (overrides users groups : Value) : Outcome Mapping := do
  let .map entries := overrides | misuse .notMapping
  let own : Mapping := entries.map fun e => (e.1, listed e.2)
  allow allowGroups groups (← allow allowUsers users own)

end AccessPlan.Directives
