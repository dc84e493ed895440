import AccessPlan.Label.Number
import AccessPlan.Label.Template
import AccessPlan.Host

/-!
# Labels

A label is a template filled with the name of a request and one of its hosts. Every field is looked up
in the template as it was written: what stands in a name or a host is never read as a field.

* `Label.Members`: how the members of values are looked up, which a field may ask for.
* `Label.render`: the label of a host after a template.
-/

set_option autoImplicit false

namespace AccessPlan.Label

/-- How a member of a value, a part with a name, is looked up. -/
abbrev Members := Value → String → Outcome Value

/-- The lookup of values without members. -/
def Members.none : Members := fun _ _ => misuse .noPart

/-- What the fields of a template stand for. -/
structure Arguments where
  name : Value
  host : Value

/-! ## Looking a field up -/

/-- The number that a name spells, if it consists of decimal digits; a number that is too large is a
mistake in the template. -/
def index (name : List Char) : Outcome (Option Nat) :=
  match Layout.number? none name with
  | none => misuse .malformedTemplate
  | some (some n, []) => pure (some n)
  | some _ => pure none

/-- An item of a value: by index from a sequence, by key from a mapping. -/
def itemAt (v : Value) (name : List Char) (index : Option Nat) : Outcome Value :=
  match v, index with
  | .map m, some n => orMisuse .unknownName (Mapping.get? m (.int n))
  | .map m, none => orMisuse .unknownName (Mapping.get? m (.text (String.ofList name)))
  | .set _, _ => misuse .badSubscript
  | v, some n => match v.elements? with
    | some items => orMisuse .outOfRange items[n]?
    | none => misuse .badSubscript
  | _, none => misuse .badSubscript

/-- Whether a name in a path ends here. -/
def endsName (c : Char) : Bool := c == '.' || c == '['

/-- Follows the path of a field: a dot takes a member, and square brackets take an item. -/
def follow (members : Members) : List Char → Value → Outcome Value
  | [], v => pure v
  | '.' :: path, v => do
    let name := path.takeWhile fun c => !endsName c
    if name.isEmpty then misuse .malformedTemplate
    else follow members (path.dropWhile fun c => !endsName c) (← members v (String.ofList name))
  | '[' :: path, v =>
    match _h : path.dropWhile (· != ']') with
    | [] => misuse .malformedTemplate
    | _ :: rest => do
      let name := path.takeWhile (· != ']')
      let index ← index name
      if name.isEmpty then misuse .malformedTemplate
      else follow members rest (← itemAt v name index)
  | _ :: _, _ => misuse .malformedTemplate
termination_by path => path.length
decreasing_by
  · have := (List.dropWhile_suffix fun c => !endsName c : path.dropWhile _ <:+ path).length_le
    exact Nat.lt_succ_of_le this
  · have := (List.dropWhile_suffix (· != ']') : path.dropWhile _ <:+ path).length_le
    rw [_h] at this
    simp at this ⊢
    omega

/-- The value of a field. Arguments go by name only. -/
def lookup (members : Members) (args : Arguments) (target : List Char) : Outcome Value := do
  let first := target.takeWhile fun c => !endsName c
  let index ← index first
  if first.isEmpty || index.isSome then misuse .positional
  else
    let start ← if first == "name".toList then pure args.name
      else if first == "host".toList then pure args.host
      else misuse .unknownName
    follow members (target.dropWhile fun c => !endsName c) start

/-! ## Converting and laying out -/

/-- Applies a conversion: the literal, the spelling, or the literal in ASCII. -/
def convert (v : Value) : Option Char → Outcome Value
  | none => pure v
  | some 's' => do pure (.text (← orMisuse .longInteger v.spelling?))
  | some 'r' => do pure (.text (← orMisuse .longInteger v.literal?))
  | some 'a' => do pure (.text (Text.asciiOnly (← orMisuse .longInteger v.literal?)))
  | some _ => misuse .malformedTemplate

/-- Lays an integer out. -/
def layInteger (l : Layout) (i : Int) : Outcome (List Char) :=
  if l.isFractional then
    match Binary64.ofInt i with
    | .infinite _ => misuse .infinite
    | x => orMisuse .malformedTemplate (l.binary64? x)
  else if l.isCharacter && (i < 0 || i > 0x10ffff) then
    match l.basedInteger? 0 with
    | some _ => misuse .infinite
    | none => misuse .malformedTemplate
  else orMisuse .malformedTemplate (l.basedInteger? i)

/-- Lays a value out. An empty layout is the spelling; only texts and numbers have any other. -/
def lay (v : Value) (format : List Char) : Outcome (List Char) :=
  if format.isEmpty then do
    pure (← orMisuse .longInteger v.spelling?).toList
  else match v with
    | .text s => orMisuse .malformedTemplate ((Layout.parse? format).bind (·.text? s.toList))
    | .bool b => do
      layInteger (← orMisuse .malformedTemplate (Layout.parse? format)) (if b then 1 else 0)
    | .int i => do layInteger (← orMisuse .malformedTemplate (Layout.parse? format)) i
    | .float x => orMisuse .malformedTemplate ((Layout.parse? format).bind (·.binary64? x))
    | _ => misuse .noFormat

/-! ## Rendering -/

mutual

/-- The text of one piece. Fields inside a format are filled in first, to the given depth. -/
def renderPiece (members : Members) (args : Arguments) (depth : Nat) (piece : Piece) :
    Outcome (List Char) :=
  match depth, piece with
  | _, .literal c => pure [c]
  | _, .malformed => misuse .malformedTemplate
  | 0, .field _ => misuse .malformedTemplate
  | depth + 1, .field f => do
    let v ← lookup members args f.target
    let v ← convert v f.conversion
    let format ← if f.format.contains '\x7b' then renderFrom members args depth f.format
      else pure f.format
    lay v format
termination_by (depth, 0)

/-- The text of a template. -/
def renderFrom (members : Members) (args : Arguments) (depth : Nat) (template : List Char) :
    Outcome (List Char) :=
  match depth with
  | 0 => misuse .malformedTemplate
  | depth + 1 => do
    let texts ← (Template.parse template).mapM (renderPiece members args (depth + 1))
    pure texts.flatten
termination_by (depth, 1)

end

/-- The label of a request's host after a template. A format may hold fields, and those no further ones. -/
def render (members : Members) (template : String) (args : Arguments) : Outcome String := do
  pure (String.ofList (← renderFrom members args 2 template.toList))

end AccessPlan.Label
