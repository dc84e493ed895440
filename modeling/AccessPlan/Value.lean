import AccessPlan.Calendar
import AccessPlan.Number.Binary64

/-!
# Values

What a settings file, a request file or a caller may hand over: scalars, sequences and mappings of
any nesting. A list or a mapping may hold itself: it is written out once, and the place inside it at which
it comes again is a `Value.loop`.

`Value.same` is equality by content, under which `1`, `true` and `1.0` are one value; it decides when two
keys of a mapping are one key. `Mapping` is the ordered mapping: a repeated key keeps its first place and
takes the last value.
-/

set_option autoImplicit false

namespace AccessPlan

/-- The kinds of value that can hold themselves. -/
inductive LoopKind where
  | list
  | map
  deriving DecidableEq, Repr

/-- A value of any kind. -/
inductive Value where
  | null
  | bool (b : Bool)
  | int (i : Int)
  | float (x : Binary64)
  | text (s : String)
  | bytes (bs : List UInt8)
  | date (d : Date)
  | moment (m : Moment)
  | list (items : List Value)
  | tuple (items : List Value)
  | set (items : List Value)
  | map (entries : List (Value × Value))
  /-- A list or a mapping that this place is inside of. -/
  | loop (kind : LoopKind)
  deriving Inhabited

namespace Value

/-! ## Kinds -/

/-- The name of a value's kind, as messages show it. -/
def kindName : Value → String
  | .null => "NoneType"
  | .bool _ => "bool"
  | .int _ => "int"
  | .float _ => "float"
  | .text _ => "str"
  | .bytes _ => "bytes"
  | .date _ => "date"
  | .moment _ => "datetime"
  | .list _ | .loop .list => "list"
  | .tuple _ => "tuple"
  | .set _ => "set"
  | .map _ | .loop .map => "dict"

/-- Whether a value counts as present: not null, not false, not zero and not empty. -/
def isPresent : Value → Bool
  | .null => false
  | .bool b => b
  | .int i => i != 0
  | .float x => !x.isZero
  | .text s => s != ""
  | .bytes bs => !bs.isEmpty
  | .date _ | .moment _ => true
  | .list items | .tuple items | .set items => !items.isEmpty
  | .map entries => !entries.isEmpty
  -- it holds at least the way down to this place
  | .loop _ => true

/-- The value itself if it is present, else the other one. -/
def orElse (v other : Value) : Value := if v.isPresent then v else other

/-- What a value yields when it is walked through: the items of a sequence, the characters of a text,
the numbers of a byte string, the keys of a mapping. Scalars cannot be walked through, and a loop is only
where it begins. -/
def elements? : Value → Option (List Value)
  | .text s => some (s.toList.map fun c => .text (String.singleton c))
  | .bytes bs => some (bs.map fun b => .int b.toNat)
  | .list items | .tuple items | .set items => some items
  | .map entries => some (entries.map Prod.fst)
  | _ => none

/-! ## Equality by content -/

/-- A number as an integer, if it is a whole one. -/
def whole? : Value → Option Int
  | .bool b => some (if b then 1 else 0)
  | .int i => some i
  | _ => none

mutual

/-- Equality by content. Numbers of all kinds are compared by value; a list differs from a tuple;
mappings and sets are compared without regard to order. -/
def same : Value → Value → Bool
  | .null, v => match v with | .null => true | _ => false
  | .bool b, v => match v with
    | .bool c => b == c
    | .int i => (if b then 1 else 0) == i
    | .float x => x.equalsInt (if b then 1 else 0)
    | _ => false
  | .int i, v => match v with
    | .bool c => i == (if c then 1 else 0)
    | .int j => i == j
    | .float x => x.equalsInt i
    | _ => false
  | .float x, v => match v with
    | .bool c => x.equalsInt (if c then 1 else 0)
    | .int j => x.equalsInt j
    | .float y => x.equal y
    | _ => false
  | .text s, v => match v with | .text t => s == t | _ => false
  | .bytes s, v => match v with | .bytes t => s == t | _ => false
  | .date d, v => match v with | .date e => d == e | _ => false
  | .moment m, v => match v with | .moment n => m.same n | _ => false
  | .list xs, v => match v with | .list ys => sameItems xs ys | _ => false
  | .tuple xs, v => match v with | .tuple ys => sameItems xs ys | _ => false
  | .set xs, v => match v with
    | .set ys => xs.length == ys.length && allIn xs ys
    | _ => false
  | .map xs, v => match v with
    | .map ys => xs.length == ys.length && entriesIn xs ys
    | _ => false
  | .loop a, v => match v with | .loop b => a == b | _ => false
termination_by structural x => x

/-- Item by item equality. -/
def sameItems : List Value → List Value → Bool
  | [], ys => ys.isEmpty
  | x :: xs, ys => match ys with
    | [] => false
    | y :: ys => same x y && sameItems xs ys
termination_by structural x => x

/-- Whether every item of the first list is in the second. -/
def allIn : List Value → List Value → Bool
  | [], _ => true
  | x :: xs, ys => ys.any (same x) && allIn xs ys
termination_by structural x => x

/-- Whether every entry of the first mapping is in the second. -/
def entriesIn : List (Value × Value) → List (Value × Value) → Bool
  | [], _ => true
  | (k, v) :: xs, ys => (match ys.find? fun e => same k e.1 with
      | some e => same v e.2
      | none => false) && entriesIn xs ys
termination_by structural x => x

end

/-! ## Keys -/

mutual

/-- Whether a value may be the key of a mapping: lists, sets and mappings may not, at any depth of a
tuple. -/
def isKey : Value → Bool
  | .list _ | .set _ | .map _ | .loop _ => false
  | .tuple items => allKeys items
  | _ => true

/-- Whether all values may be keys. -/
def allKeys : List Value → Bool
  | [] => true
  | v :: vs => isKey v && allKeys vs

end

@[simp] theorem same_text (s t : String) : same (.text s) (.text t) = (s == t) := rfl

@[simp] theorem isKey_text (s : String) : isKey (.text s) = true := rfl

end Value

/-! ## Mappings -/

/-- Entries in the order in which their keys first came. -/
abbrev Mapping := List (Value × Value)

namespace Mapping

/-- The value at a key. -/
def get? (m : Mapping) (key : Value) : Option Value :=
  (m.find? fun e => key.same e.1).map Prod.snd

/-- The value at a key that is a text. -/
def getText? (m : Mapping) (key : String) : Option Value := get? m (.text key)

/-- Whether a key is there. -/
def hasKey (m : Mapping) (key : Value) : Bool := m.any fun e => key.same e.1

/-- Writes a value: a key that is there keeps its place and its spelling, a new one comes last. -/
def put : Mapping → Value → Value → Mapping
  | [], key, value => [(key, value)]
  | (k, v) :: rest, key, value =>
    if key.same k then (k, value) :: rest else (k, v) :: put rest key value

/-- The mapping without a key. -/
def erase (m : Mapping) (key : Value) : Mapping := m.filter fun e => !key.same e.1

/-- Writes entries one after another. -/
def putAll (m : Mapping) (entries : List (Value × Value)) : Mapping :=
  entries.foldl (fun m e => put m e.1 e.2) m

/-- The mapping of a list of entries. -/
def ofEntries (entries : List (Value × Value)) : Mapping := putAll [] entries

/-- The keys in order. -/
def keys (m : Mapping) : List Value := m.map Prod.fst

end Mapping

end AccessPlan
