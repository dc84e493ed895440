import AccessPlan.Host

/-!
# Match blocks

A Match block of the sshd configuration applies directives to the hosts of one pattern. `Header` names a
block and says where it goes; `MatchBlock.synthesize` makes the blocks of a request, at most one for its
symbolic names and one for its addresses, in that order.
-/

set_option autoImplicit false

namespace AccessPlan

/-- What a Match block compares its pattern with. -/
inductive Criteria where
  | host
  | address
  deriving DecidableEq, Repr

namespace Criteria

/-- The word of a criterion. -/
def word : Criteria → String
  | .host => "Host"
  | .address => "Address"

/-- The criterion of a word. -/
def ofWord? (word : String) : Option Criteria :=
  [host, address].find? fun c => c.word == word

@[simp] theorem ofWord?_word (c : Criteria) : ofWord? c.word = some c := by cases c <;> decide

end Criteria

/-- Where a new block goes unless the settings say otherwise. -/
def defaultPosition : String := "before first match"

/-- The header of a Match block: criterion, host pattern, and its place among the blocks there are. -/
structure Header where
  criteria : Criteria
  pattern : Value
  position : Value

namespace Header

/-- The key by which a block is known: criterion and pattern. -/
def key (h : Header) : Outcome String := do
  pure (h.criteria.word ++ " " ++ (← orMisuse .longInteger h.pattern.spelling?))

/-- Two headers are equal if they agree in every part. -/
def same (h k : Header) : Bool :=
  h.criteria == k.criteria && h.pattern.same k.pattern && h.position.same k.position

end Header

/-- A Match block: header parts and the directives that it holds. -/
structure MatchBlock where
  criteria : Criteria
  pattern : String
  parameters : Mapping
  position : Value

namespace MatchBlock

/-- The header of a block. -/
def header (b : MatchBlock) : Header := ⟨b.criteria, .text b.pattern, b.position⟩

/-- The key by which a block is known. -/
def key (b : MatchBlock) : String := b.criteria.word ++ " " ++ b.pattern

/-- Two blocks are equal if they agree in every part. -/
def same (b c : MatchBlock) : Bool :=
  b.criteria == c.criteria && b.pattern == c.pattern &&
    (Value.map b.parameters).same (.map c.parameters) && b.position.same c.position

@[simp] theorem header_key (b : MatchBlock) : b.header.key = .ok b.key := rfl

/-- An item of a list of pairs as an entry. -/
def entryOf (pair : Value) : Outcome (Value × Value) := do
  match ← pair.items with
  | [k, v] => if k.isKey then pure (k, v) else misuse .notKey
  | _ => misuse .notPair

/-- The entries of a mapping, or of a list of pairs. -/
def entriesOf : Value → Outcome Mapping
  | .map m => pure m
  | v => do pure (Mapping.ofEntries (← (← v.items).mapM entryOf))

/-- The block for one bucket of hosts, if the bucket holds any. -/
def ofBucket (criteria : Criteria) (hosts parameters position : Value) :
    Outcome (List MatchBlock) :=
  if hosts.isPresent then do
    let pattern := joinTexts "," (← hosts.texts)
    pure [⟨criteria, pattern, ← entriesOf parameters, position⟩]
  else pure []

/-- The blocks for the names and the addresses of a request. Each has the directives for itself. -/
def synthesize (names addresses parameters position : Value) : Outcome (List MatchBlock) := do
  pure ((← ofBucket .host names parameters position) ++
    (← ofBucket .address addresses parameters position))

end MatchBlock

end AccessPlan
