import AccessPlan.Operation

/-!
# Plans

A plan is the ordered list of operations of one compilation. `Plan.unique` keeps the first operation for
each key.
-/

set_option autoImplicit false

namespace AccessPlan

/-- Operations in the order in which they are to be applied. -/
abbrev Plan := List Operation

namespace Plan

/-- The operations of one kind, in order. -/
def ofKind (kind : OperationKind) (p : Plan) : Plan := p.filter fun op => op.kind? == some kind

@[simp] theorem ofKind_append (kind : OperationKind) (p q : Plan) :
    ofKind kind (p ++ q) = p.ofKind kind ++ q.ofKind kind := List.filter_append _ _

/-- The records of all operations. -/
def records (p : Plan) : Outcome (List (List (String × Value))) := p.mapM Operation.record

/-- The keys of all operations. -/
def keys (p : Plan) : Outcome (List Value) := p.mapM Operation.key

/-- The keys of the Match blocks that the operations are about, in order. -/
def matchKeys (p : Plan) : Outcome (List String) := (p.filterMap Operation.header?).mapM Header.key

/-- The keys of the Match blocks that the operations create, in order. -/
def createdKeys (p : Plan) : Outcome (List String) := (p.ofKind .matchBlockCreate).matchKeys

/-- The options of the identity service that the operations write, in order. -/
def directives (p : Plan) : List String := p.filterMap Operation.directive?

/-- The operations whose key is neither among `seen` nor that of an earlier one. -/
def uniqueFrom (seen : List Value) : Plan → Outcome Plan
  | [] => pure []
  | op :: rest => do
    let key ← op.key
    if !key.isKey then misuse .notKey
    else if seen.any key.same then uniqueFrom seen rest
    else do pure (op :: (← uniqueFrom (key :: seen) rest))

/-- The first operation for each key, in order. -/
def unique (p : Plan) : Outcome Plan := uniqueFrom [] p

/-- Equality of plans, operation by operation. -/
def same : Plan → Plan → Bool
  | [], [] => true
  | a :: p, b :: q => a.same b && same p q
  | _, _ => false

end Plan

end AccessPlan
