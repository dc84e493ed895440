import AccessPlan.Fault

/-!
# Writing into values

Only mappings and lists can be written into.
-/

set_option autoImplicit false

namespace AccessPlan

namespace Value

/-- Writes into a mapping at a key, or into a list at an index that it has; an index below zero counts
from the end. -/
def write (target key value : Value) : Outcome Value :=
  match target with
  | .map m => if key.isKey then pure (.map (Mapping.put m key value)) else misuse .notKey
  | .list items => do
    let index ← orMisuse .badSubscript key.whole?
    let place := if index < 0 then index + items.length else index
    if 0 ≤ place ∧ place < items.length then pure (.list (items.set place.toNat value))
    else misuse .outOfRange
  | _ => misuse .notWritable

end Value

end AccessPlan
