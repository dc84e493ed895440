import AccessPlan.Value

/-!
# Equality of values

Equality of values is decidable. It is finer than `Value.same`: it tells `1` from `true`, and mappings of
another order are not equal.
-/

set_option autoImplicit false

namespace AccessPlan.Value

mutual

/-- Whether two values are equal. -/
def isEqual : Value → Value → Bool
  | .null, w => match w with | .null => true | _ => false
  | .bool b, w => match w with | .bool c => b == c | _ => false
  | .int i, w => match w with | .int j => i == j | _ => false
  | .float x, w => match w with | .float y => decide (x = y) | _ => false
  | .text s, w => match w with | .text t => s == t | _ => false
  | .bytes bs, w => match w with | .bytes cs => bs == cs | _ => false
  | .date d, w => match w with | .date e => decide (d = e) | _ => false
  | .moment m, w => match w with | .moment n => decide (m = n) | _ => false
  | .list vs, w => match w with | .list ws => areEqual vs ws | _ => false
  | .tuple vs, w => match w with | .tuple ws => areEqual vs ws | _ => false
  | .set vs, w => match w with | .set ws => areEqual vs ws | _ => false
  | .map es, w => match w with | .map fs => entriesEqual es fs | _ => false
  | .loop a, w => match w with | .loop b => a == b | _ => false
termination_by structural v => v

/-- Whether two lists of values are equal. -/
def areEqual : List Value → List Value → Bool
  | [], ws => ws.isEmpty
  | v :: vs, ws => match ws with
    | [] => false
    | w :: ws => isEqual v w && areEqual vs ws
termination_by structural vs => vs

/-- Whether two lists of entries are equal. -/
def entriesEqual : List (Value × Value) → List (Value × Value) → Bool
  | [], fs => fs.isEmpty
  | (k, v) :: es, fs => match fs with
    | [] => false
    | (l, w) :: fs => isEqual k l && isEqual v w && entriesEqual es fs
termination_by structural es => es

end

mutual

theorem isEqual_iff : ∀ v w : Value, isEqual v w = true ↔ v = w
  | .null, w | .bool _, w | .int _, w | .float _, w | .text _, w | .bytes _, w | .date _, w
  | .moment _, w | .loop _, w => by cases w <;> simp [isEqual]
  | .list vs, w | .tuple vs, w | .set vs, w => by cases w <;> simp [isEqual, areEqual_iff vs]
  | .map es, w => by cases w <;> simp [isEqual, entriesEqual_iff es]

theorem areEqual_iff : ∀ vs ws : List Value, areEqual vs ws = true ↔ vs = ws
  | [], ws => by cases ws <;> simp [areEqual]
  | v :: vs, [] => by simp [areEqual]
  | v :: vs, w :: ws => by simp [areEqual, isEqual_iff v, areEqual_iff vs]

theorem entriesEqual_iff : ∀ es fs : List (Value × Value), entriesEqual es fs = true ↔ es = fs
  | [], fs => by cases fs <;> simp [entriesEqual]
  | (k, v) :: es, [] => by simp [entriesEqual]
  | (k, v) :: es, (l, w) :: fs => by simp [entriesEqual, isEqual_iff k, isEqual_iff v, entriesEqual_iff es]

end

instance : DecidableEq Value := fun v w => decidable_of_iff _ (isEqual_iff v w)

end AccessPlan.Value
