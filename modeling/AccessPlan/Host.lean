import AccessPlan.Fault

/-!
# Hosts

A host entry is a symbolic name if it holds an ASCII letter, and a literal address otherwise.
`Host.classify` splits a list of entries into both, keeping order and repeats.
-/

set_option autoImplicit false

namespace AccessPlan

namespace Value

/-- The content of a text. -/
def text? : Value → Option String
  | .text s => some s
  | _ => none

/-- The values that a walk through a value meets. -/
def items (v : Value) : Outcome (List Value) := orMisuse .notIterable v.elements?

/-- The texts that a walk through a value meets; anything else on the way is a misuse. -/
def texts (v : Value) : Outcome (List String) := do
  orMisuse .notText ((← v.items).mapM text?)

theorem text?_eq_some {v : Value} {s : String} (h : v.text? = some s) : v = .text s := by
  cases v <;> simp [text?] at h
  exact congrArg _ h

@[simp] theorem items_tuple (vs : List Value) : (Value.tuple vs).items = .ok vs := rfl

@[simp] theorem mapM_text? (ss : List String) : (ss.map Value.text).mapM text? = some ss := by
  induction ss with
  | nil => rfl
  | cons s ss ih => simp [text?, ih]

@[simp] theorem texts_tuple (ss : List String) : (Value.tuple (ss.map .text)).texts = .ok ss := by
  show orMisuse .notText ((ss.map Value.text).mapM text?) = .ok ss
  rw [mapM_text?]
  rfl

end Value

namespace Host

/-- Whether an entry is a symbolic name. -/
def isName (entry : String) : Bool := entry.toList.any Char.isAlpha

/-- The entries that are names and those that are addresses. -/
structure Buckets where
  names : List String
  addresses : List String
  deriving DecidableEq, Repr

/-- Splits host entries into names and addresses, each in the order given. -/
def classify (entries : List String) : Buckets :=
  ⟨entries.filter isName, entries.filter fun entry => !isName entry⟩

/-- Every entry lands in exactly one bucket. -/
theorem length_classify (entries : List String) :
    (classify entries).names.length + (classify entries).addresses.length = entries.length := by
  induction entries with
  | nil => rfl
  | cons e es ih =>
    simp only [classify] at ih ⊢
    by_cases h : isName e <;> simp [h] <;> omega

end Host

end AccessPlan
