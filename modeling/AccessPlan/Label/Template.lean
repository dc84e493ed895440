import AccessPlan.Text.Digit

/-!
# Label templates

A template is literal text with fields in braces; a brace that is written twice is literal text. A field
is a name with a path, perhaps a conversion after an exclamation mark, and perhaps a format after a
colon. `Template.parse` cuts a template into pieces from left to right. What follows a mistake is not
read: the mistake is a piece of its own, so that the fields before it are looked up first.

* `Template.length_of_scanField`: a field takes at least one character, so that `parse` ends.
-/

set_option autoImplicit false

namespace AccessPlan.Label

/-- A field of a template. -/
structure Field where
  /-- Name and path, unread. -/
  target : List Char
  conversion : Option Char
  /-- The format, which may hold fields itself. -/
  format : List Char
  deriving DecidableEq, Repr

/-- A piece of a template. -/
inductive Piece where
  | literal (c : Char)
  | field (f : Field)
  | malformed
  deriving DecidableEq, Repr

namespace Template

/-- Reads up to the brace, colon or exclamation mark that ends the target of a field. Between square
brackets these characters mean nothing. -/
def scanTarget : Bool → List Char → Option (List Char × Char × List Char)
  | _, [] => none
  | true, c :: cs => (scanTarget (c != ']') cs).map fun (t, e, r) => (c :: t, e, r)
  | false, c :: cs =>
    if c == '\x7b' then none
    else if c == '\x7d' || c == ':' || c == '!' then some ([], c, cs)
    else (scanTarget (c == '[') cs).map fun (t, e, r) => (c :: t, e, r)

/-- Reads a format up to the brace that closes its field; `depth` braces are open inside it. -/
def scanFormat : Nat → List Char → Option (List Char × List Char)
  | _, [] => none
  | depth, c :: cs =>
    if c == '\x7d' && depth == 0 then some ([], cs)
    else
      let depth := if c == '\x7b' then depth + 1 else if c == '\x7d' then depth - 1 else depth
      (scanFormat depth cs).map fun (f, r) => (c :: f, r)

/-- Reads a field after its opening brace, and what follows its closing one. -/
def scanField (cs : List Char) : Option (Field × List Char) :=
  match scanTarget false cs with
  | none => none
  | some (target, '!', c :: '\x7d' :: rest) => some (⟨target, some c, []⟩, rest)
  | some (target, '!', c :: ':' :: rest) =>
    (scanFormat 0 rest).map fun (f, r) => (⟨target, some c, f⟩, r)
  | some (_, '!', _) => none
  | some (target, ':', rest) => (scanFormat 0 rest).map fun (f, r) => (⟨target, none, f⟩, r)
  | some (target, _, rest) => some (⟨target, none, []⟩, rest)

theorem length_of_scanTarget {b : Bool} {cs t r : List Char} {e : Char}
    (h : scanTarget b cs = some (t, e, r)) : r.length < cs.length := by
  induction cs generalizing b t with
  | nil => simp [scanTarget] at h
  | cons c cs ih =>
    cases b <;> simp only [scanTarget] at h
    · split at h
      · cases h
      split at h
      · cases h
        simp
      obtain ⟨⟨t', e', r'⟩, hs, he⟩ := Option.map_eq_some_iff.1 h
      cases he
      exact Nat.lt_succ_of_lt (ih hs)
    · obtain ⟨⟨t', e', r'⟩, hs, he⟩ := Option.map_eq_some_iff.1 h
      cases he
      exact Nat.lt_succ_of_lt (ih hs)

theorem length_of_scanFormat {n : Nat} {cs f r : List Char}
    (h : scanFormat n cs = some (f, r)) : r.length < cs.length := by
  induction cs generalizing n f with
  | nil => simp [scanFormat] at h
  | cons c cs ih =>
    simp only [scanFormat] at h
    split at h
    · cases h
      simp
    · obtain ⟨⟨f', r'⟩, hs, he⟩ := Option.map_eq_some_iff.1 h
      cases he
      exact Nat.lt_succ_of_lt (ih hs)

/-- A field takes at least one character of the template. -/
theorem length_of_scanField {cs r : List Char} {f : Field}
    (h : scanField cs = some (f, r)) : r.length < cs.length := by
  unfold scanField at h
  split at h
  · cases h
  · next hs =>
    have := length_of_scanTarget hs
    cases h
    simp at this
    omega
  · next hs =>
    have := length_of_scanTarget hs
    obtain ⟨⟨f', r'⟩, hf, he⟩ := Option.map_eq_some_iff.1 h
    have := length_of_scanFormat hf
    cases he
    simp at *
    omega
  · cases h
  · next hs =>
    have := length_of_scanTarget hs
    obtain ⟨⟨f', r'⟩, hf, he⟩ := Option.map_eq_some_iff.1 h
    have := length_of_scanFormat hf
    cases he
    omega
  · next hs =>
    have := length_of_scanTarget hs
    cases h
    exact this

/-- The pieces of a template. A brace is literal if it is written twice. -/
def parse : List Char → List Piece
  | [] => []
  | [c] => if c == '\x7b' || c == '\x7d' then [.malformed] else [.literal c]
  | c :: d :: rest =>
    if c == '\x7b' || c == '\x7d' then
      if d == c then .literal c :: parse rest
      else if c == '\x7d' then [.malformed]
      else match _h : scanField (d :: rest) with
        | some (field, after) => .field field :: parse after
        | none => [.malformed]
    else .literal c :: parse (d :: rest)
termination_by cs => cs.length
decreasing_by
  · simp only [List.length_cons]
    omega
  · have := length_of_scanField _h
    simp at this ⊢
    omega
  · simp

end Template

end AccessPlan.Label
