import AccessPlan.Proofs.Overrides
import AccessPlan.Value.Equality

/-!
# Values in directive words

What becomes of the value of a directive, said place by place. The places of a value are reached through its
lists and tuples, item by item (`Value.at?`); nothing else is looked into. `Value.Becomes` says what stands
at one place afterwards, and `Value.InWords` what a value in words may hold.

* `Directives.normalize?_iff`: one step, from a value to its parts.
* `Directives.normalize?_iff_places`: a value is put into words by what becomes of it at every place.
* `Directives.normalize?_self_iff`: what words leave as it is are the values in words.
* `Directives.normalized_everywhere`: which values can be put into words, and what is then left nowhere.
-/

set_option autoImplicit false

namespace AccessPlan

/-- Lists are related item by item if they are related at every index, and end at the same one. -/
theorem forall₂_iff_getElem? {α β : Type} {R : α → β → Prop} {xs : List α} {ys : List β} :
    List.Forall₂ R xs ys ↔ ∀ n : Nat, Option.Rel R xs[n]? ys[n]? := by
  constructor
  · intro h n
    induction h generalizing n with
    | nil => exact .none
    | cons hr _ ih =>
      cases n with
      | zero => exact .some hr
      | succ n => exact ih n
  · intro h
    induction xs generalizing ys with
    | nil =>
      cases ys with
      | nil => exact .nil
      | cons y ys => cases h 0
    | cons x xs ih =>
      cases ys with
      | nil => cases h 0
      | cons y ys => exact .cons (Option.rel_some_some.1 (h 0)) (ih fun n => h (n + 1))

theorem forall₂_congr_of_mem {α β : Type} {R S : α → β → Prop} {xs : List α} {ys : List β}
    (h : ∀ x ∈ xs, ∀ y, R x y ↔ S x y) : List.Forall₂ R xs ys ↔ List.Forall₂ S xs ys := by
  constructor
  · intro hr
    exact ((List.forall₂_and_left _ _).2 ⟨h, hr⟩).imp fun x y hxy => (hxy.1 y).1 hxy.2
  · intro hs
    exact ((List.forall₂_and_left _ _).2 ⟨h, hs⟩).imp fun x y hxy => (hxy.1 y).2 hxy.2

/-! ## Places -/

namespace Value

/-- The parts of a value: the items of a list or of a tuple. -/
def parts : Value → List Value
  | .list vs | .tuple vs => vs
  | _ => []

/-- The value at a place, which is reached by the indices of parts of parts. -/
def at? : Value → List Nat → Option Value
  | v, [] => some v
  | v, n :: place => v.parts[n]?.bind fun u => u.at? place

/-- Whether directives take a value as it is: it is no truth value, no number, no list and no tuple. -/
def isKept : Value → Bool
  | .bool _ | .int _ | .float _ | .list _ | .tuple _ | .loop .list => false
  | .null | .text _ | .bytes _ | .date _ | .moment _ | .set _ | .map _ | .loop .map => true

/-- What becomes of a value at its own place when it is put into words. -/
inductive Becomes : Value → Value → Prop
  | yes : Becomes (.bool true) (.text "yes")
  | no : Becomes (.bool false) (.text "no")
  | int (i : Int) : i.natAbs < Nat.pow 10 Numeral.maxDigits → Becomes (.int i) (.text (toString i))
  | float (x : Binary64) : Becomes (.float x) (.text x.text)
  | list {vs ws : List Value} : vs.length = ws.length → Becomes (.list vs) (.list ws)
  | tuple {vs ws : List Value} : vs.length = ws.length → Becomes (.tuple vs) (.list ws)
  | kept {v : Value} : v.isKept = true → Becomes v v

/-- A value whose integers can be written, wherever they stand, and in which no list stands inside itself. -/
structure Writable (v : Value) : Prop where
  integers : ∀ place i, v.at? place = some (.int i) → i.natAbs < Nat.pow 10 Numeral.maxDigits
  ends : ∀ place, v.at? place ≠ some (.loop .list)

/-- A value in words: at every place it is a list, or else it is no truth value, no number and no tuple. -/
def InWords (w : Value) : Prop :=
  ∀ place u, w.at? place = some u → u.isKept = true ∨ ∃ us, u = .list us

mutual

/-- What holds of a value if it holds of its parts holds of every value. -/
theorem parts_induction {motive : Value → Prop}
    (step : ∀ v : Value, (∀ u ∈ v.parts, motive u) → motive v) : ∀ v, motive v
  | .list vs | .tuple vs => step _ (forall_mem_induction step vs)
  | .null | .bool _ | .int _ | .float _ | .text _ | .bytes _ | .date _ | .moment _ | .set _
  | .map _ | .loop _ => step _ nofun

theorem forall_mem_induction {motive : Value → Prop}
    (step : ∀ v : Value, (∀ u ∈ v.parts, motive u) → motive v) : ∀ vs : List Value, ∀ v ∈ vs, motive v
  | [] => nofun
  | v :: vs => List.forall_mem_cons.2 ⟨parts_induction step v, forall_mem_induction step vs⟩

end

section
variable {R : Value → Value → Prop} {v w : Value}

theorem rel_bind_at?_iff {o o' : Option Value} :
    (∀ place, Option.Rel R (o.bind fun u => u.at? place) (o'.bind fun u => u.at? place)) ↔
      Option.Rel (fun u t => ∀ place, Option.Rel R (u.at? place) (t.at? place)) o o' := by
  constructor
  · intro h
    -- the empty place shows whether there is a value on either side
    cases o with
    | none =>
      cases o' with
      | none => exact .none
      | some t => cases h []
    | some u =>
      cases o' with
      | none => cases h []
      | some t => exact .some h
  · intro h place
    cases h with
    | none => exact .none
    | some h => exact h place

/-- Values are related at all places if they are at their own, and their parts are at all of theirs. -/
theorem rel_at?_iff : (∀ place, Option.Rel R (v.at? place) (w.at? place)) ↔
    R v w ∧ List.Forall₂ (fun u t => ∀ place, Option.Rel R (u.at? place) (t.at? place)) v.parts
      w.parts := by
  simp only [forall₂_iff_getElem?, ← rel_bind_at?_iff]
  constructor
  · intro h
    exact ⟨Option.rel_some_some.1 (h []), fun n place => h (n :: place)⟩
  · rintro ⟨hr, hparts⟩ place
    cases place with
    | nil => exact .some hr
    | cons n place => exact hparts n place

end

theorem Writable.of_mem_parts {u v : Value} (h : v.Writable) (hu : u ∈ v.parts) : u.Writable := by
  obtain ⟨n, hn⟩ := List.mem_iff_getElem?.1 hu
  have hat (place : List Nat) : v.at? (n :: place) = u.at? place := by
    rw [at?, hn]
    rfl
  constructor
  · intro place i hi
    exact h.integers (n :: place) i ((hat place).trans hi)
  · intro place hi
    exact h.ends (n :: place) ((hat place).trans hi)

end Value

/-! ## Words -/

namespace Directives

variable {v w : Value}

theorem normalize?_of_isKept (h : v.isKept = true) : normalize? v = some v := by
  cases v with
  | bool | int | float | list | tuple => cases h
  | loop kind =>
    cases kind with
    | list => cases h
    | map => rfl
  | _ => rfl

theorem map_list_normalizeAll?_iff {vs : List Value} : (normalizeAll? vs).map .list = some w ↔
    ∃ ws, List.Forall₂ (fun v w => normalize? v = some w) vs ws ∧ w = .list ws := by
  simp only [Option.map_eq_some_iff, normalizeAll?_iff, eq_comm (a := w)]

/-- One step: a value becomes another one at its own place, and its parts are put into words. -/
theorem normalize?_iff : normalize? v = some w ↔
    v.Becomes w ∧ List.Forall₂ (fun u t => normalize? u = some t) v.parts w.parts := by
  constructor
  · intro h
    cases v with
    | bool b =>
      cases h
      cases b with
      | false => exact ⟨.no, .nil⟩
      | true => exact ⟨.yes, .nil⟩
    | int i =>
      rw [normalize?, Option.map_eq_some_iff] at h
      obtain ⟨s, hs, rfl⟩ := h
      obtain ⟨hi, rfl⟩ := literal?_int_iff.1 hs
      exact ⟨.int i hi, .nil⟩
    | float x =>
      cases h
      exact ⟨.float x, .nil⟩
    | list vs =>
      obtain ⟨ws, hws, rfl⟩ := map_list_normalizeAll?_iff.1 h
      exact ⟨.list hws.length_eq, hws⟩
    | tuple vs =>
      obtain ⟨ws, hws, rfl⟩ := map_list_normalizeAll?_iff.1 h
      exact ⟨.tuple hws.length_eq, hws⟩
    | loop kind =>
      obtain ⟨rfl, rfl⟩ := normalize?_loop_iff.1 h
      exact ⟨.kept rfl, .nil⟩
    | _ =>
      cases h
      exact ⟨.kept rfl, .nil⟩
  · rintro ⟨hb, hparts⟩
    cases hb with
    | yes | no | float => rfl
    | int i hi => rw [normalize?, literal?_int_iff.2 ⟨hi, rfl⟩, Option.map_some]
    | list | tuple => exact map_list_normalizeAll?_iff.2 ⟨_, hparts, rfl⟩
    | kept hk => exact normalize?_of_isKept hk

/-- **A value is put into words** by what becomes of it at every place. -/
theorem normalize?_iff_places :
    normalize? v = some w ↔ ∀ place, Option.Rel Value.Becomes (v.at? place) (w.at? place) := by
  -- one step is taken on both sides, and what is left are the places inside the parts
  refine Value.parts_induction (motive := fun v => ∀ w, normalize? v = some w ↔
    ∀ place, Option.Rel Value.Becomes (v.at? place) (w.at? place)) ?_ v w
  intro v ih w
  rw [normalize?_iff, Value.rel_at?_iff]
  exact and_congr_right fun _ => forall₂_congr_of_mem ih

theorem exists_normalize?_of_writable (h : v.Writable) : ∃ w, normalize? v = some w := by
  refine Value.parts_induction (motive := fun v => v.Writable → ∃ w, normalize? v = some w) ?_ v h
  intro v ih h
  obtain ⟨ws, hws⟩ := exists_forall₂_iff.2 fun u hu => ih u hu (h.of_mem_parts hu)
  cases v with
  | int i => exact ⟨_, normalize?_iff.2 ⟨.int i (h.integers [] i rfl), .nil⟩⟩
  | list | tuple => exact ⟨.list ws, map_list_normalizeAll?_iff.2 ⟨ws, hws, rfl⟩⟩
  | loop kind =>
    cases kind with
    | list => exact absurd rfl (h.ends [])
    | map => exact ⟨_, rfl⟩
  | _ => exact ⟨_, rfl⟩

theorem writable_of_normalize? (h : normalize? v = some w) : v.Writable := by
  have hplace {place : List Nat} {u : Value} (hu : v.at? place = some u) : ∃ t, u.Becomes t := by
    have hrel := normalize?_iff_places.1 h place
    rw [hu] at hrel
    generalize w.at? place = o at hrel
    cases hrel with
    | some hb => exact ⟨_, hb⟩
  constructor
  · intro place i hi
    obtain ⟨t, hb⟩ := hplace hi
    cases hb with
    | int _ hlt => exact hlt
    | kept hk => cases hk
  · intro place hi
    obtain ⟨t, hb⟩ := hplace hi
    cases hb with
    | kept hk => cases hk

theorem inWords_of_normalize? (h : normalize? v = some w) : w.InWords := by
  intro place u hu
  have hplace := normalize?_iff_places.1 h place
  rw [hu] at hplace
  generalize v.at? place = o at hplace
  cases hplace with
  | some hb =>
    cases hb with
    | yes | no | int | float => exact .inl rfl
    | list | tuple => exact .inr ⟨_, rfl⟩
    | kept hk => exact .inl hk

/-- What words leave as it is are the values in words. -/
theorem normalize?_self_iff : normalize? w = some w ↔ w.InWords := by
  constructor
  · exact inWords_of_normalize?
  · intro h
    refine normalize?_iff_places.2 fun place => ?_
    cases hu : w.at? place with
    | none => exact .none
    | some u =>
      obtain hk | ⟨us, rfl⟩ := h place u hu
      · exact .some (.kept hk)
      · exact .some (.list rfl)

/-- **Words at every place.** A value can be put into words exactly if its integers can be written and no list
stands inside itself. It keeps its shape: at every place stands what becomes of the value there, and no other
value has that at all places. No truth value and no number is left at any depth, so that words put into words
once more stay as they are. -/
theorem normalized_everywhere (v : Value) :
    ((∃ w, normalize? v = some w) ↔ v.Writable) ∧
      ∀ w, (normalize? v = some w ↔
          ∀ place, Option.Rel Value.Becomes (v.at? place) (w.at? place)) ∧
        (normalize? v = some w → w.InWords ∧ normalize? w = some w) := by
  refine ⟨⟨?_, exists_normalize?_of_writable⟩, fun w => ⟨normalize?_iff_places, fun h => ?_⟩⟩
  · rintro ⟨w, h⟩
    exact writable_of_normalize? h
  · have hw := inWords_of_normalize? h
    exact ⟨hw, normalize?_self_iff.2 hw⟩

/-- Values of many kinds, in lists and tuples. -/
def mixedValue : Value := .list [
  .bool true,
  .tuple [.int 1, .list [.float (.finite false 6755399441055744 (-52)), .bool false], .null],
  .map [(.text "log", .bool true)],
  .bytes [255],
  .tuple []]

/-- The same in words. -/
def mixedWords : Value := .list [
  .text "yes",
  .list [.text "1", .list [.text "1.5", .text "no"], .null],
  .map [(.text "log", .bool true)],
  .bytes [255],
  .list []]

theorem mixedValue_normalized :
    normalize? mixedValue = some mixedWords ∧ mixedWords.InWords ∧
      normalize? mixedWords = some mixedWords ∧
      ∀ place, Option.Rel Value.Becomes (mixedValue.at? place) (mixedWords.at? place) := by
  have h : normalize? mixedValue = some mixedWords := by decide +kernel
  obtain ⟨hplaces, hwords⟩ := (normalized_everywhere mixedValue).2 mixedWords
  exact ⟨h, (hwords h).1, (hwords h).2, hplaces.1 h⟩

end Directives

end AccessPlan
