import AccessPlan.Fault
import Mathlib.Data.List.Forall2
import Mathlib.Logic.Relation

/-!
# Outcomes of walks

How a step, a choice and a walk through a list come to a result or to a fault: what each part of them gave.

* `Outcome.bind_ok_iff`, `Outcome.bind_error_iff`: a step after a step.
* `Outcome.mapM_ok_iff`: one result for every item, in order.
* `Outcome.mapM_error_iff`: the fault of the first item that has one.
-/

set_option autoImplicit false

namespace AccessPlan

/-! ## Lists of results -/

section
variable {α β γ : Type}

theorem forall₂_comp_iff {R : α → β → Prop} {S : β → γ → Prop} {xs : List α} {zs : List γ} :
    (∃ ys, List.Forall₂ R xs ys ∧ List.Forall₂ S ys zs) ↔
      List.Forall₂ (Relation.Comp R S) xs zs := by
  constructor
  · rintro ⟨ys, hxy, hyz⟩
    induction hxy generalizing zs with
    | nil =>
      cases hyz
      exact .nil
    | cons hr _ ih =>
      cases hyz with
      | cons hs hyz => exact .cons ⟨_, hr, hs⟩ (ih hyz)
  · intro h
    induction h with
    | nil => exact ⟨[], .nil, .nil⟩
    | cons h _ ih =>
      obtain ⟨y, hr, hs⟩ := h
      obtain ⟨ys, hxy, hyz⟩ := ih
      exact ⟨y :: ys, .cons hr hxy, .cons hs hyz⟩

theorem exists_forall₂_iff {R : α → β → Prop} {xs : List α} :
    (∃ ys, List.Forall₂ R xs ys) ↔ ∀ x ∈ xs, ∃ y, R x y := by
  induction xs with
  | nil => simp
  | cons x xs ih =>
    rw [List.forall_mem_cons, ← ih]
    constructor
    · rintro ⟨_, h⟩
      cases h with
      | cons hr hs => exact ⟨⟨_, hr⟩, _, hs⟩
    · rintro ⟨⟨y, hr⟩, ys, hs⟩
      exact ⟨y :: ys, .cons hr hs⟩

theorem exists_of_forall₂_mem {R : α → β → Prop} {xs : List α} {ys : List β}
    (h : List.Forall₂ R xs ys) {y : β} (hy : y ∈ ys) : ∃ x ∈ xs, R x y := by
  induction h with
  | nil => cases hy
  | cons hr _ ih =>
    rcases List.mem_cons.1 hy with rfl | hy
    · exact ⟨_, List.mem_cons_self, hr⟩
    · obtain ⟨x, hx, hxy⟩ := ih hy
      exact ⟨x, List.mem_cons_of_mem _ hx, hxy⟩

theorem mapM_some_iff {f : α → Option β} {xs : List α} {ys : List β} :
    xs.mapM f = some ys ↔ List.Forall₂ (fun x y => f x = some y) xs ys := by
  induction xs generalizing ys with
  | nil => simp [eq_comm]
  | cons x xs ih =>
    simp only [List.mapM_cons, List.forall₂_cons_left_iff, ← ih]
    cases f x with
    | none => simp
    | some y => cases xs.mapM f <;> simp [eq_comm]

end

/-! ## Outcomes -/

section
variable {α β : Type}

@[simp] theorem Outcome.ok_bind (a : α) (f : α → Outcome β) : (Except.ok a : Outcome α) >>= f = f a := rfl

theorem Outcome.pure_eq (a : α) : (pure a : Outcome α) = .ok a := rfl

theorem Outcome.bind_ok_iff {x : Outcome α} {f : α → Outcome β} {b : β} :
    x >>= f = .ok b ↔ ∃ a, x = .ok a ∧ f a = .ok b := by
  cases x with
  | error e =>
    constructor
    · intro h
      cases h
    · rintro ⟨a, h, -⟩
      cases h
  | ok a => exact ⟨fun h => ⟨a, rfl, h⟩, fun ⟨_, ha, h⟩ => by cases ha; exact h⟩

theorem Outcome.bind_error_iff {x : Outcome α} {f : α → Outcome β} {e : Fault} :
    x >>= f = .error e ↔ x = .error e ∨ ∃ a, x = .ok a ∧ f a = .error e := by
  cases x with
  | error d =>
    constructor
    · intro h
      cases h
      exact .inl rfl
    · rintro (h | ⟨a, h, -⟩)
      · cases h
        rfl
      · cases h
  | ok a =>
    constructor
    · intro h
      exact .inr ⟨a, rfl, h⟩
    · rintro (h | ⟨b, hb, h⟩)
      · cases h
      · cases hb
        exact h

@[simp] theorem Outcome.pure_ok_iff {a b : α} : (pure a : Outcome α) = .ok b ↔ a = b :=
  ⟨fun h => Except.ok.inj h, fun h => congrArg _ h⟩

theorem Outcome.exists_ok {x : Outcome α} (h : x.isOk = true) : ∃ a, x = .ok a := by
  cases x with
  | error e => cases h
  | ok a => exact ⟨a, rfl⟩

@[simp] theorem orMisuse_ok_iff {m : Misuse} {o : Option α} {a : α} :
    orMisuse m o = .ok a ↔ o = some a := by
  cases o with
  | none => simp [orMisuse, misuse]
  | some b => simp [orMisuse]

/-- A walk through a list gives one result for every item, in order. -/
theorem Outcome.mapM_ok_iff {f : α → Outcome β} {xs : List α} {ys : List β} :
    xs.mapM f = .ok ys ↔ List.Forall₂ (fun x y => f x = .ok y) xs ys := by
  induction xs generalizing ys with
  | nil => exact ⟨fun h => by cases h; exact .nil, fun h => by cases h; rfl⟩
  | cons x xs ih =>
    rw [List.mapM_cons, bind_ok_iff]
    constructor
    · rintro ⟨y, hy, h⟩
      obtain ⟨zs, hzs, h⟩ := bind_ok_iff.1 h
      cases h
      exact .cons hy (ih.1 hzs)
    · intro h
      cases h with
      | cons hy hys => exact ⟨_, hy, bind_ok_iff.2 ⟨_, ih.2 hys, rfl⟩⟩

/-- A walk through a list fails with the error of the first item that has one. -/
theorem Outcome.mapM_error_iff {f : α → Outcome β} {xs : List α} {e : Fault} :
    xs.mapM f = .error e ↔
      ∃ before x after, xs = before ++ x :: after ∧ (∃ ys, before.mapM f = .ok ys) ∧
        f x = .error e := by
  induction xs with
  | nil =>
    constructor
    · intro h
      cases h
    · rintro ⟨before, x, after, h, -⟩
      cases before <;> cases h
  | cons x xs ih =>
    rw [List.mapM_cons, bind_error_iff]
    constructor
    · rintro (hx | ⟨y, hy, h⟩)
      · exact ⟨[], x, xs, rfl, ⟨[], rfl⟩, hx⟩
      · obtain h | ⟨_, -, h⟩ := bind_error_iff.1 h
        · obtain ⟨before, z, after, rfl, ⟨ys, hys⟩, hz⟩ := ih.1 h
          exact ⟨x :: before, z, after, rfl,
            ⟨y :: ys, mapM_ok_iff.2 (.cons hy (mapM_ok_iff.1 hys))⟩, hz⟩
        · cases h
    · rintro ⟨before, z, after, h, ⟨ys, hys⟩, hz⟩
      cases before with
      | nil =>
        cases h
        exact .inl hz
      | cons x' before =>
        cases h
        cases mapM_ok_iff.1 hys with
        | cons hy htail =>
          have hrest := ih.2 ⟨before, z, after, rfl, ⟨_, mapM_ok_iff.2 htail⟩, hz⟩
          exact .inr ⟨_, hy, bind_error_iff.2 (.inl hrest)⟩

theorem Outcome.exists_mapM {f : α → Outcome β} {xs : List α}
    (h : ∀ x ∈ xs, ∃ y, f x = .ok y) : ∃ ys, xs.mapM f = .ok ys := by
  obtain ⟨ys, hys⟩ := exists_forall₂_iff.2 h
  exact ⟨ys, mapM_ok_iff.2 hys⟩

theorem Outcome.mem_mapM {f : α → Outcome β} {xs : List α} {ys : List β}
    (h : xs.mapM f = .ok ys) {y : β} : y ∈ ys ↔ ∃ x ∈ xs, f x = .ok y := by
  have h2 := mapM_ok_iff.1 h
  clear h
  induction h2 with
  | nil => simp
  | @cons x z xs zs hz _ ih =>
    have hy : f x = .ok y ↔ y = z := by
      rw [hz]
      exact ⟨fun h => (Except.ok.inj h).symm, fun h => congrArg _ h.symm⟩
    simp [ih, hy]

/-- What every result of an item has, every result of the walk has. -/
theorem Outcome.forall_of_mapM {f : α → Outcome β} {xs : List α} {ys : List β} {P : β → Prop}
    (h : xs.mapM f = .ok ys) (hf : ∀ x y, f x = .ok y → P y) : ∀ y ∈ ys, P y := by
  have h2 := mapM_ok_iff.1 h
  clear h
  induction h2 with
  | nil => simp
  | cons hy _ ih => exact List.forall_mem_cons.2 ⟨hf _ _ hy, ih⟩

end

end AccessPlan
