import AccessPlan.Plan
import AccessPlan.Proofs.Outcome
import Mathlib.Data.List.Nodup

/-!
# Plans without repeats

`Plan.unique` keeps the first operation for each key. For the keys that operations of requests have, texts
and tuples of texts (`Value.isTextual`), equality by content is equality, and a plan in which operations with
one key are equal loses nothing (`Plan.Condenses`).

* `Plan.exists_uniqueFrom`: the scan ends in a plan if every operation has a key that may be one.
* `Plan.uniqueFrom_sublist`, `Plan.uniqueFrom_fresh`, `Plan.uniqueFrom_covers`: what it keeps.
* `Plan.settle_apply`: where the last write wins, the last operation with a key is what counts.
* `Plan.exists_condenses`: a plan whose keys determine its operations loses nothing.
-/

set_option autoImplicit false

namespace AccessPlan

/-! ## Keys that are texts -/

namespace Value

mutual

/-- Whether a value is a text, or a tuple that holds nothing but such values. -/
def isTextual : Value → Bool
  | .text _ => true
  | .tuple items => allTextual items
  | _ => false
termination_by structural v => v

/-- Whether all values are textual. -/
def allTextual : List Value → Bool
  | [] => true
  | v :: vs => isTextual v && allTextual vs
termination_by structural vs => vs

end

@[simp] theorem allTextual_texts (ss : List String) : allTextual (ss.map .text) = true := by
  induction ss with
  | nil => rfl
  | cons s ss ih => exact ih

mutual

theorem isKey_of_isTextual : ∀ {v : Value}, v.isTextual = true → v.isKey = true
  | .text _, _ => rfl
  | .tuple _, h => allKeys_of_allTextual h

theorem allKeys_of_allTextual : ∀ {vs : List Value}, allTextual vs = true → allKeys vs = true
  | [], _ => rfl
  | v :: vs, h => by
    obtain ⟨hv, hvs⟩ := Bool.and_eq_true_iff.1 h
    rw [allKeys, isKey_of_isTextual hv, allKeys_of_allTextual hvs]
    rfl

end

mutual

/-- Textual values are equal by content only if they are equal. -/
theorem same_iff_of_isTextual : ∀ {v w : Value}, w.isTextual = true → (v.same w = true ↔ v = w)
  | v, .text t, _ => by cases v <;> simp [same]
  | v, .tuple ws, h => by
    cases v with
    | tuple vs => simpa [same] using sameItems_iff_of_allTextual h
    | _ => simp [same]

theorem sameItems_iff_of_allTextual :
    ∀ {vs ws : List Value}, allTextual ws = true → (sameItems vs ws = true ↔ vs = ws)
  | vs, [], _ => by cases vs <;> simp [sameItems]
  | vs, w :: ws, h => by
    obtain ⟨hw, hws⟩ := Bool.and_eq_true_iff.1 h
    cases vs with
    | nil => simp [sameItems]
    | cons v vs =>
      rw [sameItems, Bool.and_eq_true, same_iff_of_isTextual hw, sameItems_iff_of_allTextual hws,
        List.cons.injEq]

end

end Value

namespace Operation

/-- Whether an operation has a key. -/
def hasKey (key : Value) (op : Operation) : Bool :=
  match op.key with
  | .ok k => key.same k
  | .error _ => false

/-- Two operations have one key. -/
def SharesKey (a b : Operation) : Prop :=
  ∃ k k', a.key = .ok k ∧ b.key = .ok k' ∧ k.same k' = true

/-- The key of an operation is textual. -/
def HasTextualKey (op : Operation) : Prop := ∃ key, op.key = .ok key ∧ key.isTextual = true

theorem HasTextualKey.hasKey_iff {op : Operation} (h : op.HasTextualKey) {key : Value} :
    op.hasKey key = true ↔ op.key = .ok key := by
  obtain ⟨k, hk, ht⟩ := h
  simp only [hasKey, hk, Value.same_iff_of_isTextual ht, Except.ok.injEq]
  exact eq_comm

theorem HasTextualKey.sharesKey {a b : Operation} (h : a.HasTextualKey) (hk : a.key = b.key) :
    a.SharesKey b := by
  obtain ⟨k, ha, ht⟩ := h
  exact ⟨k, k, ha, hk ▸ ha, (Value.same_iff_of_isTextual ht).2 rfl⟩

theorem HasTextualKey.key_eq {a b : Operation} (h : b.HasTextualKey) (hs : a.SharesKey b) :
    a.key = b.key := by
  obtain ⟨k, k', ha, hb, hs⟩ := hs
  obtain ⟨l, hl, ht⟩ := h
  cases hb.symm.trans hl
  rw [ha, hb, (Value.same_iff_of_isTextual ht).1 hs]

end Operation

namespace Plan

/-! ## The scan -/

section
variable {seen : List Value} {p u : Plan}

/-- One step of the scan: an operation is dropped if its key was seen, and kept otherwise. -/
theorem uniqueFrom_cons {op : Operation} (h : uniqueFrom seen (op :: p) = .ok u) :
    ∃ key, op.key = .ok key ∧
      ((seen.any key.same = true ∧ uniqueFrom seen p = .ok u) ∨
        (seen.any key.same = false ∧ ∃ rest, uniqueFrom (key :: seen) p = .ok rest ∧
          u = op :: rest)) := by
  obtain ⟨key, hk, h⟩ := Outcome.bind_ok_iff.1 h
  refine ⟨key, hk, ?_⟩
  split at h
  · cases h
  · split at h
    · rename_i hs
      exact .inl ⟨hs, h⟩
    · rename_i hs
      obtain ⟨rest, hr, h⟩ := Outcome.bind_ok_iff.1 h
      exact .inr ⟨by simpa using hs, rest, hr, (Except.ok.inj h).symm⟩

theorem exists_uniqueFrom (h : ∀ op ∈ p, ∃ key, op.key = .ok key ∧ key.isKey = true)
    (seen : List Value) : ∃ u, uniqueFrom seen p = .ok u := by
  induction p generalizing seen with
  | nil => exact ⟨[], rfl⟩
  | cons op p ih =>
    obtain ⟨⟨key, hk, hkey⟩, hp⟩ := List.forall_mem_cons.1 h
    rw [uniqueFrom, hk, Outcome.ok_bind, hkey]
    by_cases hs : seen.any key.same = true
    · obtain ⟨u, hu⟩ := ih hp seen
      exact ⟨u, by simpa [hs] using hu⟩
    · obtain ⟨u, hu⟩ := ih hp (key :: seen)
      refine ⟨op :: u, ?_⟩
      simp only [Bool.not_true, Bool.false_eq_true, if_false, hs, hu, Outcome.ok_bind,
        Outcome.pure_eq]

theorem uniqueFrom_sublist (h : uniqueFrom seen p = .ok u) : u.Sublist p := by
  induction p generalizing seen u with
  | nil =>
    cases h
    exact .slnil
  | cons op p ih =>
    obtain ⟨key, -, ⟨-, hu⟩ | ⟨-, rest, hrest, rfl⟩⟩ := uniqueFrom_cons h
    · exact .cons op (ih hu)
    · exact .cons_cons op (ih hrest)

/-- What is kept has a key that was not seen. -/
theorem uniqueFrom_fresh (h : uniqueFrom seen p = .ok u) :
    ∀ op ∈ u, ∃ key, op.key = .ok key ∧ seen.any key.same = false := by
  induction p generalizing seen u with
  | nil =>
    cases h
    simp
  | cons op p ih =>
    obtain ⟨key, hk, ⟨-, hu⟩ | ⟨hs, rest, hrest, rfl⟩⟩ := uniqueFrom_cons h
    · exact ih hu
    · refine List.forall_mem_cons.2 ⟨⟨key, hk, hs⟩, fun o ho => ?_⟩
      obtain ⟨k, hok, hks⟩ := ih hrest o ho
      exact ⟨k, hok, (Bool.or_eq_false_iff.1 hks).2⟩

/-- No operation that is kept has the key of an earlier one. -/
theorem uniqueFrom_pairwise (h : uniqueFrom seen p = .ok u) :
    u.Pairwise fun a b => ¬ b.SharesKey a := by
  induction p generalizing seen u with
  | nil =>
    cases h
    exact .nil
  | cons op p ih =>
    obtain ⟨key, hk, ⟨-, hu⟩ | ⟨-, rest, hrest, rfl⟩⟩ := uniqueFrom_cons h
    · exact ih hu
    · refine .cons (fun o ho => ?_) (ih hrest)
      obtain ⟨k, hok, hks⟩ := uniqueFrom_fresh hrest o ho
      rintro ⟨k₁, k₂, h₁, h₂, hs⟩
      cases hok.symm.trans h₁
      cases hk.symm.trans h₂
      rw [List.any_cons, hs] at hks
      cases hks

/-- What is not kept has a key that was seen, or that of an operation which is kept. -/
theorem uniqueFrom_covers (h : uniqueFrom seen p = .ok u) : ∀ op ∈ p,
    op ∈ u ∨ (∃ kept ∈ u, op.SharesKey kept) ∨
      ∃ key, op.key = .ok key ∧ seen.any key.same = true := by
  induction p generalizing seen u with
  | nil => simp
  | cons op p ih =>
    obtain ⟨key, hk, ⟨hs, hu⟩ | ⟨-, rest, hrest, rfl⟩⟩ := uniqueFrom_cons h
    · exact List.forall_mem_cons.2 ⟨.inr (.inr ⟨key, hk, hs⟩), ih hu⟩
    · refine List.forall_mem_cons.2 ⟨.inl List.mem_cons_self, fun o ho => ?_⟩
      rcases ih hrest o ho with hm | ⟨kept, hm, hs⟩ | ⟨k, hok, hks⟩
      · exact .inl (List.mem_cons_of_mem _ hm)
      · exact .inr (.inl ⟨kept, List.mem_cons_of_mem _ hm, hs⟩)
      · rcases Bool.or_eq_true_iff.1 hks with hs | hs
        · exact .inr (.inl ⟨op, List.mem_cons_self, k, key, hok, hk, hs⟩)
        · exact .inr (.inr ⟨k, hok, hs⟩)

end

/-! ## The last operation with a key -/

/-- The last operation with a key. -/
def lastAt (key : Value) (p : Plan) : Option Operation := (p.filter (·.hasKey key)).getLast?

/-- What is in force at each key after a plan, where the last write wins; `held` is in force before. -/
def settle (held : Value → Option Operation) (p : Plan) : Value → Option Operation :=
  p.foldl (fun held op key => if op.hasKey key then some op else held key) held

theorem lastAt_cons (key : Value) (op : Operation) (p : Plan) :
    lastAt key (op :: p) = (p.lastAt key).or (if op.hasKey key then some op else none) := by
  unfold lastAt
  by_cases h : op.hasKey key = true
  · rw [List.filter_cons_of_pos h, if_pos h, List.getLast?_cons]
    cases (p.filter (·.hasKey key)).getLast? <;> rfl
  · rw [List.filter_cons_of_neg h, if_neg h, Option.or_none]

/-- **Where the last write wins**, the last operation with a key is in force there. -/
theorem settle_apply (held : Value → Option Operation) (p : Plan) (key : Value) :
    p.settle held key = (p.lastAt key).or (held key) := by
  induction p generalizing held with
  | nil => rfl
  | cons op p ih =>
    rw [settle, List.foldl_cons, ← settle, ih, lastAt_cons]
    cases lastAt key p with
    | none => split <;> rfl
    | some o => rfl

/-! ## Plans whose keys determine their operations -/

/-- A plan `u` that is `p` without repeats and without loss. -/
structure Condenses (p u : Plan) : Prop where
  /-- Operations with one key are equal. -/
  determined : ∀ a ∈ p, ∀ b ∈ p, a.SharesKey b → a = b
  unique : p.unique = .ok u
  /-- Every operation is there, and once. -/
  mem : ∀ op, op ∈ u ↔ op ∈ p
  nodup : u.Nodup
  /-- The one operation for a key is the last that the plan has. -/
  last : ∀ key, u.filter (·.hasKey key) = (p.lastAt key).toList
  /-- It makes no difference where the last write wins. -/
  settle : ∀ held, u.settle held = p.settle held

theorem eq_singleton_of_nodup {α : Type} {l : List α} {a : α} (hl : l.Nodup) (ha : a ∈ l)
    (h : ∀ b ∈ l, b = a) : l = [a] := by
  have hr := List.eq_replicate_of_mem h
  have hlen : l.length ≤ 1 := List.nodup_replicate.1 (hr ▸ hl)
  have hpos : 0 < l.length := List.length_pos_of_mem ha
  rw [hr, show l.length = 1 by omega]
  rfl

theorem getLast?_eq_some_of_forall {α : Type} {l : List α} {a : α} (ha : a ∈ l)
    (h : ∀ b ∈ l, b = a) : l.getLast? = some a := by
  rw [List.getLast?_eq_some_getLast (List.ne_nil_of_mem ha), h _ (List.getLast_mem _)]

/-- The last operation with a key is the one that is kept for it. -/
theorem filter_hasKey_eq_lastAt {p u : Plan} (hk : ∀ op ∈ p, op.HasTextualKey)
    (hd : ∀ a ∈ p, ∀ b ∈ p, a.SharesKey b → a = b) (hmem : ∀ op, op ∈ u ↔ op ∈ p)
    (hu : u.Nodup) (key : Value) : u.filter (·.hasKey key) = (p.lastAt key).toList := by
  unfold lastAt
  by_cases hnil : p.filter (·.hasKey key) = []
  · have hunil : u.filter (·.hasKey key) = [] :=
      List.filter_eq_nil_iff.2 fun op hop => List.filter_eq_nil_iff.1 hnil op ((hmem op).1 hop)
    rw [hnil, hunil]
    rfl
  · obtain ⟨a, ha⟩ := List.exists_mem_of_ne_nil _ hnil
    obtain ⟨hap, hak⟩ := List.mem_filter.1 ha
    have hall (b : Operation) (hb : b ∈ p) (hbk : b.hasKey key = true) : b = a := by
      refine hd b hb a hap ((hk b hb).sharesKey ?_)
      rw [(hk b hb).hasKey_iff.1 hbk, (hk a hap).hasKey_iff.1 hak]
    rw [getLast?_eq_some_of_forall ha fun b hb =>
      hall b (List.mem_filter.1 hb).1 (List.mem_filter.1 hb).2]
    refine eq_singleton_of_nodup (hu.filter _) (List.mem_filter.2 ⟨(hmem a).2 hap, hak⟩) fun b hb => ?_
    exact hall b ((hmem b).1 (List.mem_filter.1 hb).1) (List.mem_filter.1 hb).2

/-- **A plan whose keys determine its operations loses nothing** without its repeats. -/
theorem exists_condenses {p : Plan} (hk : ∀ op ∈ p, op.HasTextualKey)
    (hd : ∀ a ∈ p, ∀ b ∈ p, a.SharesKey b → a = b) : ∃ u, p.Condenses u := by
  have hkeys : ∀ op ∈ p, ∃ key, op.key = .ok key ∧ key.isKey = true := by
    intro op hop
    obtain ⟨key, hkey, ht⟩ := hk op hop
    exact ⟨key, hkey, Value.isKey_of_isTextual ht⟩
  obtain ⟨u, hu⟩ := exists_uniqueFrom hkeys []
  have hsub := uniqueFrom_sublist hu
  have hmem (op : Operation) : op ∈ u ↔ op ∈ p := by
    refine ⟨fun h => hsub.subset h, fun h => ?_⟩
    rcases uniqueFrom_covers hu op h with hm | ⟨kept, hm, hs⟩ | ⟨key, -, hs⟩
    · exact hm
    · exact hd op h kept (hsub.subset hm) hs ▸ hm
    · cases hs
  have hnodup : u.Nodup := by
    refine (uniqueFrom_pairwise hu).imp_of_mem fun {a b} ha hb hn he => hn ?_
    exact (hk b (hsub.subset hb)).sharesKey (he ▸ rfl)
  have hlast := filter_hasKey_eq_lastAt hk hd hmem hnodup
  refine ⟨u, hd, hu, hmem, hnodup, hlast, fun held => funext fun key => ?_⟩
  have hu' : u.lastAt key = p.lastAt key := by
    rw [lastAt, hlast]
    cases p.lastAt key <;> rfl
  rw [settle_apply, settle_apply, hu']

end Plan

end AccessPlan
