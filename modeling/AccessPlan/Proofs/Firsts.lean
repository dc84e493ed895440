import AccessPlan.Proofs.Sameness
import AccessPlan.Proofs.Unique
import Mathlib

/-!
# The first operation for each key

`Plan.unique` goes through a plan with the keys that it has seen. Operations whose keys may be keys share
one or not as an equivalence, and on them the scan ends in `Plan.firsts`, which takes the first operation and
leaves out those after it that share its key. These are the operations at the places where a key stands
first (`Plan.IsFirst`), in order and whatever else the later ones hold.

* `Plan.uniqueFrom_eq`: the scan, from any keys that were seen.
* `Plan.firsts_append`, `Plan.firsts_eq_self_iff`: plans after one another, and plans without repeats.
* `Plan.exists_places`: the places that are kept.
* `Plan.unique_keepsFirsts`: a plan without its repeats.
-/

set_option autoImplicit false

namespace AccessPlan

namespace Operation

/-- An operation has a key, and one that may be a key. -/
def IsKeyed (op : Operation) : Prop := ∃ key, op.key = .ok key ∧ key.isKey = true

/-- Whether the key of an operation is one of those that were seen. -/
def isSeen (seen : List Value) (op : Operation) : Bool :=
  match op.key with
  | .ok key => seen.any key.same
  | .error _ => false

variable {a b c : Operation}

theorem sharesKey_iff {key : Value} (h : b.key = .ok key) :
    a.SharesKey b ↔ a.isSeen [key] = true := by
  cases ha : a.key <;> simp [SharesKey, isSeen, ha, h]

theorem not_sharesKey_of_error {f : Fault} (h : b.key = .error f) : ¬ a.SharesKey b := by
  rintro ⟨-, k, -, hk, -⟩
  cases hk.symm.trans h

instance : DecidableRel SharesKey := fun a b =>
  match h : b.key with
  | .ok key => decidable_of_iff (a.isSeen [key] = true) (sharesKey_iff h).symm
  | .error _ => .isFalse (not_sharesKey_of_error h)

theorem isSeen_cons {key : Value} {seen : List Value} (h : b.key = .ok key) :
    a.isSeen (key :: seen) = (decide (a.SharesKey b) || a.isSeen seen) := by
  rw [Bool.eq_iff_iff, Bool.or_eq_true, decide_eq_true_eq, sharesKey_iff h]
  cases ha : a.key <;> simp [isSeen, ha]

/-! ## Sharing a key -/

theorem SharesKey.refl (ha : a.IsKeyed) : a.SharesKey a := by
  obtain ⟨k, hk, hkey⟩ := ha
  exact ⟨k, k, hk, hk, Value.same_refl hkey⟩

theorem SharesKey.symm (ha : a.IsKeyed) (h : a.SharesKey b) : b.SharesKey a := by
  obtain ⟨k, hk, hkey⟩ := ha
  obtain ⟨k', l, hk', hl, hs⟩ := h
  cases hk.symm.trans hk'
  exact ⟨l, k, hl, hk, Value.same_symm hkey hs⟩

/-- What shares its key with an operation whose key was seen has a key that was seen. -/
theorem SharesKey.isSeen (ha : a.IsKeyed) (h : a.SharesKey b) {seen : List Value}
    (hb : b.isSeen seen = true) : a.isSeen seen = true := by
  obtain ⟨k, hk, hkey⟩ := ha
  obtain ⟨k', l, hk', hl, hs⟩ := h
  cases hk.symm.trans hk'
  simp only [Operation.isSeen, hk, hl, List.any_eq_true] at hb ⊢
  obtain ⟨m, hm, hlm⟩ := hb
  exact ⟨m, hm, Value.same_trans hkey hs hlm⟩

end Operation

namespace Plan

/-- Every operation of a plan has a key that may be one. -/
def IsKeyed (p : Plan) : Prop := ∀ op ∈ p, op.IsKeyed

/-- The first operation for each key: the first of all, and then those that do not share its key. -/
def firsts : Plan → Plan
  | [] => []
  | op :: p => op :: (firsts p).filter fun later => ¬ later.SharesKey op

/-- The operation at a place has a key that no earlier operation shares. -/
def IsFirst (p : Plan) (i : Nat) : Prop :=
  ∃ op, p[i]? = some op ∧ ∀ earlier ∈ p.take i, ¬ op.SharesKey earlier

/-! ## The scan -/

theorem firsts_sublist (p : Plan) : p.firsts.Sublist p := by
  induction p with
  | nil => exact .slnil
  | cons op p ih => exact .cons_cons op (List.filter_sublist.trans ih)

section
variable {p : Plan} {seen : List Value} {op : Operation} {key : Value}

/-- Where the key of an operation was seen, so were those of the operations that share it. -/
theorem filter_firsts_of_isSeen (hp : p.IsKeyed) (h : op.isSeen seen = true) :
    ((firsts p).filter fun later => ¬ later.SharesKey op).filter (fun later => !later.isSeen seen) =
      (firsts p).filter fun later => !later.isSeen seen := by
  rw [List.filter_filter]
  refine List.filter_congr fun later hl => ?_
  have hseen : later.SharesKey op → later.isSeen seen = true :=
    fun hs => hs.isSeen (hp later ((firsts_sublist p).subset hl)) h
  cases hl : later.isSeen seen <;> simp_all

theorem filter_firsts_of_key (hk : op.key = .ok key) :
    ((firsts p).filter fun later => ¬ later.SharesKey op).filter (fun later => !later.isSeen seen) =
      (firsts p).filter fun later => !later.isSeen (key :: seen) := by
  rw [List.filter_filter]
  refine List.filter_congr fun later _ => ?_
  rw [Operation.isSeen_cons hk, Bool.not_or, Bool.and_comm, decide_not]

end

/-- **The scan** keeps the first operation for each key that was not seen before. -/
theorem uniqueFrom_eq {p : Plan} (hp : p.IsKeyed) (seen : List Value) :
    uniqueFrom seen p = .ok ((firsts p).filter fun op => !op.isSeen seen) := by
  induction p generalizing seen with
  | nil => rfl
  | cons op p ih =>
    obtain ⟨⟨key, hk, hkey⟩, hp⟩ := List.forall_mem_cons.1 hp
    have hop : op.isSeen seen = seen.any key.same := by simp only [Operation.isSeen, hk]
    rw [uniqueFrom, hk, Outcome.ok_bind, hkey, firsts, List.filter_cons, hop]
    cases hs : seen.any key.same with
    | true =>
      rw [filter_firsts_of_isSeen hp (hop.trans hs)]
      exact ih hp seen
    | false =>
      rw [filter_firsts_of_key hk]
      simp [ih hp (key :: seen), Outcome.pure_eq]

theorem unique_eq_firsts {p : Plan} (hp : p.IsKeyed) : p.unique = .ok p.firsts := by
  rw [unique, uniqueFrom_eq hp]
  refine congrArg _ (List.filter_eq_self.2 fun op _ => ?_)
  cases h : op.key <;> simp [Operation.isSeen, h]

/-! ## The first operation for each key -/

/-- Plans after one another: of the second, only what does not share its key with the first plan. -/
theorem firsts_append (p q : Plan) : firsts (p ++ q) =
    firsts p ++ (firsts q).filter fun op => ∀ earlier ∈ p, ¬ op.SharesKey earlier := by
  induction p with
  | nil => simp [firsts]
  | cons op p ih =>
    have hboth : ∀ later : Operation, (decide (¬ later.SharesKey op) &&
        decide (∀ earlier ∈ p, ¬ later.SharesKey earlier)) =
          decide (∀ earlier ∈ op :: p, ¬ later.SharesKey earlier) := by
      simp [Bool.decide_and]
    rw [List.cons_append, firsts, ih, List.filter_append, List.filter_filter, firsts,
      List.cons_append, List.filter_congr fun later _ => hboth later]

theorem firsts_eq_self_iff {p : Plan} :
    firsts p = p ↔ p.Pairwise fun earlier later => ¬ later.SharesKey earlier := by
  induction p with
  | nil => simp [firsts]
  | cons op p ih =>
    rw [firsts, List.cons.injEq, List.pairwise_cons, ← ih]
    constructor
    · rintro ⟨-, h⟩
      -- the rest has the length of what is left of it, so nothing of it was left out
      have hlen := (List.filter_sublist (p := fun later => decide ¬ later.SharesKey op)
        (l := firsts p)).length_le
      have hself : firsts p = p := (firsts_sublist p).eq_of_length_le (by rw [h] at hlen; exact hlen)
      rw [hself] at h
      exact ⟨fun later hl => by simpa using List.filter_eq_self.1 h later hl, hself⟩
    · rintro ⟨hfresh, hself⟩
      rw [hself]
      exact ⟨rfl, List.filter_eq_self.2 fun later hl => by simpa using hfresh later hl⟩

/-! ## The places that are kept -/

theorem isFirst_concat {p : Plan} {op : Operation} {i : Nat} : IsFirst (p ++ [op]) i ↔
    IsFirst p i ∨ (i = p.length ∧ ∀ earlier ∈ p, ¬ op.SharesKey earlier) := by
  rcases Nat.lt_trichotomy i p.length with hi | rfl | hi
  · simp [IsFirst, List.getElem?_append_left hi, List.take_append_of_le_length hi.le, hi.ne]
  · simp [IsFirst]
  · have hnone : (p ++ [op])[i]? = none := List.getElem?_eq_none (by simpa using hi)
    simp [IsFirst, hnone, hi.ne', hi.le]

/-- The operations that are kept are those at the places where a key stands first, in order. -/
theorem exists_places (p : Plan) : ∃ places : List Nat, places.Pairwise (· < ·) ∧
    (∀ i, i ∈ places ↔ IsFirst p i) ∧ places.map (p[·]?) = (firsts p).map some := by
  induction p using List.reverseRecOn with
  | nil => exact ⟨[], by simp [IsFirst, firsts]⟩
  | append_singleton p op ih =>
    obtain ⟨places, hinc, hmem, hmap⟩ := ih
    have hlt : ∀ i ∈ places, i < p.length := fun i hi => by
      obtain ⟨o, ho, -⟩ := (hmem i).1 hi
      exact (List.getElem?_eq_some_iff.1 ho).1
    have hmap' : places.map ((p ++ [op])[·]?) = (firsts p).map some := by
      rw [← hmap]
      exact List.map_congr_left fun i hi => List.getElem?_append_left (hlt i hi)
    by_cases hfresh : ∀ earlier ∈ p, ¬ op.SharesKey earlier
    · refine ⟨places ++ [p.length], ?_, fun i => ?_, ?_⟩
      · simpa [List.pairwise_append, hinc] using hlt
      · simp [isFirst_concat, hmem, iff_true_intro hfresh]
      · simp [firsts_append, firsts, iff_true_intro hfresh, hmap']
    · refine ⟨places, hinc, fun i => ?_, ?_⟩
      · simp [isFirst_concat, hmem, iff_false_intro hfresh]
      · simp [firsts_append, firsts, iff_false_intro hfresh, hmap']

/-- A plan `u` that is `p` without the operations whose key an earlier one has. -/
structure KeepsFirsts (p u : Plan) : Prop where
  /-- The operations are kept as they are and in their order. -/
  sublist : u.Sublist p
  distinct : u.Pairwise fun earlier later => ¬ later.SharesKey earlier
  /-- No key is lost. -/
  covers : ∀ op ∈ p, ∃ kept ∈ u, op.SharesKey kept
  /-- What is kept are the operations at the places where a key stands first. -/
  places : ∃ places : List Nat, places.Pairwise (· < ·) ∧ (∀ i, i ∈ places ↔ p.IsFirst i) ∧
    places.map (p[·]?) = u.map some

theorem keepsFirsts_firsts {p : Plan} (hp : p.IsKeyed) : p.KeepsFirsts p.firsts where
  sublist := firsts_sublist p
  distinct := uniqueFrom_pairwise (unique_eq_firsts hp)
  covers op hop := by
    rcases uniqueFrom_covers (unique_eq_firsts hp) op hop with hm | hs | ⟨key, -, hs⟩
    · exact ⟨op, hm, .refl (hp op hop)⟩
    · exact hs
    · cases hs
  places := exists_places p

/-- **A plan without its repeats** holds the first operation for each key. Once more changes nothing, nor does
it for a plan whose keys are distinct, and a plan after another one adds the operations with new keys. -/
theorem unique_keepsFirsts {p : Plan} (hp : p.IsKeyed) : ∃ u, p.unique = .ok u ∧ p.KeepsFirsts u ∧
    Plan.unique u = .ok u ∧
    (u = p ↔ p.Pairwise fun earlier later => ¬ later.SharesKey earlier) ∧
    ∀ q : Plan, q.IsKeyed → ∃ v, q.unique = .ok v ∧
      Plan.unique (p ++ q) = .ok (u ++ v.filter fun op => ∀ earlier ∈ p, ¬ op.SharesKey earlier) := by
  have hkept := keepsFirsts_firsts hp
  have hu : IsKeyed (firsts p) := fun op hop => hp op (hkept.sublist.subset hop)
  refine ⟨firsts p, unique_eq_firsts hp, hkept, ?_, firsts_eq_self_iff, fun q hq => ?_⟩
  · rw [unique_eq_firsts hu, firsts_eq_self_iff.2 hkept.distinct]
  · have hpq : IsKeyed (p ++ q) := fun op hop => (List.mem_append.1 hop).elim (hp op) (hq op)
    exact ⟨firsts q, unique_eq_firsts hq, by rw [unique_eq_firsts hpq, firsts_append]⟩

/-- Two rules under one label for different hosts, and one host under services that are equal as keys. -/
def crossed : Plan := [
  .firewallAllow (.text "10.0.0.5") (.text "ssh") (.int 22) (.text "tcp") (.text "accept"),
  .tcpWrapperAllow (.text "bastion") (.int 1),
  .firewallAllow (.text "10.0.0.6") (.text "ssh") (.int 22) (.text "tcp") (.text "accept"),
  .tcpWrapperAllow (.text "bastion") (.bool true)]

/-- The rule for the second host is dropped with the second of the services. Backwards the plan keeps that
rule and not the first, and it adds nothing after itself. -/
theorem unique_crossed : crossed.IsKeyed ∧ crossed.unique = .ok (crossed.take 2) ∧
    crossed.KeepsFirsts (crossed.take 2) ∧
    Plan.unique crossed.reverse = .ok (crossed.reverse.take 2) ∧
    Plan.unique (crossed ++ crossed.reverse) = .ok (crossed.take 2 ++
      (crossed.reverse.take 2).filter fun op => ∀ earlier ∈ crossed, ¬ op.SharesKey earlier) := by
  have hp : crossed.IsKeyed := by
    simp [crossed, IsKeyed, Operation.IsKeyed, Operation.key, Outcome.pure_eq, Value.isKey,
      Value.allKeys]
  have hq : IsKeyed crossed.reverse := fun op hop => hp op (List.mem_reverse.1 hop)
  have hu : crossed.unique = .ok (crossed.take 2) := by cbv
  have hv : Plan.unique crossed.reverse = .ok (crossed.reverse.take 2) := by cbv
  obtain ⟨u, hu', hkeeps, -, -, happ⟩ := unique_keepsFirsts hp
  cases hu.symm.trans hu'
  obtain ⟨v, hv', happ⟩ := happ _ hq
  cases hv.symm.trans hv'
  exact ⟨hp, hu, hkeeps, hv, happ⟩

end Plan

end AccessPlan
