import AccessPlan.Proofs.Sections
import Mathlib

/-!
# Known blocks

The keys that a compilation is told are known decide about the creations of Match blocks and about nothing
else: the plan is the one that knows nothing, less the creations of the blocks that are known
(`Plan.knowing`).

* `Plan.mem_createdKeys`: the created keys are those of the creations.
* `Sections.plan_texts`: the plan of sections, less the creations of known blocks.
* `Settings.compile_knowing`: the law for compilations, with its two consequences: only the keys of blocks of
  the plan matter, and once these are known there is nothing left to create.
-/

set_option autoImplicit false

namespace AccessPlan

/-- Whether an operation creates a block with one of these keys. -/
def Operation.createsOne (keys : List String) : Operation → Bool
  | .matchBlockCreate header => match header.key with
    | .ok key => keys.contains key
    | .error _ => false
  | _ => false

/-- Whether an operation creates a block. -/
def Operation.isCreation (op : Operation) : Bool := op.kind? == some .matchBlockCreate

/-- The plan without the creations of blocks with these keys. -/
def Plan.knowing (keys : List String) (p : Plan) : Plan := p.filter fun op => !op.createsOne keys

/-- The plan without creations. -/
def Plan.withoutCreations (p : Plan) : Plan := p.filter fun op => !op.isCreation

/-! ## Created keys -/

/-- Every block that a plan creates has a key. -/
def Plan.CreatesKeyed (p : Plan) : Prop :=
  ∀ header, .matchBlockCreate header ∈ p → ∃ key, header.key = .ok key

@[simp] theorem Operation.isCreation_iff {op : Operation} :
    op.isCreation = true ↔ ∃ header, op = .matchBlockCreate header := by
  cases op <;> simp [isCreation, kind?]

theorem Operation.createsOne_iff {keys : List String} {op : Operation} :
    op.createsOne keys = true ↔
      ∃ header key, op = .matchBlockCreate header ∧ header.key = .ok key ∧ key ∈ keys := by
  cases op with
  | matchBlockCreate header =>
    cases hk : header.key <;> simp [createsOne, hk]
  | _ => simp [createsOne]

theorem Plan.createdKeys_eq (p : Plan) :
    p.createdKeys = ((p.ofKind .matchBlockCreate).filterMap Operation.header?).mapM Header.key := rfl

theorem Plan.mem_createdHeaders {p : Plan} {header : Header} :
    header ∈ (p.ofKind .matchBlockCreate).filterMap Operation.header? ↔
      .matchBlockCreate header ∈ p := by
  simp only [ofKind, List.mem_filterMap, List.mem_filter]
  constructor
  · rintro ⟨op, ⟨hop, hk⟩, hh⟩
    obtain ⟨h, rfl⟩ := Operation.isCreation_iff.1 hk
    cases hh
    exact hop
  · intro hop
    exact ⟨_, ⟨hop, rfl⟩, rfl⟩

theorem Plan.CreatesKeyed.createdKeys {p : Plan} (h : p.CreatesKeyed) :
    ∃ created, p.createdKeys = .ok created :=
  Outcome.exists_mapM fun header hh => h header (mem_createdHeaders.1 hh)

theorem Plan.mem_createdKeys {p : Plan} {created : List String}
    (h : p.createdKeys = .ok created) {key : String} :
    key ∈ created ↔ ∃ header, .matchBlockCreate header ∈ p ∧ header.key = .ok key := by
  rw [createdKeys_eq] at h
  rw [Outcome.mem_mapM h]
  simp only [mem_createdHeaders]

theorem Plan.CreatesKeyed.knowing {p : Plan} (h : p.CreatesKeyed) (keys : List String) :
    (p.knowing keys).CreatesKeyed :=
  fun header hm => h header (List.mem_filter.1 hm).1

/-! ## Leaving creations out -/

/-- Only the keys of created blocks matter. -/
theorem Plan.knowing_congr {p : Plan} {keys keys' : List String} {created : List String}
    (hc : p.createdKeys = .ok created) (h : ∀ key ∈ created, (key ∈ keys ↔ key ∈ keys')) :
    p.knowing keys = p.knowing keys' := by
  refine List.filter_congr fun op hop => congrArg _ (Bool.eq_iff_iff.2 ?_)
  rw [Operation.createsOne_iff, Operation.createsOne_iff]
  constructor
  · rintro ⟨header, key, rfl, hk, hm⟩
    exact ⟨header, key, rfl, hk, (h key ((mem_createdKeys hc).2 ⟨header, hop, hk⟩)).1 hm⟩
  · rintro ⟨header, key, rfl, hk, hm⟩
    exact ⟨header, key, rfl, hk, (h key ((mem_createdKeys hc).2 ⟨header, hop, hk⟩)).2 hm⟩

/-- Once the keys that are still created are known as well, no creation is left. -/
theorem Plan.knowing_append_created {p : Plan} (hp : p.CreatesKeyed) {keys created : List String}
    (hc : (p.knowing keys).createdKeys = .ok created) :
    p.knowing (keys ++ created) = (p.knowing keys).withoutCreations := by
  unfold withoutCreations knowing
  rw [List.filter_filter]
  refine List.filter_congr fun op hop => ?_
  cases hcr : op.isCreation with
  | false =>
    have hno (ks : List String) : op.createsOne ks = false := by
      refine Bool.eq_false_iff.2 fun h => ?_
      obtain ⟨header, key, rfl, -, -⟩ := Operation.createsOne_iff.1 h
      cases hcr
    rw [hno, hno]
    rfl
  | true =>
    obtain ⟨header, rfl⟩ := Operation.isCreation_iff.1 hcr
    obtain ⟨key, hk⟩ := hp header hop
    have hone (ks : List String) :
        (Operation.matchBlockCreate header).createsOne ks = ks.contains key := by
      simp only [Operation.createsOne, hk]
    have hmem : key ∈ keys ++ created := by
      by_cases hm : key ∈ keys
      · exact List.mem_append_left _ hm
      · refine List.mem_append_right _ ((mem_createdKeys hc).2 ⟨header, ?_, hk⟩)
        exact List.mem_filter.2 ⟨hop, by rw [hone]; simpa using hm⟩
    rw [hone, List.contains_iff_mem.2 hmem]
    rfl

/-! ## Plans of sections -/

/-- The operations for a block whose creation is wanted, less the creations of known blocks. -/
theorem MatchBlock.knowing_operations (b : MatchBlock) (keys : List String) :
    Plan.knowing keys (b.operations true) = b.operations !(decide (b.key ∈ keys)) := by
  have hset : (b.parameters.map fun e => Operation.matchParamSet b.header e.1
      (parameterValue e.2)).filter (fun op => !op.createsOne keys) =
      b.parameters.map fun e => .matchParamSet b.header e.1 (parameterValue e.2) := by
    refine List.filter_eq_self.2 fun op hop => ?_
    obtain ⟨e, -, rfl⟩ := List.mem_map.1 hop
    rfl
  have hcreate : (Operation.matchBlockCreate b.header).createsOne keys = decide (b.key ∈ keys) := by
    simp [Operation.createsOne]
  rw [Plan.knowing, operations, List.filter_append, hset, if_pos rfl]
  by_cases h : b.key ∈ keys <;> simp [operations, hcreate, h]

namespace Sections

variable {x : Sections} {s : Settings} {d : Draft} {catalogue : Value}

/-- **The plan that knows some blocks** is the plan that knows none, less their creations. -/
theorem Of.plan_texts (h : x.Of s d catalogue) (keys : List String) :
    x.plan (keys.map .text) = (x.plan []).knowing keys := by
  have hfront : x.front.knowing keys = x.front := by
    refine List.filter_eq_self.2 fun op hop => ?_
    have hh := h.header?_front op hop
    cases op with
    | matchBlockCreate => cases hh
    | _ => rfl
  have hrear : (x.rear []).knowing keys = x.rear (keys.map .text) := by
    unfold Plan.knowing rear
    rw [List.filter_flatMap]
    refine List.flatMap_congr fun b _ => ?_
    rw [any_same_text]
    exact b.knowing_operations keys
  rw [plan, plan, ← hrear]
  show _ = List.filter _ (_ ++ _)
  rw [List.filter_append]
  exact congrArg (· ++ _) hfront.symm

theorem createsKeyed (x : Sections) (h : x.Of s d catalogue) (known : List Value) :
    (x.plan known).CreatesKeyed := by
  intro header hm
  rcases List.mem_append.1 hm with hm | hm
  · cases h.header?_front _ hm
  · obtain ⟨b, -, hb⟩ := header?_rear hm
    cases hb
    exact ⟨b.key, b.header_key⟩

end Sections

/-- **Known keys only remove creations.** Take a compilation that knows no blocks and returns. With any known
keys it returns the same plan less the creations of known blocks; so the keys count as a set, and only
those of blocks of the plan; and told what is still created, it creates nothing and changes nothing else. -/
theorem Settings.compile_knowing {s : Settings} {d : Draft} {source : DomainSource} {p : Plan}
    (h : (s.compile d source (.tuple [])).result = .ok p) :
    (∀ keys : List String,
      (s.compile d source (.list (keys.map .text))).result = .ok (p.knowing keys)) ∧
    (∃ created, p.createdKeys = .ok created ∧ ∀ keys keys' : List String,
      (∀ key ∈ created, (key ∈ keys ↔ key ∈ keys')) →
      (s.compile d source (.list (keys.map .text))).result =
        (s.compile d source (.list (keys'.map .text))).result) ∧
    ∀ keys : List String, ∃ created, (p.knowing keys).createdKeys = .ok created ∧
      (s.compile d source (.list ((keys ++ created).map .text))).result =
        .ok (p.knowing keys).withoutCreations := by
  obtain ⟨catalogue, x, known, hx, hk, rfl, hkeys⟩ := exists_sections h
  cases hk
  have hcompile (keys : List String) :
      (s.compile d source (.list (keys.map .text))).result = .ok ((x.plan []).knowing keys) := by
    rw [hkeys, hx.plan_texts]
  have hkeyed := x.createsKeyed hx []
  refine ⟨hcompile, ?_, fun keys => ?_⟩
  · obtain ⟨created, hcr⟩ := hkeyed.createdKeys
    refine ⟨created, hcr, fun keys keys' hkeys => ?_⟩
    rw [hcompile, hcompile, Plan.knowing_congr hcr hkeys]
  · obtain ⟨created, hcr⟩ := (hkeyed.knowing keys).createdKeys
    exact ⟨created, hcr, by rw [hcompile, Plan.knowing_append_created hkeyed hcr]⟩

/-- A draft with a name and an address. -/
def nameAndAddress : Draft where
  name := .text "sshd"
  hosts := some (.list [.text "bastion", .text "10.0.0.5"])
  users := .list [.text "alice"]
  groups := .tuple []
  overrides := .map []
  isFixed := false

/-- A known key that is listed twice, beside one of no block, removes one creation and leaves the other. -/
theorem compile_nameAndAddress_knowing :
    ∃ p, ((Settings.ofTree []).compile nameAndAddress (.given (.text "prod")) (.tuple [])).result =
        .ok p ∧ p.createdKeys = .ok ["Host bastion", "Address 10.0.0.5"] ∧
      ∃ q, ((Settings.ofTree []).compile nameAndAddress (.given (.text "prod"))
          (.list [.text "Address 10.0.0.5", .text "Host x", .text "Address 10.0.0.5"])).result =
        .ok q ∧ q.createdKeys = .ok ["Host bastion"] ∧
        q = p.knowing ["Address 10.0.0.5", "Host x", "Address 10.0.0.5"] := by
  have hp : ((Settings.ofTree []).compile nameAndAddress (.given (.text "prod"))
      (.tuple [])).result >>= Plan.createdKeys = .ok ["Host bastion", "Address 10.0.0.5"] := by
    cbv
  have hq : ((Settings.ofTree []).compile nameAndAddress (.given (.text "prod"))
      (.list [.text "Address 10.0.0.5", .text "Host x", .text "Address 10.0.0.5"])).result >>=
        Plan.createdKeys = .ok ["Host bastion"] := by
    cbv
  obtain ⟨p, hp, hpc⟩ := Outcome.bind_ok_iff.1 hp
  obtain ⟨q, hq, hqc⟩ := Outcome.bind_ok_iff.1 hq
  have hk := (Settings.compile_knowing hp).1 ["Address 10.0.0.5", "Host x", "Address 10.0.0.5"]
  exact ⟨p, hp, hpc, q, hq, hqc, Except.ok.inj (hq.symm.trans hk)⟩

end AccessPlan
