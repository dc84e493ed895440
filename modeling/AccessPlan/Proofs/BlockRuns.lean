import AccessPlan.Proofs.Blocks
import AccessPlan.Proofs.KnownBlocks

/-!
# Runs of compilations

An sshd configuration, seen as the keys of the Match blocks that it has, takes a plan operation by operation
(`Plan.install?`): it refuses to create a block that it has and to set a parameter of a block that it has
not. A plan that was compiled with these keys known is taken, and so are the plans of a run of compilations,
one after another, each of which is told of the blocks before it.

* `Plan.createdKeys_of_install?`, `Plan.creation_before_of_install?`: what it means that a plan is taken.
* `Sections.Of.install?_plan`: the step, one plan of a request.
* `Settings.exists_compileEach`: a run of requests that compile returns.
* `Settings.install?_compileEach`: the run, by induction from the step.
* `Settings.compileEach_creates_once`: each block is created once over a whole run.
-/

set_option autoImplicit false

namespace AccessPlan

/-- The keys of the blocks after an operation, if a configuration that has blocks with the keys `present`
takes it. -/
def Operation.install? (present : List String) : Operation → Option (List String)
  | .matchBlockCreate header => match header.key with
    | .ok key => if key ∈ present then none else some (present ++ [key])
    | .error _ => none
  | .matchParamSet block _ _ => match block.key with
    | .ok key => if key ∈ present then some present else none
    | .error _ => none
  | _ => some present

/-- The keys of the blocks after a plan. -/
def Plan.install? (present : List String) (p : Plan) : Option (List String) :=
  p.foldlM Operation.install? present

/-! ## Taking an operation -/

namespace Operation

variable {present after : List String} {header : Header}

theorem install?_create (h : (matchBlockCreate header).install? present = some after) :
    ∃ key, header.key = .ok key ∧ key ∉ present ∧ after = present ++ [key] := by
  simp only [install?] at h
  split at h
  · rename_i key hk
    split at h
    · cases h
    · rename_i hn
      exact ⟨key, hk, hn, (Option.some.inj h).symm⟩
  · cases h

theorem install?_set {directive value : Value}
    (h : (matchParamSet header directive value).install? present = some after) :
    ∃ key, header.key = .ok key ∧ key ∈ present ∧ after = present := by
  simp only [install?] at h
  split at h
  · rename_i key hk
    split at h
    · rename_i hm
      exact ⟨key, hk, hm, (Option.some.inj h).symm⟩
    · cases h
  · cases h

theorem install?_other {op : Operation} (h : op.header? = none) (present : List String) :
    op.install? present = some present := by
  cases op with
  | matchBlockCreate => cases h
  | matchParamSet => cases h
  | _ => rfl

/-- An operation that is taken adds the key that it creates, if it is a creation. -/
theorem install?_cases {op : Operation} (h : op.install? present = some after) :
    (∃ header key, op = .matchBlockCreate header ∧ header.key = .ok key ∧ key ∉ present ∧
      after = present ++ [key]) ∨ (op.isCreation = false ∧ after = present) := by
  cases op with
  | matchBlockCreate header =>
    obtain ⟨key, hk, hn, ha⟩ := install?_create h
    exact .inl ⟨header, key, rfl, hk, hn, ha⟩
  | matchParamSet header =>
    obtain ⟨key, -, -, ha⟩ := install?_set h
    exact .inr ⟨rfl, ha⟩
  | _ => exact .inr ⟨rfl, (Option.some.inj h).symm⟩

end Operation

/-! ## Taking a plan -/

namespace Plan

variable {present after : List String} {p q : Plan}

@[simp] theorem install?_append : install? present (p ++ q) = (p.install? present).bind q.install? :=
  List.foldlM_append

theorem install?_cons {op : Operation} (h : install? present (op :: p) = some after) :
    ∃ next, op.install? present = some next ∧ p.install? next = some after :=
  Option.bind_eq_some_iff.1 h

theorem install?_other (h : ∀ op ∈ p, op.header? = none) (present : List String) :
    p.install? present = some present := by
  induction p with
  | nil => rfl
  | cons op p ih =>
    obtain ⟨hop, hp⟩ := List.forall_mem_cons.1 h
    exact Option.bind_eq_some_iff.2 ⟨present, Operation.install?_other hop present, ih hp⟩

theorem createdKeys_create (header : Header) (p : Plan) :
    createdKeys (.matchBlockCreate header :: p) =
      (do pure ((← header.key) :: (← p.createdKeys))) := by
  simp only [createdKeys_eq, ofKind, List.filter_cons, Operation.kind?, beq_self_eq_true, if_true,
    List.filterMap_cons, Operation.header?, List.mapM_cons]

theorem createdKeys_other {op : Operation} (h : op.isCreation = false) (p : Plan) :
    createdKeys (op :: p) = p.createdKeys := by
  have hk : (op.kind? == some .matchBlockCreate) = false := h
  have ho : ofKind .matchBlockCreate (op :: p) = ofKind .matchBlockCreate p := by
    simp only [ofKind, List.filter_cons, hk]
    rfl
  rw [createdKeys_eq, createdKeys_eq, ho]

/-- **A plan that is taken creates new blocks**, each of them once. -/
theorem createdKeys_of_install? (h : p.install? present = some after) :
    ∃ created, p.createdKeys = .ok created ∧ after = present ++ created ∧ created.Nodup ∧
      ∀ key ∈ created, key ∉ present := by
  induction p generalizing present with
  | nil =>
    cases h
    exact ⟨[], rfl, (List.append_nil _).symm, List.nodup_nil, by simp⟩
  | cons op p ih =>
    obtain ⟨next, hop, hp⟩ := install?_cons h
    obtain ⟨created, hc, ha, hd, hn⟩ := ih hp
    rcases Operation.install?_cases hop with ⟨header, key, rfl, hk, hkn, rfl⟩ | ⟨hcr, rfl⟩
    · refine ⟨key :: created, by rw [createdKeys_create, hk, hc]; rfl, by simp [ha], ?_, ?_⟩
      · exact List.nodup_cons.2 ⟨fun hm => hn key hm (by simp), hd⟩
      · exact List.forall_mem_cons.2
          ⟨hkn, fun k hm hp => hn k hm (List.mem_append_left _ hp)⟩
    · exact ⟨created, by rw [createdKeys_other hcr, hc], ha, hd, hn⟩

/-- **A plan that is taken sets parameters of blocks that are there**: they were there before it, or it has
created them at an earlier place. -/
theorem creation_before_of_install? (h : p.install? present = some after) {i : Nat}
    {block : Header} {directive value : Value}
    (hi : p[i]? = some (.matchParamSet block directive value)) :
    ∃ key, block.key = .ok key ∧ (key ∈ present ∨
      ∃ j < i, ∃ header, p[j]? = some (.matchBlockCreate header) ∧ header.key = .ok key) := by
  induction p generalizing present i with
  | nil => simp at hi
  | cons op p ih =>
    obtain ⟨next, hop, hp⟩ := install?_cons h
    cases i with
    | zero =>
      cases hi
      obtain ⟨key, hk, hm, -⟩ := Operation.install?_set hop
      exact ⟨key, hk, .inl hm⟩
    | succ i =>
      obtain ⟨key, hk, hkey⟩ := ih hp hi
      refine ⟨key, hk, ?_⟩
      rcases hkey with hm | ⟨j, hj, header, hjh, hkh⟩
      · rcases Operation.install?_cases hop with ⟨header, k, rfl, hkh, -, rfl⟩ | ⟨-, rfl⟩
        · rcases List.mem_append.1 hm with hm | hm
          · exact .inl hm
          · cases List.mem_singleton.1 hm
            exact .inr ⟨0, Nat.succ_pos i, header, rfl, hkh⟩
        · exact .inl hm
      · exact .inr ⟨j + 1, Nat.succ_lt_succ hj, header, hjh, hkh⟩

end Plan

/-! ## Blocks and plans of requests -/

namespace MatchBlock

/-- The directives of a block are taken where the block is there. -/
theorem install?_parameters (b : MatchBlock) {present : List String} (h : b.key ∈ present)
    (entries : Mapping) :
    Plan.install? present (entries.map fun e => .matchParamSet b.header e.1 (parameterValue e.2)) =
      some present := by
  induction entries with
  | nil => rfl
  | cons e entries ih =>
    rw [List.map_cons]
    refine Option.bind_eq_some_iff.2 ⟨present, ?_, ih⟩
    simp only [Operation.install?, header_key]
    exact if_pos h

/-- The operations for a block are taken if it is created exactly where it is not there. -/
theorem install?_operations (b : MatchBlock) {present : List String} {create : Bool}
    (h : b.key ∈ present ↔ create = false) :
    Plan.install? present (b.operations create) =
      some (present ++ if create then [b.key] else []) := by
  cases create with
  | false =>
    rw [operations, if_neg Bool.false_ne_true, if_neg Bool.false_ne_true, List.nil_append,
      List.append_nil]
    exact b.install?_parameters (h.2 rfl) b.parameters
  | true =>
    have hn : b.key ∉ present := fun hm => by cases h.1 hm
    rw [operations, if_pos rfl, if_pos rfl, Plan.install?_append]
    refine Option.bind_eq_some_iff.2 ⟨present ++ [b.key], ?_, ?_⟩
    · refine Option.bind_eq_some_iff.2 ⟨_, ?_, rfl⟩
      simp only [Operation.install?, header_key]
      exact if_neg hn
    · exact b.install?_parameters (by simp) b.parameters

/-- The operations for blocks with distinct keys are taken one block after another. -/
theorem install?_blocks {blocks : List MatchBlock} (hb : (blocks.map key).Nodup)
    {known present : List String}
    (h : ∀ b ∈ blocks, (b.key ∈ present ↔ b.key ∈ known)) :
    Plan.install? present
        (blocks.flatMap fun b => b.operations !(decide (b.key ∈ known))) =
      some (present ++ (blocks.map key).filter fun key => !(decide (key ∈ known))) := by
  induction blocks generalizing present with
  | nil => simp [Plan.install?]
  | cons b blocks ih =>
    obtain ⟨hn, hb⟩ := List.nodup_cons.1 hb
    obtain ⟨hk, hrest⟩ := List.forall_mem_cons.1 h
    have hstep : Plan.install? present (b.operations !(decide (b.key ∈ known))) = _ :=
      b.install?_operations (by simpa using hk)
    rw [List.flatMap_cons, Plan.install?_append, hstep, Option.bind_some, ih hb, List.map_cons,
      List.filter_cons, List.append_assoc]
    · split <;> rfl
    · -- the key that this block adds is none of the keys to come
      intro c hc
      have hne : c.key ≠ b.key := fun he => hn (he ▸ List.mem_map_of_mem hc)
      rw [← hrest c hc]
      split <;> simp [hne]

end MatchBlock

namespace Request

theorem nodup_keys (s : Settings) (r : Request) : ((r.blocks s).map MatchBlock.key).Nodup := by
  rw [blocks, List.map_map]
  exact (List.nodup_map_iff_inj_on r.nodup_criteria).2 fun c _ c' _ h => key_block_inj h

/-- The key of the block for a criterion. -/
def blockKey (r : Request) (c : Criteria) : String := c.word ++ " " ++ joinTexts "," (r.bucket c)

theorem mem_keys {s : Settings} {r : Request} {key : String} :
    key ∈ (r.blocks s).map MatchBlock.key ↔ ∃ c, r.bucket c ≠ [] ∧ key = r.blockKey c := by
  simp only [blocks, List.map_map, List.mem_map, mem_criteria]
  exact exists_congr fun c => and_congr_right fun _ => eq_comm

end Request

/-- **The step**: a configuration takes the plan of a request that knows the blocks of the configuration. -/
theorem Sections.Of.install?_plan {x : Sections} {s : Settings} {r : Request} {catalogue : Value}
    (h : x.Of s r.draft catalogue) (known : List String) :
    Plan.install? known (x.plan (known.map .text)) =
      some (known ++ ((r.blocks s).map MatchBlock.key).filter fun key =>
        !(decide (key ∈ known))) := by
  rw [plan, Plan.install?_append, Plan.install?_other h.header?_front, Option.bind_some, rear,
    h.blocks_eq]
  simp only [any_same_text]
  exact MatchBlock.install?_blocks (r.nodup_keys s) fun _ _ => Iff.rfl

/-! ## Runs -/

namespace Settings

variable {s : Settings} {known : List String} {jobs : List (Request × DomainSource)}
  {plans : List Plan}

/-- A run returns if each of its requests compiles where nothing is known. -/
theorem exists_compileEach (h : ∀ job ∈ jobs, ∃ p,
      (s.compile job.1.draft job.2 (.tuple [])).result = .ok p) (known : List String) :
    ∃ plans, s.compileEach (known.map .text) (jobs.map fun job => (job.1.draft, job.2)) =
      .ok plans := by
  induction jobs generalizing known with
  | nil => exact ⟨[], rfl⟩
  | cons job jobs ih =>
    obtain ⟨⟨p, hp⟩, hjobs⟩ := List.forall_mem_cons.1 h
    obtain ⟨catalogue, x, -, hx, -, -, hkeys⟩ := exists_sections hp
    obtain ⟨created, hc⟩ := (x.createsKeyed hx (known.map .text)).createdKeys
    obtain ⟨plans, hplans⟩ := ih hjobs (known ++ created)
    rw [List.map_append] at hplans
    refine ⟨x.plan (known.map .text) :: plans, ?_⟩
    simp only [List.map_cons, compileEach, hkeys, hc, hplans, Outcome.ok_bind, Outcome.pure_eq]

/-- **The run**: the plans of a run are taken one after another, and what is there in the end are the blocks
of the beginning and those of the requests. -/
theorem install?_compileEach
    (h : s.compileEach (known.map .text) (jobs.map fun job => (job.1.draft, job.2)) = .ok plans) :
    ∃ after, Plan.install? known plans.flatten = some after ∧ ∀ key, key ∈ after ↔
      key ∈ known ∨ ∃ job ∈ jobs, ∃ c, job.1.bucket c ≠ [] ∧ key = job.1.blockKey c := by
  induction jobs generalizing known plans with
  | nil =>
    cases h
    exact ⟨known, rfl, by simp⟩
  | cons job jobs ih =>
    obtain ⟨p, hp, h⟩ := Outcome.bind_ok_iff.1 h
    obtain ⟨created, hc, h⟩ := Outcome.bind_ok_iff.1 h
    obtain ⟨rest, hrest, h⟩ := Outcome.bind_ok_iff.1 h
    cases h
    obtain ⟨-, catalogue, x, keys, -, hx, hk, rfl⟩ := compile_ok_iff.1 hp
    cases (knownKeys_texts known).symm.trans hk
    have hstep := hx.install?_plan known
    -- the keys that the step creates are the ones that the next compilation is told of
    obtain ⟨created', hc', hadd, -, -⟩ := Plan.createdKeys_of_install? hstep
    cases hc.symm.trans hc'
    rw [hadd] at hstep
    rw [← List.map_append] at hrest
    obtain ⟨after, ha, hmem⟩ := ih hrest
    refine ⟨after, ?_, fun key => (hmem key).trans ?_⟩
    · rw [List.flatten_cons, Plan.install?_append, hstep]
      exact ha
    · rw [← hadd, List.mem_append, List.mem_filter, Request.mem_keys]
      simp only [List.exists_mem_cons_iff]
      by_cases hkn : key ∈ known <;> simp [hkn]

/-- **Each Match block is created once over a whole run.** A run of requests that compile returns. No block
that is known at the start is created in it, none is created twice, the created blocks are the blocks of the
requests that are not known at the start, and a parameter is only set of a block that was known at the start
or created earlier in the run. -/
theorem compileEach_creates_once (h : ∀ job ∈ jobs, ∃ p,
      (s.compile job.1.draft job.2 (.tuple [])).result = .ok p) (known : List String) :
    ∃ plans created,
      s.compileEach (known.map .text) (jobs.map fun job => (job.1.draft, job.2)) = .ok plans ∧
      Plan.createdKeys plans.flatten = .ok created ∧ created.Nodup ∧
      (∀ key, key ∈ created ↔
        key ∉ known ∧ ∃ job ∈ jobs, ∃ c, job.1.bucket c ≠ [] ∧ key = job.1.blockKey c) ∧
      ∀ (i : Nat) (block : Header) (directive value : Value),
        plans.flatten[i]? = some (.matchParamSet block directive value) →
        ∃ key, block.key = .ok key ∧ (key ∈ known ∨ ∃ j < i, ∃ header,
          plans.flatten[j]? = some (.matchBlockCreate header) ∧ header.key = .ok key) := by
  obtain ⟨plans, hplans⟩ := exists_compileEach h known
  obtain ⟨after, ha, hmem⟩ := install?_compileEach hplans
  obtain ⟨created, hc, rfl, hd, hn⟩ := Plan.createdKeys_of_install? ha
  refine ⟨plans, created, hplans, hc, hd, fun key => ⟨fun hk => ?_, fun ⟨hk, hjob⟩ => ?_⟩, ?_⟩
  · have hkn := hn key hk
    exact ⟨hkn, ((hmem key).1 (List.mem_append_right _ hk)).resolve_left hkn⟩
  · exact (List.mem_append.1 ((hmem key).2 (.inr hjob))).resolve_left hk
  · intro i block directive value hi
    exact Plan.creation_before_of_install? ha hi

end Settings

/-- Three requests, two of which have the block of one address. -/
def sharingJobs : List (Request × DomainSource) := [
  (⟨"sshd", ["bastion", "10.0.0.5"], ["alice"], [], []⟩, .given (.text "prod")),
  (⟨"sshd", ["10.0.0.5"], ["bob"], [], []⟩, .given (.text "")),
  (⟨"ci", ["lab", "bastion"], [], ["wheel"], []⟩, .provider (.ok (.text "lab,prod")))]

/-- The block that two requests have is created once, and the one that is known at the start never. -/
theorem compileEach_sharing_creates_once :
    ∃ plans created, (Settings.ofTree []).compileEach [.text "Host x", .text "Host bastion"]
        (sharingJobs.map fun job => (job.1.draft, job.2)) = .ok plans ∧
      Plan.createdKeys plans.flatten = .ok created ∧ created.Nodup ∧
      "Address 10.0.0.5" ∈ created ∧ "Host lab,bastion" ∈ created ∧ "Host bastion" ∉ created ∧
      ∀ (i : Nat) (block : Header) (directive value : Value),
        plans.flatten[i]? = some (.matchParamSet block directive value) →
        ∃ key, block.key = .ok key ∧ (key ∈ ["Host x", "Host bastion"] ∨ ∃ j < i, ∃ header,
          plans.flatten[j]? = some (.matchBlockCreate header) ∧ header.key = .ok key) := by
  have hok : (sharingJobs.all fun job =>
      ((Settings.ofTree []).compile job.1.draft job.2 (.tuple [])).result.isOk) = true := by
    cbv
  have h : ∀ job ∈ sharingJobs, ∃ p,
      ((Settings.ofTree []).compile job.1.draft job.2 (.tuple [])).result = .ok p :=
    fun job hjob => Outcome.exists_ok (List.all_eq_true.1 hok job hjob)
  obtain ⟨plans, created, hplans, hc, hd, hmem, hset⟩ :=
    Settings.compileEach_creates_once h ["Host x", "Host bastion"]
  refine ⟨plans, created, hplans, hc, hd, ?_, ?_, ?_, hset⟩
  · rw [hmem]
    exact ⟨by decide, _, List.mem_cons_self, .address, by decide, by decide⟩
  · rw [hmem]
    exact ⟨by decide, _, List.mem_cons_of_mem _ (List.mem_cons_of_mem _ List.mem_cons_self), .host,
      by decide, by decide⟩
  · rw [hmem]
    exact fun hm => hm.1 (by decide)

end AccessPlan
