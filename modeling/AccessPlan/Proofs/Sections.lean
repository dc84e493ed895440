import AccessPlan.Compilation
import AccessPlan.Proofs.Outcome

/-!
# The sections of a plan

`Sections` holds what a plan is put together from: four lists of rules, and the Match blocks. A compilation
that returns has sections (`Sections.Of`), and these do not depend on the blocks that are known: knowing a
block only says whether its creation is part of the plan.

* `Settings.compile_ok_iff`: a compilation returns a plan exactly when it has sections and the known keys can
  be keys; the plan is `Sections.plan`.
* `Settings.exists_sections`: whether a compilation returns does not depend on known keys that are
  texts.
* `Sections.Of.header?_front`, `Sections.header?_rear`: the operations for Match blocks come last.
* `Sections.Of.ofKind_plan`: the sections before them are the operations of one kind each.
-/

set_option autoImplicit false

namespace AccessPlan

/-- What a plan is put together from. -/
structure Sections where
  pam : Plan
  firewall : Plan
  wrapper : Plan
  domains : Plan
  blocks : List MatchBlock

namespace Sections

/-- The section that holds the operations of a kind. Those for Match blocks are in none. -/
def part (x : Sections) : OperationKind → Plan
  | .pamAllow => x.pam
  | .firewallAllow => x.firewall
  | .tcpWrapperAllow => x.wrapper
  | .domainAppend => x.domains
  | .matchBlockCreate | .matchParamSet => []

/-- The operations before those for Match blocks. -/
def front (x : Sections) : Plan := x.pam ++ x.firewall ++ x.wrapper ++ x.domains

/-- The operations for the Match blocks, where those with a key among `known` are not created. -/
def rear (x : Sections) (known : List Value) : Plan :=
  x.blocks.flatMap fun b => b.operations !(known.any (Value.same (.text b.key)))

/-- The plan that knows the blocks with a key among `known`. -/
def plan (x : Sections) (known : List Value) : Plan := x.front ++ x.rear known

/-- The sections of a draft. -/
structure Of (x : Sections) (s : Settings) (d : Draft) (catalogue : Value) : Prop where
  pam : d.pamRules s = .ok x.pam
  firewall : d.firewallRules s = .ok x.firewall
  wrapper : d.wrapperRules s = .ok x.wrapper
  domains : Catalogue.expand catalogue d.users d.groups = .ok x.domains
  blocks : d.matchBlocks s = .ok x.blocks

end Sections

/-- The catalogue that a source of domains answers with. -/
def DomainSource.catalogue : DomainSource → Outcome Value
  | .given v => pure (catalogueOf v)
  | .provider answer => answer

/-! ## Compilations that return -/

theorem Draft.plan_ok_iff {s : Settings} {d : Draft} {catalogue existing : Value} {p : Plan} :
    d.plan s catalogue existing = .ok p ↔ ∃ (x : Sections) (known : List Value),
      x.Of s d catalogue ∧ knownKeys existing = .ok known ∧ p = x.plan known := by
  simp only [Draft.plan, Draft.matchRules, Outcome.bind_ok_iff, Outcome.pure_ok_iff]
  constructor
  · rintro ⟨pam, hp, firewall, hf, wrapper, hw, domains, hd, _, ⟨blocks, hb, known, hk, rfl⟩, rfl⟩
    exact ⟨⟨pam, firewall, wrapper, domains, blocks⟩, known, ⟨hp, hf, hw, hd, hb⟩, hk, rfl⟩
  · rintro ⟨x, known, hx, hk, rfl⟩
    exact ⟨x.pam, hx.pam, x.firewall, hx.firewall, x.wrapper, hx.wrapper, x.domains, hx.domains,
      x.rear known, ⟨x.blocks, hx.blocks, known, hk, rfl⟩, rfl⟩

theorem Draft.checkSubjects_ok_iff {d : Draft} :
    d.checkSubjects = .ok () ↔ d.allowsNobody = false := by
  unfold Draft.checkSubjects
  split
  · rename_i h
    simp [h]
  · rename_i h
    simpa [pure, Except.pure] using h

/-- **What a compilation returns**: the plan of its sections, if the draft allows somebody. -/
theorem Settings.compile_ok_iff {s : Settings} {d : Draft} {source : DomainSource}
    {existing : Value} {p : Plan} :
    (s.compile d source existing).result = .ok p ↔ d.allowsNobody = false ∧
      ∃ (catalogue : Value) (x : Sections) (known : List Value),
        source.catalogue = .ok catalogue ∧ x.Of s d catalogue ∧ knownKeys existing = .ok known ∧
        p = x.plan known := by
  have hs := d.checkSubjects_ok_iff
  unfold Settings.compile
  split
  · rename_i f hf
    rw [hf] at hs
    exact ⟨fun h => (by cases h), fun h => (by cases hs.2 h.1)⟩
  · rename_i hf
    rw [← hs, hf]
    cases source with
    | given v => simp [DomainSource.catalogue, Draft.plan_ok_iff]
    | provider answer =>
      simp only [Outcome.bind_ok_iff, Draft.plan_ok_iff, DomainSource.catalogue, true_and,
        exists_and_left]

/-! ## Known keys -/

@[simp] theorem knownKeys_texts (keys : List String) :
    knownKeys (.list (keys.map .text)) = .ok (keys.map .text) := by
  have : (keys.map Value.text).all Value.isKey = true := by simp
  show (if (keys.map Value.text).all Value.isKey then pure (keys.map Value.text) else _) = _
  rw [if_pos this]
  rfl

/-- Where a compilation returns, it returns with any texts for known keys, and from the same sections. -/
theorem Settings.exists_sections {s : Settings} {d : Draft} {source : DomainSource}
    {existing : Value} {p : Plan} (h : (s.compile d source existing).result = .ok p) :
    ∃ (catalogue : Value) (x : Sections) (known : List Value), x.Of s d catalogue ∧
      knownKeys existing = .ok known ∧ p = x.plan known ∧ ∀ keys : List String,
        (s.compile d source (.list (keys.map .text))).result = .ok (x.plan (keys.map .text)) := by
  obtain ⟨ha, catalogue, x, known, hc, hx, hk, rfl⟩ := compile_ok_iff.1 h
  refine ⟨catalogue, x, known, hx, hk, rfl, fun keys => ?_⟩
  exact compile_ok_iff.2 ⟨ha, catalogue, x, _, hc, hx, knownKeys_texts keys, rfl⟩

/-- Whether a key is known, among keys that are texts. -/
theorem any_same_text (keys : List String) (k : String) :
    (keys.map Value.text).any (Value.same (.text k)) = decide (k ∈ keys) := by
  induction keys with
  | nil => rfl
  | cons key keys ih =>
    rw [List.map_cons, List.any_cons, ih, Value.same_text]
    by_cases hk : k = key <;> simp [hk]

/-! ## Kinds -/

theorem Operation.kind?_of_header? {op : Operation} {header : Header}
    (h : op.header? = some header) :
    op.kind? = some .matchBlockCreate ∨ op.kind? = some .matchParamSet := by
  cases op with
  | matchBlockCreate => exact .inl rfl
  | matchParamSet => exact .inr rfl
  | _ => cases h

/-- Where all operations are of one kind, that kind finds them all and any other none. -/
theorem Plan.ofKind_of_forall {k kind : OperationKind} {p : Plan}
    (h : ∀ op ∈ p, op.kind? = some k) : p.ofKind kind = if k = kind then p else [] := by
  split
  · rename_i hk
    exact List.filter_eq_self.2 fun op hop => by rw [h op hop, hk]; exact beq_self_eq_true _
  · rename_i hk
    exact List.filter_eq_nil_iff.2 fun op hop => by simpa [h op hop] using hk

/-- Of a plan, what picks operations of one kind sees that kind only. -/
theorem Plan.filterMap_ofKind {α : Type} {f : Operation → Option α} {kind : OperationKind}
    (hf : ∀ op, op.kind? ≠ some kind → f op = none) (p : Plan) :
    (p.ofKind kind).filterMap f = p.filterMap f := by
  induction p with
  | nil => rfl
  | cons op p ih =>
    unfold ofKind at ih ⊢
    by_cases hk : op.kind? = some kind
    · rw [List.filter_cons_of_pos (by simpa using hk), List.filterMap_cons, List.filterMap_cons, ih]
    · rw [List.filter_cons_of_neg (by simpa using hk), List.filterMap_cons, hf op hk, ih]

theorem Draft.kind_grants {s : Settings} {d : Draft} {kind : SubjectKind} {subjects : Value}
    {p : Plan} (h : d.grants s kind subjects = .ok p) : ∀ op ∈ p, op.kind? = some .pamAllow := by
  obtain ⟨items, -, h⟩ := Outcome.bind_ok_iff.1 h
  split at h
  · cases h
    simp
  · obtain ⟨hosts, -, h⟩ := Outcome.bind_ok_iff.1 h
    cases h
    intro op hop
    obtain ⟨subject, -, hop⟩ := List.mem_flatMap.1 hop
    obtain ⟨host, -, rfl⟩ := List.mem_map.1 hop
    rfl

theorem Draft.kind_pamRules {s : Settings} {d : Draft} {p : Plan} (h : d.pamRules s = .ok p) :
    ∀ op ∈ p, op.kind? = some .pamAllow := by
  obtain ⟨groups, hg, h⟩ := Outcome.bind_ok_iff.1 h
  obtain ⟨users, hu, h⟩ := Outcome.bind_ok_iff.1 h
  cases h
  exact List.forall_mem_append.2 ⟨kind_grants hg, kind_grants hu⟩

/-- A firewall rule holds the label that the template renders and the port that the setting spells. -/
theorem Draft.firewallRule_ok_iff {s : Settings} {d : Draft} {host : Value} {op : Operation} :
    d.firewallRule s host = .ok op ↔ ∃ (template label : String) (port : Int),
      s.read "firewall.label_format" = .text template ∧
      Label.render s.members template ⟨d.name, host⟩ = .ok label ∧
      (s.read "firewall.port").toInteger = .ok port ∧
      op = .firewallAllow host (.text label) (.int port) (s.read "firewall.protocol")
        (s.read "firewall.action") := by
  simp only [Draft.firewallRule, Outcome.bind_ok_iff, Outcome.pure_ok_iff, orMisuse_ok_iff]
  constructor
  · rintro ⟨template, ht, label, hl, port, hp, rfl⟩
    exact ⟨template, label, port, Value.text?_eq_some ht, hl, hp, rfl⟩
  · rintro ⟨template, label, port, ht, hl, hp, rfl⟩
    exact ⟨template, by rw [ht]; rfl, label, hl, port, hp, rfl⟩

theorem Draft.kind_firewallRules {s : Settings} {d : Draft} {p : Plan}
    (h : d.firewallRules s = .ok p) : ∀ op ∈ p, op.kind? = some .firewallAllow := by
  obtain ⟨hosts, -, h⟩ := Outcome.bind_ok_iff.1 h
  refine Outcome.forall_of_mapM h fun host op hop => ?_
  obtain ⟨template, label, port, -, -, -, rfl⟩ := firewallRule_ok_iff.1 hop
  rfl

theorem Draft.kind_wrapperRules {s : Settings} {d : Draft} {p : Plan}
    (h : d.wrapperRules s = .ok p) : ∀ op ∈ p, op.kind? = some .tcpWrapperAllow := by
  obtain ⟨hosts, -, h⟩ := Outcome.bind_ok_iff.1 h
  cases h
  simp [Operation.kind?]

theorem Catalogue.kind_appends {kind : SettingKind} {subjects : Value} {domain : String}
    {p : Plan} (h : appends kind subjects domain = .ok p) :
    ∀ op ∈ p, op.kind? = some .domainAppend := by
  unfold appends at h
  split at h
  · obtain ⟨items, -, h⟩ := Outcome.bind_ok_iff.1 h
    cases h
    simp [Operation.kind?]
  · cases h
    simp

theorem Catalogue.kind_expand {catalogue users groups : Value} {p : Plan}
    (h : expand catalogue users groups = .ok p) : ∀ op ∈ p, op.kind? = some .domainAppend := by
  obtain ⟨domains, -, h⟩ := Outcome.bind_ok_iff.1 h
  obtain ⟨perDomain, hp, h⟩ := Outcome.bind_ok_iff.1 h
  cases h
  refine List.forall_mem_flatten.2 (Outcome.forall_of_mapM hp fun domain ops ho => ?_)
  obtain ⟨ofUsers, hu, ho⟩ := Outcome.bind_ok_iff.1 ho
  obtain ⟨ofGroups, hg, ho⟩ := Outcome.bind_ok_iff.1 ho
  cases ho
  exact List.forall_mem_append.2 ⟨kind_appends hu, kind_appends hg⟩

theorem MatchBlock.header?_operations {b : MatchBlock} {create : Bool} {op : Operation}
    (h : op ∈ b.operations create) : op.header? = some b.header := by
  rcases List.mem_append.1 h with h | h
  · split at h
    · cases List.mem_singleton.1 h
      rfl
    · cases h
  · obtain ⟨e, -, rfl⟩ := List.mem_map.1 h
    rfl

namespace Sections

variable {x : Sections} {s : Settings} {d : Draft} {catalogue : Value}

/-- Every operation for the Match blocks is about one of them. -/
theorem header?_rear {known : List Value} {op : Operation} (h : op ∈ x.rear known) :
    ∃ b ∈ x.blocks, op.header? = some b.header := by
  obtain ⟨b, hb, hop⟩ := List.mem_flatMap.1 h
  exact ⟨b, hb, MatchBlock.header?_operations hop⟩

theorem ofKind_rear {known : List Value} {kind : OperationKind} (hc : kind ≠ .matchBlockCreate)
    (hs : kind ≠ .matchParamSet) : (x.rear known).ofKind kind = [] := by
  refine List.filter_eq_nil_iff.2 fun op hop hk => ?_
  obtain ⟨b, -, hb⟩ := header?_rear hop
  rcases Operation.kind?_of_header? hb with h | h <;> simp_all

/-- No operation before those for the Match blocks is about a Match block. -/
theorem Of.header?_front (h : x.Of s d catalogue) : ∀ op ∈ x.front, op.header? = none := by
  intro op hop
  cases hh : op.header? with
  | none => rfl
  | some header =>
    have hk := Operation.kind?_of_header? hh
    simp only [front, List.mem_append] at hop
    rcases hop with ((hop | hop) | hop) | hop
    · simp [Draft.kind_pamRules h.pam op hop] at hk
    · simp [Draft.kind_firewallRules h.firewall op hop] at hk
    · simp [Draft.kind_wrapperRules h.wrapper op hop] at hk
    · simp [Catalogue.kind_expand h.domains op hop] at hk

/-! ## Sections by kind -/

theorem Of.ofKind_front (h : x.Of s d catalogue) (kind : OperationKind) :
    x.front.ofKind kind = x.part kind := by
  simp only [front, Plan.ofKind_append]
  rw [Plan.ofKind_of_forall (Draft.kind_pamRules h.pam),
    Plan.ofKind_of_forall (Draft.kind_firewallRules h.firewall),
    Plan.ofKind_of_forall (Draft.kind_wrapperRules h.wrapper),
    Plan.ofKind_of_forall (Catalogue.kind_expand h.domains)]
  cases kind <;> simp [part]

/-- Each kind of operation but those for Match blocks is found in its section. -/
theorem Of.ofKind_plan (h : x.Of s d catalogue) (known : List Value) (kind : OperationKind)
    (hc : kind ≠ .matchBlockCreate) (hs : kind ≠ .matchParamSet) :
    (x.plan known).ofKind kind = x.part kind := by
  rw [plan, Plan.ofKind_append, h.ofKind_front, ofKind_rear hc hs, List.append_nil]

end Sections

end AccessPlan
