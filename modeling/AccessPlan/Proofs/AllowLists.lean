import AccessPlan.Proofs.Blocks
import Mathlib

/-!
# The subsystems agree on who is allowed

A plan says in three places who of a kind of subject may log in: in its grants (`Plan.grantees`), in the
allow lists of the identity domains (`Plan.appended`), and in the allow list directive of every Match block
(`Plan.valuesAt`). `Plan.Agrees` says that all three name the subjects of the request, whatever the
request's own directives say, and that a kind without subjects is named nowhere but in a directive that the
request sets itself.

* `Sections.Of.setsAt_plan`, `Sections.Of.valuesAt_plan`: what a plan sets in a block, and at one directive.
* `Settings.compile_agrees`: every plan of a built request agrees.
-/

set_option autoImplicit false

namespace AccessPlan

/-! ## Views -/

namespace Operation

/-- The directive and the value that an operation sets in the block with a key. -/
def setAt? (key : String) : Operation → Option (Value × Value)
  | .matchParamSet block d v => if block.key.toOption = some key then some (d, v) else none
  | _ => none

/-- The value that an operation sets at a directive of the block with a key. -/
def valueAt? (key directive : String) : Operation → Option Value
  | .matchParamSet block d v =>
    if block.key.toOption = some key ∧ d.text? = some directive then some v else none
  | _ => none

/-- The domain and the items of an append to an allow list of a kind. -/
def appended? (kind : SettingKind) : Operation → Option (Value × Value)
  | .domainAppend domain k items => if k = kind then some (domain, items) else none
  | _ => none

/-- The subject of a grant to a kind of subject. -/
def grantee? (kind : SubjectKind) : Operation → Option Value
  | .pamAllow k subject _ _ _ => if k = kind then some subject else none
  | _ => none

end Operation

namespace Plan

/-- The directives that a plan sets in the block with a key, with their values and in order. -/
def setsAt (p : Plan) (key : String) : List (Value × Value) := p.filterMap (Operation.setAt? key)

/-- The values that a plan sets at a directive of the block with a key, in order. -/
def valuesAt (p : Plan) (key directive : String) : List Value :=
  p.filterMap (Operation.valueAt? key directive)

/-- The appends to the allow lists of a kind, in order: domain and items. -/
def appended (p : Plan) (kind : SettingKind) : List (Value × Value) :=
  p.filterMap (Operation.appended? kind)

/-- The subjects of the grants to a kind of subject, in order. -/
def grantees (p : Plan) (kind : SubjectKind) : List Value := p.filterMap (Operation.grantee? kind)

/-- A plan names the subjects of a kind in its grants, in every domain, and in every block. -/
structure Agrees (p : Plan) (r : Request) (domains keys : List String) (kind : SubjectKind) :
    Prop where
  /-- Each block lists the subjects, once and nobody else. -/
  blocks : r.subjects kind ≠ [] → ∀ key ∈ keys,
    p.valuesAt key kind.setting.word = [.tuple ((r.subjects kind).map .text)]
  /-- Without subjects, a block has the directive that the request sets itself, or none. -/
  own : r.subjects kind = [] → ∀ key ∈ keys, p.valuesAt key kind.setting.word =
    ((r.overrides.lookup kind.setting.word).map Directive.toValue).toList
  /-- Each place of a domain in the catalogue has one append of the subjects. -/
  domains : r.subjects kind ≠ [] → p.appended kind.setting =
    domains.map fun domain => (.text domain, .tuple ((r.subjects kind).map .text))
  noDomains : r.subjects kind = [] → p.appended kind.setting = []
  /-- Those who are granted access are the subjects. -/
  grantees : ∀ v, v ∈ p.grantees kind ↔ ∃ subject ∈ r.subjects kind, v = .text subject

end Plan

/-! ## Blocks and grants of a request -/

/-- In a list of entries with distinct names, the entries of one name are what looking it up gives. -/
theorem filterMap_eq_lookup {β γ : Type} (g : β → γ) {m : List (String × β)}
    (hm : (m.map Prod.fst).Nodup) (name : String) :
    (m.filterMap fun e => if e.1 = name then some (g e.2) else none) =
      ((m.lookup name).map g).toList := by
  induction m with
  | nil => rfl
  | cons e m ih =>
    obtain ⟨hn, hm⟩ := List.nodup_cons.1 hm
    rw [List.filterMap_cons, ih hm]
    obtain ⟨n, b⟩ := e
    by_cases h : n = name
    · subst h
      have hl : m.lookup n = none := by
        refine List.lookup_eq_none_iff.2 fun e he => ?_
        exact bne_iff_ne.2 fun h => hn (List.mem_map.2 ⟨e, he, h.symm⟩)
      simp [hl]
    · have hb : (name == n) = false := beq_false_of_ne (Ne.symm h)
      simp [h, List.lookup_cons, hb]

/-- A walk that stops at one item only gives what that item gives. -/
theorem flatMap_ite_eq {α β : Type} [DecidableEq α] (ys : List β) {xs : List α} (hx : xs.Nodup)
    {a : α} (ha : a ∈ xs) : (xs.flatMap fun x => if x = a then ys else []) = ys := by
  induction xs with
  | nil => cases ha
  | cons x xs ih =>
    obtain ⟨hn, hx⟩ := List.nodup_cons.1 hx
    rw [List.flatMap_cons]
    by_cases h : x = a
    · subst h
      have hnil : (xs.flatMap fun y => if y = x then ys else []) = [] :=
        List.flatMap_eq_nil_iff.2 fun y hy => if_neg fun h : y = x => hn (h ▸ hy)
      rw [if_pos rfl, hnil, List.append_nil]
    · rw [if_neg h, List.nil_append, ih hx ((List.mem_cons.1 ha).resolve_left (Ne.symm h))]

@[simp] theorem parameterValue_listed (d : Directive) :
    MatchBlock.parameterValue (Directives.listed d.toValue) = d.toValue := by
  cases d <;> rfl

theorem MatchBlock.setsAt_operations (b : MatchBlock) (create : Bool) (key : String) :
    Plan.setsAt (b.operations create) key =
      if b.key = key then b.parameters.map fun e => (e.1, parameterValue e.2) else [] := by
  have hc : (if create then [Operation.matchBlockCreate b.header] else []).filterMap
      (Operation.setAt? key) = [] := by
    cases create <;> rfl
  rw [Plan.setsAt, operations, List.filterMap_append, hc, List.nil_append, List.filterMap_map]
  split <;> simp_all [Operation.setAt?, header_key, Function.comp_def, Except.toOption]

theorem Plan.valuesAt_eq (p : Plan) (key directive : String) : p.valuesAt key directive =
    (p.setsAt key).filterMap fun e => if e.1.text? = some directive then some e.2 else none := by
  rw [setsAt, List.filterMap_filterMap]
  refine List.filterMap_congr fun op _ => ?_
  cases op with
  | matchParamSet block d v =>
    by_cases h : block.key.toOption = some key <;> simp [Operation.valueAt?, Operation.setAt?, h]
  | _ => rfl

/-- The grants of a kind name its subjects: each has a host. -/
theorem Request.mem_grantees_grants {r : Request} (hr : r.Valid) (s : Settings)
    (k kind : SubjectKind) (v : Value) : v ∈ Plan.grantees (r.grants s k) kind ↔
      k = kind ∧ ∃ subject ∈ r.subjects k, v = .text subject := by
  unfold Plan.grantees Request.grants
  simp only [List.mem_filterMap, List.mem_flatMap, List.mem_map]
  constructor
  · rintro ⟨op, ⟨subject, hs, host, -, rfl⟩, hv⟩
    by_cases hk : k = kind
    · rw [Operation.grantee?, if_pos hk] at hv
      exact ⟨hk, subject, hs, (Option.some.inj hv).symm⟩
    · rw [Operation.grantee?, if_neg hk] at hv
      cases hv
  · rintro ⟨hk, subject, hs, rfl⟩
    obtain ⟨host, hh⟩ := List.exists_mem_of_ne_nil _ hr.hosts
    exact ⟨_, ⟨subject, hs, host, hh, rfl⟩, if_pos hk⟩

namespace Sections.Of

variable {x : Sections} {s : Settings} {r : Request} {catalogue : Value}

/-- **What a plan sets in a block**: the parameters of the request, with lists as tuples. -/
theorem setsAt_plan (h : x.Of s r.draft catalogue) (known : List Value) {c : Criteria}
    (hc : c ∈ r.criteria) : (x.plan known).setsAt (r.block s c).key =
      (r.parameters.map Request.blockEntry).map fun e => (e.1, MatchBlock.parameterValue e.2) := by
  have hf : x.front.filterMap (Operation.setAt? (r.block s c).key) = [] := by
    refine List.filterMap_eq_nil_iff.2 fun op hop => ?_
    have hh := h.header?_front op hop
    cases op with
    | matchParamSet => cases hh
    | _ => rfl
  have hb (c' : Criteria) (create : Bool) : Plan.setsAt ((r.block s c').operations create)
      (r.block s c).key = if c' = c then (r.parameters.map Request.blockEntry).map fun e =>
        (e.1, MatchBlock.parameterValue e.2) else [] := by
    rw [MatchBlock.setsAt_operations]
    by_cases h : c' = c
    · rw [if_pos h, if_pos (by rw [h])]
      rfl
    · rw [if_neg h, if_neg fun hk => h (Request.key_block_inj hk)]
  unfold Plan.setsAt at hb ⊢
  rw [plan, List.filterMap_append, hf, List.nil_append, rear, h.blocks_eq, Request.blocks,
    List.flatMap_map, List.filterMap_flatMap]
  simp only [hb]
  exact flatMap_ite_eq _ r.nodup_criteria hc

/-- What a plan sets at a directive of a block is what the parameters of the request say, once. -/
theorem valuesAt_plan (h : x.Of s r.draft catalogue) (hr : r.Valid) (known : List Value)
    {c : Criteria} (hc : c ∈ r.criteria) (directive : String) :
    (x.plan known).valuesAt (r.block s c).key directive =
      ((r.parameters.lookup directive).map Directive.toValue).toList := by
  rw [Plan.valuesAt_eq, h.setsAt_plan known hc, List.map_map, List.filterMap_map,
    ← filterMap_eq_lookup _ hr.nodup_parameters]
  refine List.filterMap_congr fun e _ => ?_
  simp [Request.blockEntry, Value.text?]

/-- A block has all parameters of the request, be it created or not. -/
theorem set_mem_plan (h : x.Of s r.draft catalogue) (known : List Value) {c : Criteria}
    (hc : c ∈ r.criteria) {e : String × Directive} (he : e ∈ r.parameters) :
    .matchParamSet (r.block s c).header (.text e.1) e.2.toValue ∈ x.plan known := by
  refine List.mem_append_right _ (List.mem_flatMap.2 ⟨r.block s c, ?_, List.mem_append_right _ ?_⟩)
  · rw [h.blocks_eq]
    exact List.mem_map_of_mem hc
  · rw [← parameterValue_listed e.2]
    exact List.mem_map.2 ⟨Request.blockEntry e, List.mem_map_of_mem he, rfl⟩

/-- The headers that a plan speaks of are those of the request's blocks: a block that is not created has its
parameters all the same. -/
theorem mem_headers (h : x.Of s r.draft catalogue) (hr : r.Valid) (known : List Value)
    (header : Header) : header ∈ (x.plan known).filterMap Operation.header? ↔
      ∃ c ∈ r.criteria, header = (r.block s c).header := by
  rw [List.mem_filterMap]
  constructor
  · rintro ⟨op, hop, hh⟩
    rcases List.mem_append.1 hop with hop | hop
    · rw [h.header?_front op hop] at hh
      cases hh
    · obtain ⟨b, hb, hbh⟩ := header?_rear hop
      rw [h.blocks_eq] at hb
      obtain ⟨c, hc, rfl⟩ := List.mem_map.1 hb
      exact ⟨c, hc, Option.some.inj (hh.symm.trans hbh)⟩
  · rintro ⟨c, hc, rfl⟩
    obtain ⟨e, he⟩ := List.exists_mem_of_ne_nil _ hr.parameters_ne
    exact ⟨_, h.set_mem_plan known hc he, rfl⟩

theorem matchKeys_plan (h : x.Of s r.draft catalogue) (hr : r.Valid) (known : List Value) :
    ∃ keys, (x.plan known).matchKeys = .ok keys ∧
      ∀ key, key ∈ keys ↔ ∃ c ∈ r.criteria, (r.block s c).key = key := by
  obtain ⟨keys, hk⟩ : ∃ keys, (x.plan known).matchKeys = .ok keys := by
    refine Outcome.exists_mapM fun header hh => ?_
    obtain ⟨c, -, rfl⟩ := (h.mem_headers hr known header).1 hh
    exact ⟨_, MatchBlock.header_key _⟩
  refine ⟨keys, hk, fun key => (Outcome.mem_mapM hk).trans ?_⟩
  constructor
  · rintro ⟨header, hh, hkey⟩
    obtain ⟨c, hc, rfl⟩ := (h.mem_headers hr known header).1 hh
    exact ⟨c, hc, Except.ok.inj hkey⟩
  · rintro ⟨c, hc, rfl⟩
    exact ⟨_, (h.mem_headers hr known _).2 ⟨c, hc, rfl⟩, MatchBlock.header_key _⟩

/-! ## Domains, and the whole plan -/

theorem appended_plan (h : x.Of s r.draft catalogue) (known : List Value) {domains : List String}
    (hd : Catalogue.domains catalogue = .ok domains) (kind : SubjectKind) :
    (x.plan known).appended kind.setting =
      if r.subjects kind = [] then []
      else domains.map fun domain => (.text domain, .tuple ((r.subjects kind).map .text)) := by
  obtain ⟨domains', hd', hx⟩ := h.domains_eq
  cases hd.symm.trans hd'
  have hk : ∀ op : Operation, op.kind? ≠ some .domainAppend →
      Operation.appended? kind.setting op = none := by
    intro op hop
    cases op with
    | domainAppend => exact absurd rfl hop
    | _ => rfl
  have ha (domain : String) : (r.appends domain).filterMap (Operation.appended? kind.setting) =
      if r.subjects kind = [] then []
      else [(.text domain, .tuple ((r.subjects kind).map .text))] := by
    unfold Request.appends Request.append
    by_cases hu : r.subjects .user = [] <;> by_cases hg : r.subjects .group = [] <;>
      cases kind <;> simp [hu, hg, Operation.appended?, SubjectKind.setting]
  rw [Plan.appended, ← Plan.filterMap_ofKind hk, h.ofKind_plan known .domainAppend (by decide) (by decide),
    part, hx, List.filterMap_flatMap]
  simp only [ha]
  split
  · simp
  · exact (List.map_eq_flatMap).symm

theorem mem_grantees_plan (h : x.Of s r.draft catalogue) (hr : r.Valid) (known : List Value)
    (kind : SubjectKind) (v : Value) :
    v ∈ (x.plan known).grantees kind ↔ ∃ subject ∈ r.subjects kind, v = .text subject := by
  have hk : ∀ op : Operation, op.kind? ≠ some .pamAllow →
      Operation.grantee? kind op = none := by
    intro op hop
    cases op with
    | pamAllow => exact absurd rfl hop
    | _ => rfl
  have hg := Request.mem_grantees_grants hr s .group kind v
  have hu := Request.mem_grantees_grants hr s .user kind v
  unfold Plan.grantees at hg hu ⊢
  rw [← Plan.filterMap_ofKind hk, h.ofKind_plan known .pamAllow (by decide) (by decide), part, h.pam_eq,
    List.filterMap_append, List.mem_append, hg, hu]
  cases kind <;> simp

theorem agrees (h : x.Of s r.draft catalogue) (hr : r.Valid) (known : List Value)
    {domains keys : List String} (hd : Catalogue.domains catalogue = .ok domains)
    (hk : ∀ key ∈ keys, ∃ c ∈ r.criteria, (r.block s c).key = key) (kind : SubjectKind) :
    (x.plan known).Agrees r domains keys kind where
  blocks hs key hkey := by
    obtain ⟨c, hc, rfl⟩ := hk key hkey
    rw [h.valuesAt_plan hr known hc, r.lookup_parameters, if_neg hs]
    rfl
  own hs key hkey := by
    obtain ⟨c, hc, rfl⟩ := hk key hkey
    rw [h.valuesAt_plan hr known hc, r.lookup_parameters, if_pos hs]
  domains hs := by rw [h.appended_plan known hd, if_neg hs]
  noDomains hs := by rw [h.appended_plan known hd, if_pos hs]
  grantees := h.mem_grantees_plan hr known kind

end Sections.Of

theorem catalogueOf_text (raw : String) : catalogueOf (.text raw) = .text raw := by
  by_cases h : raw = ""
  · subst h
    rfl
  · have hp : (Value.text raw).isPresent = true := by simpa [Value.isPresent] using h
    rw [catalogueOf, Value.orElse, if_pos hp]

/-- **The subsystems agree on who is allowed**, for users and for groups, in every plan that was compiled for
a built request; and every block names the subjects of a kind. -/
theorem Settings.compile_agrees {route : Request.Route} {arguments : Mapping}
    {label : Option String} {r : Request} (hr : Request.build route arguments label = .ok r)
    {s : Settings} {raw : String} {existing : Value} {p : Plan}
    (h : (s.compile r.draft (.given (.text raw)) existing).result = .ok p) :
    ∃ keys, p.matchKeys = .ok keys ∧ keys ≠ [] ∧
      (∀ kind, p.Agrees r (Catalogue.parse raw) keys kind) ∧
      ∀ key ∈ keys, ∃ kind, r.subjects kind ≠ [] ∧
        p.valuesAt key kind.setting.word = [.tuple ((r.subjects kind).map .text)] := by
  have hv := Request.valid_of_build hr
  obtain ⟨-, catalogue, x, known, hc, hx, -, rfl⟩ := compile_ok_iff.1 h
  have hd : Catalogue.domains catalogue = .ok (Catalogue.parse raw) := by
    rw [← Except.ok.inj hc, catalogueOf_text, Catalogue.domains_text]
  obtain ⟨keys, hk, hmem⟩ := hx.matchKeys_plan hv known
  have ha := hx.agrees hv known hd fun key => (hmem key).1
  obtain ⟨c, hcrit⟩ := List.exists_mem_of_ne_nil _ hv.criteria_ne
  obtain ⟨kind, hs⟩ := hv.exists_subjects
  refine ⟨keys, hk, List.ne_nil_of_mem ((hmem _).2 ⟨c, hcrit, rfl⟩), ha, fun key hkey => ?_⟩
  exact ⟨kind, hs, (ha kind).blocks hs key hkey⟩

/-- A user, and directives of its own at both allow lists. -/
def overridingArguments : Mapping := [
  (.text "hostlist", .list [.text "bastion", .text "10.0.0.5"]),
  (.text "users", .list [.text "alice"]),
  (.text "sshd_overrides", .map [
    (.text "AllowUsers", .text "root"), (.text "AllowGroups", .list [.text "staff"])])]

/-- The request that they make. -/
def overriding : Request :=
  ⟨"sshd", ["bastion", "10.0.0.5"], ["alice"], [],
    [("AllowUsers", .word "root"), ("AllowGroups", .words ["staff"])]⟩

/-- Its user stands in both blocks, one of which is known, in place of the one its own directive names; and
since it has no groups its directive for groups stays. -/
theorem compile_overriding_agrees :
    Request.build .builder overridingArguments none = .ok overriding ∧
    ∃ p keys, ((Settings.ofTree []).compile overriding.draft (.given (.text "prod, ,lab"))
        (.list [.text "Host bastion"])).result = .ok p ∧
      p.matchKeys = .ok keys ∧ keys ≠ [] ∧
      (∀ kind, p.Agrees overriding ["prod", "lab"] keys kind) ∧
      ∀ key ∈ keys, p.valuesAt key "AllowUsers" = [.tuple [.text "alice"]] ∧
        p.valuesAt key "AllowGroups" = [.tuple [.text "staff"]] := by
  have hr : Request.build .builder overridingArguments none = .ok overriding := by decide
  obtain ⟨p, h⟩ : ∃ p, ((Settings.ofTree []).compile overriding.draft
      (.given (.text "prod, ,lab")) (.list [.text "Host bastion"])).result = .ok p :=
    Outcome.exists_ok (by cbv)
  have hraw : Catalogue.parse "prod, ,lab" = ["prod", "lab"] := by decide
  obtain ⟨keys, hk, hne, ha, -⟩ := Settings.compile_agrees hr h
  rw [hraw] at ha
  refine ⟨hr, p, keys, h, hk, hne, ha, fun key hkey => ⟨?_, ?_⟩⟩
  · exact (ha .user).blocks (by decide) key hkey
  · exact (ha .group).own (by decide) key hkey

end AccessPlan
