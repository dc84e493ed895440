import AccessPlan.Proofs.AllowLists
import AccessPlan.Proofs.Templates

/-!
# The rules of a request

`Request.Rule s r op` says that `op` is an operation which a plan of the request `r` may hold, and with what
in it. `Settings.Usable s parts` is what it takes of settings that every valid request compiles: a port that
is a number, the name of a service, and a template that is written from parts.

* `Sections.Of.rule`: a plan of a request holds nothing but rules.
* `Request.firewallRules_draft`: its firewall rules, under a template of parts.
* `Request.exists_sections_draft`: with such a template and a port a request has sections, whatever it holds.
* `Settings.exists_compile`: and so it compiles, for any catalogue and any known keys.
-/

set_option autoImplicit false

namespace AccessPlan

/-- What a plan of a request may hold. -/
inductive Request.Rule (s : Settings) (r : Request) : Operation → Prop
  | grant {kind : SubjectKind} {subject host : String} :
    subject ∈ r.subjects kind → host ∈ r.hosts →
    Rule s r (.pamAllow kind (.text subject) (.text host) (s.read "pam.permission")
      (s.read "pam.position"))
  | accept {host template label : String} {port : Int} : host ∈ r.hosts →
    s.read "firewall.label_format" = .text template →
    Label.render s.members template ⟨.text r.name, .text host⟩ = .ok label →
    (s.read "firewall.port").toInteger = .ok port →
    Rule s r (.firewallAllow (.text host) (.text label) (.int port) (s.read "firewall.protocol")
      (s.read "firewall.action"))
  | allow {host : String} : host ∈ r.hosts →
    Rule s r (.tcpWrapperAllow (.text host) (s.read "tcpwrapper.service"))
  | append {kind : SubjectKind} {domain : String} : r.subjects kind ≠ [] →
    Rule s r (.domainAppend (.text domain) kind.setting (.tuple ((r.subjects kind).map .text)))
  | create {c : Criteria} : c ∈ r.criteria → Rule s r (.matchBlockCreate (r.block s c).header)
  | set {c : Criteria} {e : String × Directive} : c ∈ r.criteria → e ∈ r.parameters →
    Rule s r (.matchParamSet (r.block s c).header (.text e.1) e.2.toValue)

/-! ## Plans hold rules -/

namespace Request

variable {s : Settings} {r : Request}

theorem rule_grants {kind : SubjectKind} {op : Operation} (h : op ∈ r.grants s kind) :
    r.Rule s op := by
  obtain ⟨subject, hs, h⟩ := List.mem_flatMap.1 h
  obtain ⟨host, hh, rfl⟩ := List.mem_map.1 h
  exact .grant hs hh

theorem rule_append {kind : SubjectKind} {domain : String} {op : Operation}
    (h : op ∈ r.append kind domain) : r.Rule s op := by
  unfold append at h
  split at h
  · cases h
  · rename_i hs
    cases List.mem_singleton.1 h
    exact .append hs

theorem rule_operations {c : Criteria} {create : Bool} {op : Operation} (hc : c ∈ r.criteria)
    (h : op ∈ (r.block s c).operations create) : r.Rule s op := by
  rcases List.mem_append.1 h with h | h
  · split at h
    · cases List.mem_singleton.1 h
      exact .create hc
    · cases h
  · obtain ⟨e, he, rfl⟩ := List.mem_map.1 h
    obtain ⟨f, hf, rfl⟩ := List.mem_map.1 he
    rw [blockEntry, parameterValue_listed]
    exact .set hc hf

end Request

namespace Sections.Of

variable {x : Sections} {s : Settings} {r : Request} {catalogue : Value}

theorem rule_firewall (h : x.Of s r.draft catalogue) {op : Operation} (hop : op ∈ x.firewall) :
    r.Rule s op := by
  have hf := h.firewall
  rw [Draft.firewallRules, Request.hostItems_draft, Outcome.ok_bind] at hf
  obtain ⟨v, hv, hop⟩ := (Outcome.mem_mapM hf).1 hop
  obtain ⟨host, hh, rfl⟩ := List.mem_map.1 hv
  obtain ⟨template, label, port, ht, hl, hp, rfl⟩ := Draft.firewallRule_ok_iff.1 hop
  exact .accept hh ht hl hp

/-- **A plan of a request holds nothing but rules.** -/
theorem rule (h : x.Of s r.draft catalogue) {known : List Value} {op : Operation}
    (hop : op ∈ x.plan known) : r.Rule s op := by
  simp only [plan, front, List.mem_append] at hop
  rcases hop with (((hop | hop) | hop) | hop) | hop
  · rw [h.pam_eq] at hop
    exact (List.mem_append.1 hop).elim Request.rule_grants Request.rule_grants
  · exact h.rule_firewall hop
  · rw [h.wrapper_eq] at hop
    obtain ⟨host, hh, rfl⟩ := List.mem_map.1 hop
    exact .allow hh
  · obtain ⟨domains, -, hd⟩ := h.domains_eq
    rw [hd] at hop
    obtain ⟨domain, -, hop⟩ := List.mem_flatMap.1 hop
    exact (List.mem_append.1 hop).elim Request.rule_append Request.rule_append
  · obtain ⟨b, hb, hop⟩ := List.mem_flatMap.1 hop
    rw [h.blocks_eq] at hb
    obtain ⟨c, hc, rfl⟩ := List.mem_map.1 hb
    exact Request.rule_operations hc hop

/-- **There is a parameter to set**, whatever is known. -/
theorem exists_set (h : x.Of s r.draft catalogue) (hr : r.Valid) (known : List Value) :
    ∃ block directive value, .matchParamSet block directive value ∈ x.plan known := by
  obtain ⟨c, hc⟩ := List.exists_mem_of_ne_nil _ hr.criteria_ne
  obtain ⟨e, he⟩ := List.exists_mem_of_ne_nil _ hr.parameters_ne
  exact ⟨_, _, _, h.set_mem_plan known hc he⟩

end Sections.Of

/-! ## Requests that compile -/

@[simp] theorem DomainSource.catalogue_text (raw : String) :
    (DomainSource.given (.text raw)).catalogue = .ok (.text raw) := by
  rw [catalogue, catalogueOf_text]
  rfl

/-- Settings with which every request compiles, and with keys for all of its rules. -/
structure Settings.Usable (s : Settings) (parts : List Label.Part) : Prop where
  port : ∃ port, (s.read "firewall.port").toInteger = .ok port
  service : ∃ service, s.read "tcpwrapper.service" = .text service
  template : s.read "firewall.label_format" = .text (Label.Template.write parts)

/-- The firewall rules of a request under a template of parts. -/
theorem Request.firewallRules_draft {s : Settings} {parts : List Label.Part} {port : Int}
    (ht : s.read "firewall.label_format" = .text (Label.Template.write parts))
    (hp : (s.read "firewall.port").toInteger = .ok port) (r : Request) :
    r.draft.firewallRules s = .ok (r.hosts.map fun host =>
      .firewallAllow (.text host) (.text (Label.fill parts r.name host)) (.int port)
        (s.read "firewall.protocol") (s.read "firewall.action")) := by
  rw [Draft.firewallRules, hostItems_draft, Outcome.ok_bind, Outcome.mapM_ok_iff,
    List.forall₂_map_left_iff, List.forall₂_map_right_iff, List.forall₂_same]
  intro host _
  have hl := Label.render_write s.members parts r.name host
  exact Draft.firewallRule_ok_iff.2 ⟨_, _, port, ht, hl, hp, rfl⟩

theorem Request.exists_sections_draft {s : Settings} {parts : List Label.Part} {port : Int}
    (ht : s.read "firewall.label_format" = .text (Label.Template.write parts))
    (hp : (s.read "firewall.port").toInteger = .ok port) (r : Request) {catalogue : Value}
    {domains : List String} (hd : Catalogue.domains catalogue = .ok domains) :
    ∃ x : Sections, x.Of s r.draft catalogue := by
  have hpam : r.draft.pamRules s = .ok (r.grants s .group ++ r.grants s .user) := by
    rw [Draft.pamRules, show r.draft.groups = .tuple ((r.subjects .group).map .text) from rfl,
      show r.draft.users = .tuple ((r.subjects .user).map .text) from rfl, grants_draft, grants_draft]
    rfl
  exact ⟨⟨_, _, _, _, _⟩, hpam, r.firewallRules_draft ht hp, rfl, r.expand_draft hd, r.matchBlocks_draft s⟩

/-- With a template of parts and a port, every valid request compiles. -/
theorem Settings.exists_compile {s : Settings} {parts : List Label.Part} {port : Int}
    (ht : s.read "firewall.label_format" = .text (Label.Template.write parts))
    (hp : (s.read "firewall.port").toInteger = .ok port) {r : Request} (hr : r.Valid)
    {source : DomainSource} {catalogue existing : Value} {domains : List String} {known : List Value}
    (hc : source.catalogue = .ok catalogue) (hd : Catalogue.domains catalogue = .ok domains)
    (hk : knownKeys existing = .ok known) :
    ∃ x : Sections, x.Of s r.draft catalogue ∧
      (s.compile r.draft source existing).result = .ok (x.plan known) := by
  obtain ⟨x, hx⟩ := r.exists_sections_draft ht hp hd
  exact ⟨x, hx, compile_ok_iff.2 ⟨hr.allowsNobody_draft, catalogue, x, known, hc, hx, hk, rfl⟩⟩

/-- **With usable settings every valid request compiles**, for any catalogue and any known keys. -/
theorem Settings.Usable.exists_compile {s : Settings} {parts : List Label.Part} (hs : s.Usable parts)
    {r : Request} (hr : r.Valid) {source : DomainSource} {catalogue existing : Value}
    {domains : List String} {known : List Value} (hc : source.catalogue = .ok catalogue)
    (hd : Catalogue.domains catalogue = .ok domains) (hk : knownKeys existing = .ok known) :
    ∃ x : Sections, x.Of s r.draft catalogue ∧
      (s.compile r.draft source existing).result = .ok (x.plan known) := by
  obtain ⟨port, hp⟩ := hs.port
  exact Settings.exists_compile hs.template hp hr hc hd hk

end AccessPlan
