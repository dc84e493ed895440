import AccessPlan.Proofs.Valid
import AccessPlan.Proofs.Sections

/-!
# The sections of a request

A request holds texts only, so three of its sections can be written down: a grant for every subject and
host (`Request.grants`), a wrapper rule for every host, and the appends to every domain
(`Request.appends`). Of the firewall rules only the labels and the port are left to the settings.

* `Sections.Of.pam_eq`, `Sections.Of.wrapper_eq`, `Sections.Of.domains_eq`, `Sections.Of.firewall_host`:
  the sections of a request, each as a walk through its lists.
-/

set_option autoImplicit false

namespace AccessPlan

/-- The allow list that holds a kind of subject. -/
def SubjectKind.setting : SubjectKind → SettingKind
  | .user => .allowUsers
  | .group => .allowGroups

namespace Request

/-- The subjects of a kind. -/
def subjects (r : Request) : SubjectKind → List String
  | .user => r.users
  | .group => r.groups

theorem Valid.nodup_subjects {r : Request} (hr : r.Valid) (kind : SubjectKind) :
    (r.subjects kind).Nodup := by
  cases kind with
  | user => exact hr.users
  | group => exact hr.groups

theorem Valid.exists_subjects {r : Request} (hr : r.Valid) : ∃ kind, r.subjects kind ≠ [] := by
  rcases hr.somebody with h | h
  · exact ⟨.user, h⟩
  · exact ⟨.group, h⟩

/-! ## The sections written down -/

/-- The grants for the subjects of a kind: for each in order, one for each host in order. -/
def grants (s : Settings) (r : Request) (kind : SubjectKind) : Plan :=
  (r.subjects kind).flatMap fun subject => r.hosts.map fun host =>
    .pamAllow kind (.text subject) (.text host) (s.read "pam.permission") (s.read "pam.position")

/-- The append of the subjects of a kind to a domain, if there are any. -/
def append (r : Request) (kind : SubjectKind) (domain : String) : Plan :=
  if r.subjects kind = [] then []
  else [.domainAppend (.text domain) kind.setting (.tuple ((r.subjects kind).map .text))]

/-- The appends to a domain: the users, then the groups. -/
def appends (r : Request) (domain : String) : Plan := r.append .user domain ++ r.append .group domain

@[simp] theorem hostItems_draft (r : Request) : r.draft.hostItems = .ok (r.hosts.map .text) := rfl

theorem grants_draft (s : Settings) (r : Request) (kind : SubjectKind) :
    r.draft.grants s kind (.tuple ((r.subjects kind).map .text)) = .ok (r.grants s kind) := by
  simp only [Draft.grants, Value.items_tuple, hostItems_draft, Outcome.ok_bind, Outcome.pure_eq]
  split
  · rename_i h
    have : r.subjects kind = [] := by simpa using h
    rw [grants, this]
    rfl
  · simp only [grants, List.flatMap_map, List.map_map, Function.comp_def]

theorem appends_draft (r : Request) (kind : SubjectKind) (domain : String) :
    Catalogue.appends kind.setting (.tuple ((r.subjects kind).map .text)) domain =
      .ok (r.append kind domain) := by
  unfold Catalogue.appends append
  by_cases h : r.subjects kind = []
  · simp [h, Value.isPresent, pure, Except.pure]
  · have : (Value.tuple ((r.subjects kind).map .text)).isPresent = true := by
      simpa [Value.isPresent] using h
    rw [if_pos this, if_neg h]
    rfl

theorem expand_draft (r : Request) {catalogue : Value} {domains : List String}
    (h : Catalogue.domains catalogue = .ok domains) :
    Catalogue.expand catalogue r.draft.users r.draft.groups = .ok (domains.flatMap r.appends) := by
  have hu := appends_draft r .user
  have hg := appends_draft r .group
  simp only [SubjectKind.setting, subjects] at hu hg
  have each : (fun domain => do
      pure ((← Catalogue.appends .allowUsers r.draft.users domain) ++
        (← Catalogue.appends .allowGroups r.draft.groups domain))) =
      fun domain => (pure (r.appends domain) : Outcome Plan) := by
    funext domain
    simp only [draft, hu, hg, Outcome.ok_bind, appends]
  simp only [Catalogue.expand, h, Outcome.ok_bind, each, List.mapM_pure]
  rfl

end Request

/-! ## The sections of a compilation -/

namespace Sections.Of

variable {x : Sections} {s : Settings} {r : Request} {catalogue : Value}

theorem pam_eq (h : x.Of s r.draft catalogue) : x.pam = r.grants s .group ++ r.grants s .user := by
  have hp := h.pam
  rw [Draft.pamRules, show r.draft.groups = .tuple ((r.subjects .group).map .text) from rfl,
    show r.draft.users = .tuple ((r.subjects .user).map .text) from rfl, r.grants_draft,
    r.grants_draft] at hp
  exact (Except.ok.inj hp).symm

theorem wrapper_eq (h : x.Of s r.draft catalogue) :
    x.wrapper = r.hosts.map fun host => .tcpWrapperAllow (.text host) (s.read "tcpwrapper.service") := by
  have hw := h.wrapper
  rw [Draft.wrapperRules, Request.hostItems_draft] at hw
  rw [← Except.ok.inj hw, List.map_map]
  rfl

theorem domains_eq (h : x.Of s r.draft catalogue) : ∃ domains,
    Catalogue.domains catalogue = .ok domains ∧ x.domains = domains.flatMap r.appends := by
  obtain ⟨domains, hd, -⟩ := Outcome.bind_ok_iff.1 h.domains
  have he := h.domains
  rw [r.expand_draft hd] at he
  exact ⟨domains, hd, (Except.ok.inj he).symm⟩

/-- The firewall rules, one for each host in order. -/
theorem firewall_host (h : x.Of s r.draft catalogue) :
    List.Forall₂ (fun host op => ∃ label port, op = .firewallAllow (.text host) (.text label)
      (.int port) (s.read "firewall.protocol") (s.read "firewall.action")) r.hosts x.firewall := by
  have hf := h.firewall
  rw [Draft.firewallRules, Request.hostItems_draft, Outcome.ok_bind] at hf
  have h2 := List.forall₂_map_left_iff.1 (Outcome.mapM_ok_iff.1 hf)
  refine h2.imp fun host op hop => ?_
  obtain ⟨template, label, port, -, -, -, rfl⟩ := Draft.firewallRule_ok_iff.1 hop
  exact ⟨label, port, rfl⟩

end Sections.Of

end AccessPlan
