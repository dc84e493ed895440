import AccessPlan.Proofs.Catalogues
import AccessPlan.Proofs.Grants
import AccessPlan.Proofs.Rules
import Mathlib

/-!
# The section of the identity domains

The text that lists the identity domains says nothing but which appends a plan has, and where: they stand in
one run after the last wrapper rule (`Request.FansOut`). Everything else is the same for all texts.

* `Sections.Of.withDomains`: the sections of a request, for another text.
* `Sections.Of.fansOut`: how its plans depend on the text.
* `Settings.compile_fansOut`: the same of compilations, whoever answers with the text.
-/

set_option autoImplicit false

namespace AccessPlan

namespace Request

/-- How the plans of a request depend on the text that lists the domains. -/
structure FansOut (r : Request) (plan : String → Plan) : Prop where
  /-- What is not an append is the same for all texts, in the same order. -/
  others : ∀ a b, (plan a).filter (·.kind? ≠ some .domainAppend) =
    (plan b).filter (·.kind? ≠ some .domainAppend)
  /-- The appends stand together, and what is before them is the last wrapper rule. -/
  run : ∀ raw, ∃ before wrapper after, wrapper.kind? = some .tcpWrapperAllow ∧
    plan raw = before ++ wrapper :: (plan raw).ofKind .domainAppend ++ after ∧
    ∀ op ∈ after, op.kind? ≠ some .tcpWrapperAllow
  append : ∀ a b, (plan (a ++ "," ++ b)).ofKind .domainAppend =
    (plan a).ofKind .domainAppend ++ (plan b).ofKind .domainAppend
  length : ∀ raw, ((plan raw).ofKind .domainAppend).length = (Catalogue.parse raw).length *
    ((if r.users ≠ [] then 1 else 0) + (if r.groups ≠ [] then 1 else 0))
  /-- They go through the domains, and at each place of a domain they name users and then groups. -/
  each : ∀ raw, (plan raw).ofKind .domainAppend = (Catalogue.parse raw).flatMap r.appends
  pairs : r.users ≠ [] → r.groups ≠ [] → ∀ raw, (plan raw).ofKind .domainAppend =
    (Catalogue.parse raw).flatMap fun domain => [
      .domainAppend (.text domain) .allowUsers (.tuple (r.users.map .text)),
      .domainAppend (.text domain) .allowGroups (.tuple (r.groups.map .text))]

variable (r : Request)

theorem length_append (kind : SubjectKind) (domain : String) :
    (r.append kind domain).length = if r.subjects kind ≠ [] then 1 else 0 := by
  unfold append
  by_cases h : r.subjects kind = [] <;> simp [h]

theorem length_appends (domain : String) : (r.appends domain).length =
    (if r.users ≠ [] then 1 else 0) + (if r.groups ≠ [] then 1 else 0) := by
  rw [appends, List.length_append, length_append, length_append]
  rfl

theorem appends_pair (hu : r.users ≠ []) (hg : r.groups ≠ []) (domain : String) :
    r.appends domain = [
      .domainAppend (.text domain) .allowUsers (.tuple (r.users.map .text)),
      .domainAppend (.text domain) .allowGroups (.tuple (r.groups.map .text))] := by
  simp [appends, append, subjects, hu, hg, SubjectKind.setting]

end Request

namespace Sections

/-- The sections with other appends. -/
def withDomains (x : Sections) (domains : Plan) : Sections := { x with domains }

section
variable {x : Sections} {s : Settings} {d : Draft} {catalogue catalogue' : Value} {domains : Plan}

/-- A catalogue says nothing but which appends there are. -/
theorem Of.withDomains (h : x.Of s d catalogue)
    (hd : Catalogue.expand catalogue' d.users d.groups = .ok domains) :
    (x.withDomains domains).Of s d catalogue' :=
  { h with domains := hd }

theorem Of.ofKind_withDomains (h : x.Of s d catalogue)
    (hd : Catalogue.expand catalogue' d.users d.groups = .ok domains) (known : List Value) :
    ((x.withDomains domains).plan known).ofKind .domainAppend = domains :=
  (h.withDomains hd).ofKind_plan known .domainAppend (by decide) (by decide)

theorem others_withDomains (hd : Catalogue.expand catalogue d.users d.groups = .ok domains)
    (known : List Value) :
    ((x.withDomains domains).plan known).filter (·.kind? ≠ some .domainAppend) =
      (x.pam ++ x.firewall ++ x.wrapper ++ x.rear known).filter (·.kind? ≠ some .domainAppend) := by
  have hnone : domains.filter (·.kind? ≠ some .domainAppend) = [] :=
    List.filter_eq_nil_iff.2 fun op hop => by simp [Catalogue.kind_expand hd op hop]
  simp only [withDomains, plan, front, rear, List.filter_append, hnone, List.append_nil]

theorem Of.exists_run (h : x.Of s d catalogue) (hw : x.wrapper ≠ []) (domains : Plan)
    (known : List Value) : ∃ before wrapper after, wrapper.kind? = some .tcpWrapperAllow ∧
      (x.withDomains domains).plan known = before ++ wrapper :: domains ++ after ∧
      ∀ op ∈ after, op.kind? ≠ some .tcpWrapperAllow := by
  obtain ⟨init, wrapper, hlast⟩ : ∃ init wrapper, x.wrapper = init ++ [wrapper] :=
    ⟨_, _, (List.dropLast_append_getLast hw).symm⟩
  have hmem : wrapper ∈ x.wrapper := by simp [hlast]
  refine ⟨x.pam ++ x.firewall ++ init, wrapper, x.rear known,
    Draft.kind_wrapperRules h.wrapper wrapper hmem, ?_, fun op hop => ?_⟩
  · simp [Sections.withDomains, plan, front, rear, hlast]
  · obtain ⟨b, -, hb⟩ := header?_rear hop
    rcases Operation.kind?_of_header? hb with hk | hk <;> simp [hk]

end

/-- **How the plans of a request depend on the text** that lists the domains. -/
theorem Of.fansOut {x : Sections} {s : Settings} {r : Request} {catalogue : Value}
    (h : x.Of s r.draft catalogue) (hr : r.Valid) (known : List Value) : r.FansOut fun raw =>
      (x.withDomains ((Catalogue.parse raw).flatMap r.appends)).plan known := by
  have hd (raw : String) := r.expand_draft (Catalogue.domains_text raw)
  have hkind (raw : String) := h.ofKind_withDomains (hd raw) known
  have hw : x.wrapper ≠ [] := by
    rw [h.wrapper_eq]
    exact mt List.map_eq_nil_iff.1 hr.hosts
  constructor
  case others =>
    intro a b
    rw [others_withDomains (hd a), others_withDomains (hd b)]
  case run =>
    intro raw
    rw [hkind]
    exact h.exists_run hw _ known
  case append =>
    intro a b
    rw [hkind, hkind, hkind, Catalogue.parse_append, List.flatMap_append]
  case length =>
    intro raw
    rw [hkind, List.length_flatMap]
    simp only [r.length_appends, List.map_const', List.sum_replicate_nat]
  case each => exact hkind
  case pairs =>
    intro hu hg raw
    rw [hkind, funext (r.appends_pair hu hg)]

end Sections

/-- **The text of the domains** decides the section of the domains and nothing else, in the plans of a built
request: with settings and known keys with which one compilation returns, it returns for all texts, given
outright or by a provider. -/
theorem Settings.compile_fansOut {route : Request.Route} {arguments : Mapping}
    {label : Option String} {r : Request} (hr : Request.build route arguments label = .ok r)
    {s : Settings} {source : DomainSource} {existing : Value} {p : Plan}
    (h : (s.compile r.draft source existing).result = .ok p) :
    ∃ plan : String → Plan, r.FansOut plan ∧ ∀ raw,
      (s.compile r.draft (.given (.text raw)) existing).result = .ok (plan raw) ∧
      (s.compile r.draft (.provider (.ok (.text raw))) existing).result = .ok (plan raw) := by
  obtain ⟨ha, catalogue, x, known, -, hx, hk, -⟩ := compile_ok_iff.1 h
  have hd (raw : String) := r.expand_draft (Catalogue.domains_text raw)
  have returns (raw : String) {source : DomainSource} (hc : source.catalogue = .ok (.text raw)) :=
    compile_ok_iff.2 ⟨ha, _, _, _, hc, hx.withDomains (hd raw), hk, rfl⟩
  exact ⟨_, hx.fansOut (Request.valid_of_build hr) known, fun raw =>
    ⟨returns raw (DomainSource.catalogue_text raw), returns raw rfl⟩⟩

/-- Users and groups are appended to a domain that stands twice, and to one between. -/
theorem compile_repeats_fansOut :
    Request.build .builder repeatsArguments none = .ok repeats ∧
    ∃ plan : String → Plan, repeats.FansOut plan ∧
      ((Settings.ofTree []).compile repeats.draft (.given (.text "prod, lab,,prod"))
        (.list [.text "Address 10.0.0.5"])).result = .ok (plan "prod, lab,,prod") ∧
      ((plan "prod, lab,,prod").ofKind .domainAppend).length = 6 := by
  have hr : Request.build .builder repeatsArguments none = .ok repeats := by decide
  obtain ⟨p, h⟩ : ∃ p, ((Settings.ofTree []).compile repeats.draft (.given .null)
      (.list [.text "Address 10.0.0.5"])).result = .ok p := Outcome.exists_ok (by cbv)
  obtain ⟨plan, hplan, hall⟩ := Settings.compile_fansOut hr h
  have hraw : Catalogue.parse "prod, lab,,prod" = ["prod", "lab", "prod"] := by decide
  refine ⟨hr, plan, hplan, (hall _).1, ?_⟩
  rw [hplan.length, hraw]
  decide

end AccessPlan
