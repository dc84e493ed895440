import AccessPlan.Proofs.Rules
import AccessPlan.Proofs.Unique

/-!
# The keys of a plan

Two rules of one request that have one key are equal: the key of each kind of rule tells what the rule holds
besides the settings. For a firewall rule this takes a template with a place for the host, so that the
label tells the host. A plan of a request therefore loses nothing without its repeats.

* `Request.Rule.hasTextualKey`, `Request.Rule.eq_of_key`: the keys of rules, and that they tell the rule.
* `Settings.compile_condenses`: every plan of a built request is condensed by `Plan.unique`.
-/

set_option autoImplicit false

namespace AccessPlan

/-! ## The key tells the kind -/

/-- The word that opens the keys of a kind of operation. -/
def OperationKind.keyWord : OperationKind → String
  | .pamAllow => "pam"
  | .firewallAllow => "firewall"
  | .tcpWrapperAllow => "tcpwrapper"
  | .domainAppend => "domain"
  | .matchBlockCreate => "match"
  | .matchParamSet => "match_param"

theorem OperationKind.keyWord_inj {k k' : OperationKind} (h : k.keyWord = k'.keyWord) : k = k' := by
  cases k <;> cases k' <;> first | rfl | exact absurd h (by decide)

theorem SubjectKind.word_inj {k k' : SubjectKind} (h : k.word = k'.word) : k = k' := by
  cases k <;> cases k' <;> first | rfl | exact absurd h (by decide)

theorem SubjectKind.setting_word_inj {k k' : SubjectKind} (h : k.setting.word = k'.setting.word) :
    k = k' := by
  cases k <;> cases k' <;> first | rfl | exact absurd h (by decide)

theorem Operation.head?_key {op : Operation} {items : List Value} (h : op.key = .ok (.tuple items)) :
    ∃ kind, op.kind? = some kind ∧ items.head? = some (.text kind.keyWord) := by
  cases op with
  | pamAllow | firewallAllow | tcpWrapperAllow | domainAppend =>
    cases h
    exact ⟨_, rfl, rfl⟩
  | matchBlockCreate | matchParamSet =>
    obtain ⟨key, -, hk⟩ := Outcome.bind_ok_iff.1 h
    cases hk
    exact ⟨_, rfl, rfl⟩
  | foreign object =>
    obtain ⟨key, -, hk⟩ := Outcome.bind_ok_iff.1 h
    cases hk

theorem Operation.kind?_eq_of_key {a b : Operation} {items : List Value}
    (ha : a.key = .ok (.tuple items)) (hb : b.key = .ok (.tuple items)) : a.kind? = b.kind? := by
  obtain ⟨k, hk, hw⟩ := head?_key ha
  obtain ⟨k', hk', hw'⟩ := head?_key hb
  have hword := Value.text.inj (Option.some.inj (hw.symm.trans hw'))
  rw [hk, hk', OperationKind.keyWord_inj hword]

/-! ## The key tells the rule -/

namespace Request.Rule

variable {s : Settings} {parts : List Label.Part} {r : Request} {a b op : Operation}

/-- The key of a rule is a tuple of texts. -/
theorem exists_key (hs : s.Usable parts) (h : r.Rule s op) :
    ∃ items, op.key = .ok (.tuple items) ∧ Value.allTextual items = true := by
  obtain ⟨service, hservice⟩ := hs.service
  cases h with
  | allow =>
    rw [hservice]
    exact ⟨_, rfl, rfl⟩
  | append =>
    refine ⟨_, rfl, ?_⟩
    simp only [Value.allTextual, Value.isTextual, Value.allTextual_texts, Bool.and_true]
  | _ => exact ⟨_, rfl, rfl⟩

theorem hasTextualKey (hs : s.Usable parts) (h : r.Rule s op) : op.HasTextualKey := by
  obtain ⟨items, hk, ht⟩ := h.exists_key hs
  exact ⟨_, hk, ht⟩

/-- With one template, the labels of two hosts are equal only if the hosts are. -/
theorem host_of_label (hs : s.Usable parts) (hp : .host ∈ parts)
    {name host host' template template' label : String}
    (ht : s.read "firewall.label_format" = .text template)
    (ht' : s.read "firewall.label_format" = .text template')
    (hl : Label.render s.members template ⟨.text name, .text host⟩ = .ok label)
    (hl' : Label.render s.members template' ⟨.text name, .text host'⟩ = .ok label) : host = host' := by
  cases hs.template.symm.trans ht
  cases hs.template.symm.trans ht'
  rw [Label.render_write] at hl hl'
  exact Label.fill_inj hp (Except.ok.inj (hl.trans hl'.symm))

/-- **The key of a rule tells the rule**, among the rules of one request. -/
theorem eq_of_key (hs : s.Usable parts) (hp : .host ∈ parts) (hr : r.Valid) (ha : r.Rule s a)
    (hb : r.Rule s b) (h : a.key = b.key) : a = b := by
  obtain ⟨items, hk, -⟩ := ha.exists_key hs
  have hkind := Operation.kind?_eq_of_key hk (h ▸ hk)
  have parts {xs ys : List Value} (h : (.ok (.tuple xs) : Outcome Value) = .ok (.tuple ys)) :
      xs = ys := Value.tuple.inj (Except.ok.inj h)
  -- rules of two kinds have two keys, so one case is left for each kind
  cases ha with
  | @grant kind subject host =>
    cases hb with
    | @grant kind' subject' host' =>
      have h := parts h
      simp only [List.cons.injEq, Value.text.injEq, true_and, and_true] at h
      obtain ⟨hword, rfl, rfl⟩ := h
      rw [SubjectKind.word_inj hword]
    | _ => cases hkind
  | accept hh ht hl hport =>
    cases hb with
    | accept hh' ht' hl' hport' =>
      cases parts h
      cases host_of_label hs hp ht ht' hl hl'
      cases hport.symm.trans hport'
      rfl
    | _ => cases hkind
  | allow =>
    cases hb with
    | allow =>
      have h := parts h
      simp only [List.cons.injEq, Value.text.injEq, true_and, and_true] at h
      rw [h]
    | _ => cases hkind
  | append =>
    cases hb with
    | append =>
      have h := parts h
      simp only [List.cons.injEq, Value.text.injEq, true_and, and_true] at h
      obtain ⟨rfl, hword, -⟩ := h
      rw [SubjectKind.setting_word_inj hword]
    | _ => cases hkind
  | @create c =>
    cases hb with
    | @create c' =>
      have h := parts h
      simp only [List.cons.injEq, Value.text.injEq, true_and, and_true] at h
      have hc : c = c' := Request.key_block_inj (s := s) h
      rw [hc]
    | _ => cases hkind
  | @set c e hc he =>
    cases hb with
    | @set c' e' hc' he' =>
      have h := parts h
      simp only [List.cons.injEq, Value.text.injEq, true_and, and_true] at h
      have hc : c = c' := Request.key_block_inj (s := s) h.1
      have he : e = e' := List.inj_on_of_nodup_map hr.nodup_parameters he he' h.2
      rw [hc, he]
    | _ => cases hkind

end Request.Rule

/-! ## Plans -/

theorem Sections.Of.exists_condenses {x : Sections} {s : Settings} {parts : List Label.Part}
    {r : Request} {catalogue : Value} (h : x.Of s r.draft catalogue) (hs : s.Usable parts)
    (hp : .host ∈ parts) (hr : r.Valid) (known : List Value) : ∃ u, (x.plan known).Condenses u := by
  refine Plan.exists_condenses (fun op hop => (h.rule hop).hasTextualKey hs) fun a ha b hb hk => ?_
  exact (h.rule ha).eq_of_key hs hp hr (h.rule hb) (((h.rule hb).hasTextualKey hs).key_eq hk)

/-- **Deduplicating the plan of a built request loses nothing**, if the settings are usable and their template
has a place for the host: operations with one key are equal, and so `Plan.unique` keeps every operation,
once, and it makes no difference where the last write wins. -/
theorem Settings.compile_condenses {route : Request.Route} {arguments : Mapping}
    {label : Option String} {r : Request} (hr : Request.build route arguments label = .ok r)
    {s : Settings} {parts : List Label.Part} (hs : s.Usable parts) (hp : .host ∈ parts)
    (raw : String) {existing : Value} {known : List Value} (hk : knownKeys existing = .ok known) :
    ∃ p u, (s.compile r.draft (.given (.text raw)) existing).result = .ok p ∧ p.Condenses u := by
  have hv := Request.valid_of_build hr
  obtain ⟨x, hx, hplan⟩ := hs.exists_compile hv (DomainSource.catalogue_text raw)
    (Catalogue.domains_text raw) hk
  obtain ⟨u, hu⟩ := hx.exists_condenses hs hp hv known
  exact ⟨_, u, hplan, hu⟩

/-- A host and a domain that come twice, under a template that has two places for the host. -/
def doubledArguments : Mapping := [
  (.text "name", .text "{host}"),
  (.text "hostlist", .list [.text "bastion", .text "bastion"]),
  (.text "users", .text "alice"),
  (.text "sshd_overrides", .map [(.text "X11Forwarding", .bool false)])]

/-- The request that they make. -/
def doubled : Request :=
  ⟨"{host}", ["bastion", "bastion"], ["alice"], [], [("X11Forwarding", .word "no")]⟩

/-- The parts of that template. -/
def doubledParts : List Label.Part :=
  [.host, .literal '{', .name, .literal '}', .literal ' ', .host]

/-- Settings with that template and a port of their own. -/
def doubledSettings : Settings := .ofTree [(.text "firewall", .map [
  (.text "label_format", .text "{host}{{{name}}} {host}"),
  (.text "port", .int 2222)])]

theorem doubledSettings_usable : doubledSettings.Usable doubledParts where
  port := ⟨2222, by cbv⟩
  service := ⟨"sshd", by cbv⟩
  template := by cbv

/-- The grant that its plan opens with. -/
def doubledGrant : Operation :=
  .pamAllow .user (.text "alice") (.text "bastion") (.text "+") (.text "end")

/-- Its plan opens with one grant twice, and is condensed all the same: the label tells the host though it
stands in it twice, and the block that is known keeps its parameters. -/
theorem compile_doubled_condenses :
    Request.build .builder doubledArguments none = .ok doubled ∧
    ∃ p u, (doubledSettings.compile doubled.draft (.given (.text "prod, prod"))
        (.list [.text "Host bastion,bastion"])).result = .ok p ∧
      p.take 2 = [doubledGrant, doubledGrant] ∧ p.Condenses u := by
  have hr : Request.build .builder doubledArguments none = .ok doubled := by decide
  have hfirst : ((doubledSettings.compile doubled.draft (.given (.text "prod, prod"))
      (.list [.text "Host bastion,bastion"])).result >>= fun p => pure (p.take 2)) =
      .ok [doubledGrant, doubledGrant] := by cbv
  obtain ⟨p, u, hp, hu⟩ := Settings.compile_condenses hr doubledSettings_usable (by decide)
    "prod, prod" (knownKeys_texts ["Host bastion,bastion"])
  obtain ⟨q, hq, htake⟩ := Outcome.bind_ok_iff.1 hfirst
  cases hq.symm.trans hp
  exact ⟨hr, p, u, hp, Except.ok.inj htake, hu⟩

end AccessPlan
