import AccessPlan.Proofs.Rules

/-!
# The labels of a plan

A template may be put together from text without braces, doubled braces, and places for the name and the host
(`Label.Template.Composed`). Such a template never fails, and the labels that it gives are its text with name and
host in their places, all at once: a name or a host that looks like a place stays as it is.

* `Label.Template.composed_iff`: these templates are the ones that are written from parts.
* `Settings.compile_fillsLabels`: the firewall rules of a request under such a template, and when there are any.
-/

set_option autoImplicit false

namespace AccessPlan

/-! ## Templates put together from pieces -/

namespace Label.Template

/-- A template that is put together from pieces, and its parts. -/
inductive Composed : List Char → List Part → Prop
  | nil : Composed [] []
  | text {cs rest : List Char} {parts : List Part} : (∀ c ∈ cs, c ≠ '\x7b' ∧ c ≠ '\x7d') →
    Composed rest parts → Composed (cs ++ rest) (cs.map .literal ++ parts)
  | opening {rest : List Char} {parts : List Part} : Composed rest parts →
    Composed ('\x7b' :: '\x7b' :: rest) (.literal '\x7b' :: parts)
  | closing {rest : List Char} {parts : List Part} : Composed rest parts →
    Composed ('\x7d' :: '\x7d' :: rest) (.literal '\x7d' :: parts)
  | name {rest : List Char} {parts : List Part} : Composed rest parts →
    Composed ("\x7bname\x7d".toList ++ rest) (.name :: parts)
  | host {rest : List Char} {parts : List Part} : Composed rest parts →
    Composed ("\x7bhost\x7d".toList ++ rest) (.host :: parts)

/-- Text without braces is written as it is. -/
theorem flatMap_written_literal {cs : List Char} (h : ∀ c ∈ cs, c ≠ '\x7b' ∧ c ≠ '\x7d') :
    (cs.map Part.literal).flatMap Part.written = cs := by
  induction cs with
  | nil => rfl
  | cons c cs ih =>
    obtain ⟨hc, hcs⟩ := List.forall_mem_cons.1 h
    have hw : (Part.literal c).written = [c] := if_neg (not_or.2 hc)
    rw [List.map_cons, List.flatMap_cons, hw, ih hcs]
    rfl

/-- **Templates that are put together from pieces** are those that are written from parts. -/
theorem composed_iff {cs : List Char} {parts : List Part} :
    Composed cs parts ↔ cs = parts.flatMap Part.written := by
  constructor
  · intro h
    induction h with
    | nil => rfl
    | text hcs _ ih => rw [List.flatMap_append, flatMap_written_literal hcs, ih]
    | opening _ ih | closing _ ih | name _ ih | host _ ih => rw [ih]; rfl
  · rintro rfl
    induction parts with
    | nil => exact .nil
    | cons p parts ih =>
      rw [List.flatMap_cons]
      cases p with
      | name => exact .name ih
      | host => exact .host ih
      | literal c =>
        by_cases hopen : c = '\x7b'
        · subst hopen
          exact .opening ih
        by_cases hclose : c = '\x7d'
        · subst hclose
          exact .closing ih
        have hw : (Part.literal c).written = [c] := if_neg (not_or.2 ⟨hopen, hclose⟩)
        rw [hw]
        have htext : ∀ d ∈ [c], d ≠ '\x7b' ∧ d ≠ '\x7d' := by simp [hopen, hclose]
        exact .text htext ih

theorem Composed.eq_write {template : String} {parts : List Part}
    (h : Composed template.toList parts) : template = write parts := by
  rw [write, ← composed_iff.1 h, String.ofList_toList]

end Label.Template

/-! ## Plans -/

/-- The firewall rules of a request have a port: there is a host, and so a rule that holds it. -/
theorem Sections.Of.exists_port {x : Sections} {s : Settings} {r : Request} {catalogue : Value}
    (h : x.Of s r.draft catalogue) (hr : r.Valid) :
    ∃ port, (s.read "firewall.port").toInteger = .ok port := by
  have hne : x.firewall ≠ [] := by
    rw [← List.length_pos_iff, ← h.firewall_host.length_eq]
    exact List.length_pos_iff.2 hr.hosts
  obtain ⟨op, hop⟩ := List.exists_mem_of_ne_nil _ hne
  have hkind := Draft.kind_firewallRules h.firewall op hop
  cases h.rule_firewall hop with
  | accept _ _ _ hp => exact ⟨_, hp⟩
  | _ => cases hkind

/-- **The labels of a plan** under a template that is put together from pieces: the firewall rules of a built
request are one for each host in order, and each label is the text of the template with the name and that host
in their places. There is a plan as soon as there is a port, a list of domains, and known keys. -/
theorem Settings.compile_fillsLabels {route : Request.Route} {arguments : Mapping}
    {label : Option String} {r : Request} (hr : Request.build route arguments label = .ok r)
    {s : Settings} {template : String} {parts : List Label.Part}
    (ht : s.read "firewall.label_format" = .text template)
    (hc : Label.Template.Composed template.toList parts) (source : DomainSource) (existing : Value) :
    ((∃ p, (s.compile r.draft source existing).result = .ok p) ↔
      (∃ port, (s.read "firewall.port").toInteger = .ok port) ∧
      (∃ catalogue domains, source.catalogue = .ok catalogue ∧
        Catalogue.domains catalogue = .ok domains) ∧
      ∃ known, knownKeys existing = .ok known) ∧
    ∀ p, (s.compile r.draft source existing).result = .ok p →
      ∃ port, (s.read "firewall.port").toInteger = .ok port ∧
        p.ofKind .firewallAllow = r.hosts.map fun host =>
          .firewallAllow (.text host) (.text (Label.fill parts r.name host)) (.int port)
            (s.read "firewall.protocol") (s.read "firewall.action") := by
  have hv := Request.valid_of_build hr
  rw [hc.eq_write] at ht
  have hrules {x : Sections} {catalogue : Value} (hx : x.Of s r.draft catalogue) :
      ∃ port, (s.read "firewall.port").toInteger = .ok port ∧
        x.firewall = r.hosts.map fun host =>
          .firewallAllow (.text host) (.text (Label.fill parts r.name host)) (.int port)
            (s.read "firewall.protocol") (s.read "firewall.action") := by
    obtain ⟨port, hp⟩ := hx.exists_port hv
    have hf := hx.firewall
    rw [r.firewallRules_draft ht hp] at hf
    exact ⟨port, hp, (Except.ok.inj hf).symm⟩
  refine ⟨⟨?_, ?_⟩, ?_⟩
  · rintro ⟨p, h⟩
    obtain ⟨-, catalogue, x, known, hcat, hx, hk, -⟩ := compile_ok_iff.1 h
    obtain ⟨port, hp, -⟩ := hrules hx
    obtain ⟨domains, hd, -⟩ := hx.domains_eq
    exact ⟨⟨port, hp⟩, ⟨catalogue, domains, hcat, hd⟩, known, hk⟩
  · rintro ⟨⟨port, hp⟩, ⟨catalogue, domains, hcat, hd⟩, known, hk⟩
    obtain ⟨x, -, hx⟩ := exists_compile ht hp hv hcat hd hk
    exact ⟨_, hx⟩
  · intro p h
    obtain ⟨-, catalogue, x, known, -, hx, -, rfl⟩ := compile_ok_iff.1 h
    obtain ⟨port, hp, hf⟩ := hrules hx
    exact ⟨port, hp, (hx.ofKind_plan known .firewallAllow (by decide) (by decide)).trans hf⟩

/-- A name and hosts that look like places of a template. -/
def bracedArguments : Mapping := [
  (.text "name", .text "\x7bhost\x7d"),
  (.text "hostlist", .list [.text "\x7bname\x7d\x7d", .text "b\x7b"]),
  (.text "users", .text "alice")]

/-- The request that they make. -/
def braced : Request := ⟨"\x7bhost\x7d", ["\x7bname\x7d\x7d", "b\x7b"], ["alice"], [], []⟩

/-- A template with text that looks like a place, and a place next to a doubled brace. -/
def bracedTemplate : String := "\x7b\x7bname\x7d\x7d:\x7bname\x7d\x7d\x7d\x7bhost\x7d"

/-- Its parts. -/
def bracedParts : List Label.Part :=
  "\x7bname\x7d:".toList.map .literal ++ [.name, .literal '\x7d', .host]

/-- Settings with that template and a port of their own. -/
def bracedSettings : Settings := .ofTree [(.text "firewall", .map [
  (.text "label_format", .text bracedTemplate), (.text "port", .text " 2_2 ")])]

/-- A label of its plan. -/
def bracedRule (host label : String) : Operation :=
  .firewallAllow (.text host) (.text label) (.int 22) (.text "tcp") (.text "accept")

/-- The name stays as it is though the host would fit in it, and the host though the name would. -/
theorem compile_braced_fillsLabels :
    Request.build .builder bracedArguments none = .ok braced ∧
    bracedSettings.read "firewall.label_format" = .text bracedTemplate ∧
    Label.Template.Composed bracedTemplate.toList bracedParts ∧
    ∃ p, (bracedSettings.compile braced.draft (.given .null) (.list [])).result = .ok p ∧
      p.ofKind .firewallAllow = [
        bracedRule "\x7bname\x7d\x7d" "\x7bname\x7d:\x7bhost\x7d\x7d\x7bname\x7d\x7d",
        bracedRule "b\x7b" "\x7bname\x7d:\x7bhost\x7d\x7db\x7b"] := by
  have hr : Request.build .builder bracedArguments none = .ok braced := by decide
  have ht : bracedSettings.read "firewall.label_format" = .text bracedTemplate := by cbv
  have hc : Label.Template.Composed bracedTemplate.toList bracedParts :=
    Label.Template.composed_iff.2 (by decide)
  have hp : (bracedSettings.read "firewall.port").toInteger = .ok 22 := by cbv
  obtain ⟨hiff, hrules⟩ := Settings.compile_fillsLabels hr ht hc (.given .null) (.list [])
  obtain ⟨p, h⟩ := hiff.2 ⟨⟨22, hp⟩, ⟨_, _, rfl, rfl⟩, _, rfl⟩
  obtain ⟨port, hport, hfirewall⟩ := hrules p h
  cases hp.symm.trans hport
  have hrest : bracedSettings.read "firewall.protocol" = .text "tcp" ∧
      bracedSettings.read "firewall.action" = .text "accept" := ⟨by cbv, by cbv⟩
  rw [hrest.1, hrest.2] at hfirewall
  exact ⟨hr, ht, hc, p, h, hfirewall⟩

end AccessPlan
