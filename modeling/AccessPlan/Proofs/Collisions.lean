import AccessPlan.Proofs.Applying

/-!
# Labels that are read in two ways

The default label is the name of a request, the words ` allow ssh from ` and a host, and nothing marks where the
words begin. They may stand in a name or in a host as well, and then one label is that of two requests:
the words slide over a piece of text that belongs to the host in one reading and to the name in the other.

* `append_between_iff`: two texts with the same words between their halves, for any words.
* `Label.fill_default_iff`: two default labels are equal only if name and host are, or if the words slide.
* `Settings.compile_labels`: the same for the firewall rules of two plans.
-/

set_option autoImplicit false

namespace AccessPlan

/-! ## Words between two texts -/

section
variable {α : Type} {w n h n' h' : List α}

/-- Where the longer half goes on, it goes on with the words, or the words overlap themselves. -/
theorem append_between_cases {e : List α} (he : w ++ h = e ++ (w ++ h')) :
    (∃ t, e = w ++ t ∧ h = t ++ (w ++ h')) ∨
      ∃ t, w = e ++ t ∧ t <+: w ∧ w ++ h' = t ++ h := by
  rcases List.append_eq_append_iff.1 he with ⟨t, hw, ht⟩ | ⟨t, hw, ht⟩
  · exact .inl ⟨t, hw, ht⟩
  · refine .inr ⟨t, hw, ?_, ht⟩
    have hlen : t.length ≤ w.length := by
      rw [hw, List.length_append]
      omega
    exact List.prefix_of_prefix_length_le ⟨h, ht.symm⟩ ⟨h', rfl⟩ hlen

theorem append_between_iff :
    n ++ (w ++ h) = n' ++ (w ++ h') ↔
      (∃ e, n' = n ++ e ∧ w ++ h = e ++ (w ++ h')) ∨
        ∃ e, n = n' ++ e ∧ w ++ h' = e ++ (w ++ h) := by
  rw [List.append_eq_append_iff]

end

namespace Label

/-- The words between name and host in a default label. -/
def words : String := " allow ssh from "

/-- The pairs of name and host that one default label is read as: the words slide over a text, or by all but
the blank in which they begin and end. -/
inductive Slides : String × String → String × String → Prop
  | across (name text host : String) :
    Slides (name, text ++ words ++ host) (name ++ words ++ text, host)
  | edge (name host : String) :
    Slides (name, "allow ssh from " ++ host) (name ++ " allow ssh from", host)

/-- Of the words, only the whole of them, a blank and nothing stand both at the end and at the beginning. -/
theorem eq_of_words_border {e t : List Char} (he : words.toList = e ++ t) (ht : t <+: words.toList) :
    e = [] ∨ e = " allow ssh from".toList ∨ e = words.toList := by
  have hborder : ∀ k < 17, words.toList.drop k <+: words.toList →
      words.toList.take k = [] ∨ words.toList.take k = " allow ssh from".toList ∨
        words.toList.take k = words.toList := by decide
  have hlen : e.length < 17 := by
    have := congrArg List.length he
    rw [List.length_append, show words.toList.length = 16 by decide] at this
    omega
  have htake : words.toList.take e.length = e := by rw [he, List.take_left]
  have hdrop : words.toList.drop e.length = t := by rw [he, List.drop_left]
  have := hborder e.length hlen
  rw [htake, hdrop] at this
  exact this ht

theorem slides_of_append {name host name' host' : String} {e : List Char}
    (hn : name'.toList = name.toList ++ e)
    (he : words.toList ++ host.toList = e ++ (words.toList ++ host'.toList)) :
    (name, host) = (name', host') ∨ Slides (name, host) (name', host') := by
  have hname : name' = name ++ String.ofList e := by
    apply String.toList_injective
    simp [hn]
  rcases append_between_cases he with ⟨t, rfl, hh⟩ | ⟨t, hw, hborder, hh⟩
  · have hhost : host = String.ofList t ++ words ++ host' := by
      apply String.toList_injective
      simp [hh]
    rw [String.ofList_append, String.ofList_toList, ← String.append_assoc] at hname
    rw [hname, hhost]
    exact .inr (.across name _ host')
  · rcases eq_of_words_border hw hborder with rfl | rfl | rfl
    · left
      simp only [List.nil_append] at he
      rw [hname, String.toList_injective (List.append_cancel_left he)]
      simp
    · have hhost : host = "allow ssh from " ++ host' := by
        apply String.toList_injective
        rw [String.toList_append]
        simpa [words] using he
      rw [hname, hhost, String.ofList_toList]
      exact .inr (.edge name host')
    · have hhost : host = "" ++ words ++ host' := by
        apply String.toList_injective
        simpa using he
      rw [hname, hhost, String.ofList_toList]
      have hslides := Slides.across name "" host'
      rw [String.append_empty] at hslides
      exact .inr hslides

theorem toList_fill_default (name host : String) :
    (fill defaultParts name host).toList =
      "022 ".toList ++ (name.toList ++ (words.toList ++ host.toList)) := by
  have hliteral (cs : List Char) : (cs.map Part.literal).flatMap (Part.filled name host) = cs := by
    induction cs with
    | nil => rfl
    | cons c cs ih => rw [List.map_cons, List.flatMap_cons, ih]; rfl
  unfold fill defaultParts words
  simp only [String.toList_ofList, List.flatMap_append, hliteral, List.flatMap_cons, List.flatMap_nil, Part.filled,
    List.append_nil, List.append_assoc]

theorem Slides.fill_eq {a b : String × String} (h : Slides a b) :
    fill defaultParts a.1 a.2 = fill defaultParts b.1 b.2 := by
  apply String.toList_injective
  rw [toList_fill_default, toList_fill_default]
  cases h with
  | across => simp
  | edge => simp [words]

/-- **Default labels are equal** only if name and host are equal, or if the words slide. -/
theorem fill_default_iff {name host name' host' : String} :
    fill defaultParts name host = fill defaultParts name' host' ↔
      (name, host) = (name', host') ∨ Slides (name, host) (name', host') ∨
        Slides (name', host') (name, host) := by
  constructor
  · intro h
    have h := congrArg String.toList h
    rw [toList_fill_default, toList_fill_default] at h
    rcases append_between_iff.1 (List.append_cancel_left h) with ⟨e, hn, he⟩ | ⟨e, hn, he⟩
    · exact (slides_of_append hn he).imp_right .inl
    · exact (slides_of_append hn he).imp Eq.symm .inr
  · rintro (h | h | h)
    · rw [(Prod.mk.inj h).1, (Prod.mk.inj h).2]
    · exact h.fill_eq
    · exact h.fill_eq.symm

/-- Where neither name holds the words, there is one reading. -/
theorem Slides.words_infix {a b : String × String} (h : Slides a b) :
    " allow ssh from".toList <:+: b.1.toList := by
  cases h with
  | across name text host => exact ⟨name.toList, ' ' :: text.toList, by simp [words]⟩
  | edge name host => exact ⟨name.toList, [], by simp⟩

end Label

/-! ## Firewall rules -/

namespace Operation

/-- The host that a firewall rule accepts. -/
def source? : Operation → Option Value
  | .firewallAllow source _ _ _ _ => some source
  | _ => none

/-- The label of a firewall rule. -/
def label? : Operation → Option Value
  | .firewallAllow _ label _ _ _ => some label
  | _ => none

end Operation

/-- What a firewall rule of a default plan holds. -/
theorem Settings.label?_of_mem {r : Request} {source : DomainSource} {existing : Value} {p : Plan}
    (h : ((Settings.ofTree []).compile r.draft source existing).result = .ok p) {op : Operation}
    (hop : op ∈ p.ofKind .firewallAllow) :
    ∃ host ∈ r.hosts, op.source? = some (.text host) ∧
      op.label? = some (.text (Label.fill Label.defaultParts r.name host)) := by
  obtain ⟨-, catalogue, x, known, -, hx, -, rfl⟩ := compile_ok_iff.1 h
  obtain ⟨hmem, hkind⟩ := List.mem_filter.1 hop
  cases hx.rule hmem with
  | @accept host template label port hh ht hl hp =>
    cases Settings.usable_defaults.template.symm.trans ht
    rw [Label.render_write] at hl
    exact ⟨host, hh, rfl, by rw [← Except.ok.inj hl]; rfl⟩
  | _ => cases hkind

theorem Operation.key_eq_iff_label? {a b : Operation} (ha : a.kind? = some .firewallAllow)
    (hb : b.kind? = some .firewallAllow) : a.key = b.key ↔ a.label? = b.label? := by
  cases a <;> cases ha
  cases b <;> cases hb
  simp [key, label?, pure, Except.pure]

/-- **When two firewall rules share a label**, and so a key: if they accept one host for requests of one name, or
if the words slide between name and host. Where no name holds the words there is no other way. -/
theorem Settings.compile_labels {r r' : Request} {source source' : DomainSource}
    {existing existing' : Value} {p p' : Plan}
    (h : ((Settings.ofTree []).compile r.draft source existing).result = .ok p)
    (h' : ((Settings.ofTree []).compile r'.draft source' existing').result = .ok p')
    {a b : Operation} (ha : a ∈ p.ofKind .firewallAllow) (hb : b ∈ p'.ofKind .firewallAllow) :
    ∃ host ∈ r.hosts, ∃ host' ∈ r'.hosts,
      a.source? = some (.text host) ∧ b.source? = some (.text host') ∧
      (a.key = b.key ↔ a.label? = b.label?) ∧
      (a.label? = b.label? ↔ (r.name, host) = (r'.name, host') ∨
        Label.Slides (r.name, host) (r'.name, host') ∨ Label.Slides (r'.name, host') (r.name, host)) ∧
      (¬ " allow ssh from".toList <:+: r.name.toList → ¬ " allow ssh from".toList <:+: r'.name.toList →
        a.label? = b.label? → r.name = r'.name ∧ host = host') := by
  obtain ⟨host, hhost, hsource, hlabel⟩ := label?_of_mem h ha
  obtain ⟨host', hhost', hsource', hlabel'⟩ := label?_of_mem h' hb
  have hkey : a.key = b.key ↔ a.label? = b.label? :=
    Operation.key_eq_iff_label? (beq_iff_eq.1 (List.mem_filter.1 ha).2)
      (beq_iff_eq.1 (List.mem_filter.1 hb).2)
  have hiff : a.label? = b.label? ↔ (r.name, host) = (r'.name, host') ∨
      Label.Slides (r.name, host) (r'.name, host') ∨
        Label.Slides (r'.name, host') (r.name, host) := by
    rw [hlabel, hlabel', Option.some.injEq, Value.text.injEq, Label.fill_default_iff]
  refine ⟨host, hhost, host', hhost', hsource, hsource', hkey, hiff, fun hr hr' heq => ?_⟩
  rcases hiff.1 heq with heq | hslides | hslides
  · exact Prod.mk.inj heq
  · exact absurd hslides.words_infix hr'
  · exact absurd hslides.words_infix hr

/-- The arguments of a request for one user. -/
def labelArguments (name host : String) : Mapping :=
  [(.text "name", .text name), (.text "hostlist", .text host), (.text "users", .text "alice")]

/-- The request that they make. -/
def labelRequest (name host : String) : Request := ⟨name, [host], ["alice"], [], []⟩

/-- What its compilation without a catalogue comes to. -/
def labelOutcome (name host : String) : Outcome Plan :=
  ((Settings.ofTree []).compile (labelRequest name host).draft (.given .null) (.tuple [])).result

/-- The firewall rule in its plan. -/
def labelRule (host label : String) : Operation :=
  .firewallAllow (.text host) (.text label) (.int 22) (.text "tcp") (.text "accept")

theorem exists_plan_of_labelOutcome (name host label : String)
    (h : (labelOutcome name host >>= fun p => pure (p.ofKind .firewallAllow)) =
      .ok [labelRule host label]) :
    ∃ p, labelOutcome name host = .ok p ∧ labelRule host label ∈ p.ofKind .firewallAllow := by
  obtain ⟨p, hp, hrules⟩ := Outcome.bind_ok_iff.1 h
  rw [Outcome.pure_ok_iff] at hrules
  exact ⟨p, hp, by simp [hrules]⟩

/-- A host that begins with the words, and a name that ends in them. -/
theorem compile_labels_edge : ∃ p p' a b,
    labelOutcome "web" "allow ssh from db" = .ok p ∧
      labelOutcome "web allow ssh from" "db" = .ok p' ∧
      a ∈ p.ofKind .firewallAllow ∧ b ∈ p'.ofKind .firewallAllow ∧
      a.source? = some (.text "allow ssh from db") ∧ b.source? = some (.text "db") ∧
      a.key = b.key := by
  obtain ⟨p, hp, ha⟩ := exists_plan_of_labelOutcome "web" "allow ssh from db"
    "022 web allow ssh from allow ssh from db" (by cbv)
  obtain ⟨p', hp', hb⟩ := exists_plan_of_labelOutcome "web allow ssh from" "db"
    "022 web allow ssh from allow ssh from db" (by cbv)
  obtain ⟨host, hhost, host', hhost', hsource, hsource', hkey, hiff, -⟩ :=
    Settings.compile_labels hp hp' ha hb
  cases List.mem_singleton.1 hhost
  cases List.mem_singleton.1 hhost'
  have hlabel := hiff.2 (.inr (.inl (.edge "web" "db")))
  exact ⟨p, p', _, _, hp, hp', ha, hb, hsource, hsource', hkey.2 hlabel⟩

/-- **One label for two names and two hosts**: built requests of which one holds the words in its host, and the
other in its name. -/
theorem compile_labels_collide :
    ¬ ∀ (arguments arguments' : Mapping) (r r' : Request) (p p' : Plan) (a b : Operation),
      Request.build .builder arguments none = .ok r →
      Request.build .builder arguments' none = .ok r' →
      ((Settings.ofTree []).compile r.draft (.given .null) (.tuple [])).result = .ok p →
      ((Settings.ofTree []).compile r'.draft (.given .null) (.tuple [])).result = .ok p' →
      a ∈ p.ofKind .firewallAllow → b ∈ p'.ofKind .firewallAllow → a.label? = b.label? →
      r.name = r'.name ∧ a.source? = b.source? := by
  intro h
  obtain ⟨p, hp, ha⟩ := exists_plan_of_labelOutcome "a" "b allow ssh from c"
    "022 a allow ssh from b allow ssh from c" (by cbv)
  obtain ⟨p', hp', hb⟩ := exists_plan_of_labelOutcome "a allow ssh from b" "c"
    "022 a allow ssh from b allow ssh from c" (by cbv)
  have hr : Request.build .builder (labelArguments "a" "b allow ssh from c") none =
      .ok (labelRequest "a" "b allow ssh from c") := by decide
  have hr' : Request.build .builder (labelArguments "a allow ssh from b" "c") none =
      .ok (labelRequest "a allow ssh from b" "c") := by decide
  have hname : "a" = "a allow ssh from b" := (h _ _ _ _ p p' _ _ hr hr' hp hp' ha hb rfl).1
  revert hname
  decide

end AccessPlan
