import AccessPlan.Proofs.Findings

/-!
# Rejected requests

A request that is rejected is rejected with everything that is wrong with it, in order, and the report begins with
the first finding.

* `Finding.says_summary`: what a report says of a finding.
* `Request.filter_isAt_flatMap`: groups of findings under distinct names are found again by their names.
* `Request.build_rejection`: the findings of rejected arguments, `Request.Rejection`, and what the report says.
-/

set_option autoImplicit false

namespace AccessPlan

/-! ## What is said of a finding -/

namespace Finding

/-- The place of a finding under a name is not empty when it is written out, unless the name is. -/
theorem IsAt.dotted_ne {name : String} {f : Finding} (h : f.IsAt name) (hname : name ≠ "") :
    f.dotted ≠ "" := by
  obtain ⟨rest, hplace⟩ := List.head?_eq_some_iff.1 h
  unfold dotted
  rw [hplace, List.map_cons]
  cases rest with
  | nil => exact hname
  | cons step rest =>
    intro hempty
    have := congrArg String.toList hempty
    simp [joinTexts] at this

/-- What a report says of a finding: the bare text of a rule about content, and of any other its place with dots
between the steps, and its text. If there is nothing to write of the place, the text stands alone. -/
inductive Says (f : Finding) : String → Prop
  | content {text : String} : f.rule.word = "value_error" → f.rule.message = "Value error, " ++ text →
    Says f text
  | placed : f.rule.word ≠ "value_error" → f.dotted ≠ "" → Says f (f.dotted ++ ": " ++ f.rule.message)
  | unplaced : f.rule = .unknownField → f.place = [.name ""] → Says f f.rule.message

theorem says_summary {f : Finding} (h : f.dotted = "" → f.rule.word ≠ "value_error" →
    f = ⟨.unknownField, [.name ""]⟩) : f.Says f.summary := by
  unfold summary
  split
  · rename_i hcontent
    refine .content (by simpa [Rule.isContentRule] using hcontent) ?_
    rw [Rule.message, if_pos hcontent]
  · rename_i hcontent
    have hword : f.rule.word ≠ "value_error" := by simpa [Rule.isContentRule] using hcontent
    split
    · rename_i hdotted
      have hf := h (by simpa using hdotted) hword
      rw [hf]
      exact .unplaced rfl rfl
    · rename_i hdotted
      exact .placed hword (by simpa using hdotted)

end Finding

namespace Request

open Finding

/-! ## Rejections -/

/-- What the findings of rejected fields are. -/
structure Rejection (fields : Fields) (findings : List Finding) : Prop where
  ne_nil : findings ≠ []
  /-- Something is found of a field exactly if its value is not sound. -/
  field : ∀ x : Field, (∃ f ∈ findings, f.IsAt (x.label fields)) ↔ ¬ x.IsSound fields
  /-- There is one finding for each name that belongs to no field. -/
  unknown : ∀ name ∈ strangeNames fields,
    (findings.filter fun f => f.IsAt name) = [⟨.unknownField, [.name name]⟩]
  /-- The findings stand in the order of the fields and, after these, of the other names. -/
  grouped : ⟨.noSubjects, []⟩ ∉ findings → findings =
    (labels fields ++ strangeNames fields).flatMap fun name => findings.filter fun f => f.IsAt name
  /-- That nobody is allowed is found only if there is nothing else to find. -/
  nobody : ⟨.noSubjects, []⟩ ∈ findings ↔
    (∀ x : Field, x.IsSound fields) ∧ strangeNames fields = [] ∧ AllowsNobody fields
  alone : ⟨.noSubjects, []⟩ ∈ findings → findings = [⟨.noSubjects, []⟩]

/-- Groups of findings under distinct names are found again by their names. -/
theorem filter_isAt_flatMap {groups : List (String × List Finding)} (hn : (groups.map Prod.fst).Nodup)
    (ha : ∀ g ∈ groups, ∀ f ∈ g.2, f.IsAt g.1) {g : String × List Finding} (hg : g ∈ groups) :
    (groups.flatMap Prod.snd).filter (fun f => f.IsAt g.1) = g.2 := by
  induction groups with
  | nil => cases hg
  | cons g' groups ih =>
    obtain ⟨hg', hn⟩ := List.nodup_cons.1 hn
    obtain ⟨hhead, htail⟩ := List.forall_mem_cons.1 ha
    rw [List.flatMap_cons, List.filter_append]
    -- the names are distinct, so no other group has a finding under the name of this one
    rcases List.mem_cons.1 hg with rfl | hg
    · have hself : g.2.filter (fun f => f.IsAt g.1) = g.2 := by
        rw [List.filter_eq_self]
        intro f hf
        exact decide_eq_true (hhead f hf)
      have hrest : (groups.flatMap Prod.snd).filter (fun f => f.IsAt g.1) = [] := by
        rw [List.filter_eq_nil_iff]
        intro f hf hat
        obtain ⟨g', hmem, hf⟩ := List.mem_flatMap.1 hf
        have := (of_decide_eq_true hat).eq (htail g' hmem f hf)
        exact hg' (this ▸ List.mem_map_of_mem hmem)
      rw [hself, hrest, List.append_nil]
    · have hother : g'.2.filter (fun f => f.IsAt g.1) = [] := by
        rw [List.filter_eq_nil_iff]
        intro f hf hat
        have := (of_decide_eq_true hat).eq (hhead f hf)
        exact hg' (this ▸ List.mem_map_of_mem hg)
      rw [hother, List.nil_append, ih hn htail hg]

section
variable {fields : Fields}

theorem map_fst_findingsByName (fields : Fields) :
    (findingsByName fields).map Prod.fst = labels fields ++ strangeNames fields := by
  simp [findingsByName, labels, Function.comp_def]

theorem isAt_of_mem_findingsByName : ∀ g ∈ findingsByName fields, ∀ f ∈ g.2, f.IsAt g.1 := by
  intro g hg f hf
  rcases List.mem_append.1 hg with hg | hg
  · obtain ⟨x, -, rfl⟩ := List.mem_map.1 hg
    exact Field.isAt_of_mem_findings hf
  · obtain ⟨name, -, rfl⟩ := List.mem_map.1 hg
    rw [List.mem_singleton.1 hf]
    rfl

theorem not_mem_found : ⟨.noSubjects, []⟩ ∉ found fields := by
  intro h
  obtain ⟨g, hg, hf⟩ := List.mem_flatMap.1 h
  cases isAt_of_mem_findingsByName g hg _ hf

theorem nodup_names (hn : (fields.map Prod.fst).Nodup) :
    ((findingsByName fields).map Prod.fst).Nodup := by
  rw [map_fst_findingsByName]
  refine List.Nodup.append (nodup_labels fields) (hn.filter _) fun name hlabel hstrange => ?_
  exact of_decide_eq_true (List.mem_filter.1 hstrange).2 hlabel

/-- Each group is found again among all findings. -/
theorem filter_found (hn : (fields.map Prod.fst).Nodup) {g : String × List Finding}
    (hg : g ∈ findingsByName fields) : (found fields).filter (fun f => f.IsAt g.1) = g.2 :=
  filter_isAt_flatMap (nodup_names hn) isAt_of_mem_findingsByName hg

theorem rejection_found (hn : (fields.map Prod.fst).Nodup) (h : found fields ≠ []) :
    Rejection fields (found fields) where
  ne_nil := h
  field x := by
    have hg : (x.label fields, x.findings fields) ∈ findingsByName fields :=
      List.mem_append_left _ (List.mem_map_of_mem (Field.mem_all x))
    have hgroup : (found fields).filter (fun f => f.IsAt (x.label fields)) = x.findings fields :=
      filter_found hn hg
    rw [← Field.findings_eq_nil_iff, ← hgroup]
    simp
  unknown name hname := by
    have hg : (name, [⟨.unknownField, [.name name]⟩]) ∈ findingsByName fields :=
      List.mem_append_right _ (List.mem_map_of_mem hname)
    exact filter_found hn hg
  grouped _ := by
    rw [← map_fst_findingsByName, List.flatMap_map]
    exact List.flatMap_congr fun g hg => (filter_found hn hg).symm
  nobody := by
    rw [← and_assoc, ← found_eq_nil_iff]
    exact ⟨fun hmem => absurd hmem not_mem_found, fun hnil => absurd hnil.1 h⟩
  alone hmem := absurd hmem not_mem_found

theorem rejection_nobody (h : found fields = []) (ha : AllowsNobody fields) :
    Rejection fields [⟨.noSubjects, []⟩] := by
  obtain ⟨hsound, hstrange⟩ := found_eq_nil_iff.1 h
  exact {
    ne_nil := List.cons_ne_nil _ _
    field := fun x => by simp [hsound x, IsAt]
    unknown := by simp [hstrange]
    grouped := fun hmem => absurd (List.mem_singleton_self _) hmem
    nobody := by simp [hsound, hstrange, ha]
    alone := fun _ => rfl }

/-- Every finding says something that a report can begin with. -/
theorem Rejection.says {findings : List Finding} (h : Rejection fields findings) {f : Finding}
    (hf : f ∈ findings) : f.Says f.summary := by
  refine says_summary fun hdotted hword => ?_
  -- a place that is written as nothing is that of the empty name, which is the label of no field
  by_cases hmem : ⟨.noSubjects, []⟩ ∈ findings
  · rw [h.alone hmem, List.mem_singleton] at hf
    rw [hf] at hword
    exact absurd rfl hword
  · have hgrouped := h.grouped hmem
    rw [hgrouped] at hf
    obtain ⟨name, hname, hf⟩ := List.mem_flatMap.1 hf
    have hat : f.IsAt name := of_decide_eq_true (List.mem_filter.1 hf).2
    have hempty : name = "" := Classical.byContradiction fun hne => hat.dotted_ne hne hdotted
    rcases List.mem_append.1 hname with hlabel | hstrange
    · obtain ⟨x, -, hx⟩ := List.mem_map.1 hlabel
      exact absurd (hx.trans hempty) (x.label_ne_empty fields)
    · rw [h.unknown name hstrange, List.mem_singleton, hempty] at hf
      exact hf

theorem rejection_of_validate (hn : (fields.map Prod.fst).Nodup) {findings : List Finding}
    (h : validate fields = .error findings) : Rejection fields findings := by
  by_cases hfound : found fields = []
  · obtain ⟨ha, rfl⟩ := (validate_of_nothing hfound).1 h
    exact rejection_nobody hfound ha
  · rw [validate_of_found hfound] at h
    cases h
    exact rejection_found hn hfound

end

/-- **How arguments are rejected**, if their directives are put into words at all: with everything that is wrong
with them, in order. The report holds all findings, and its message is what the first of them says. -/
theorem build_rejection {route : Route} {fields : Fields} {label : Option String} {fault : Fault}
    (hn : (fields.map Prod.fst).Nodup) (hfree : ∀ f ∈ fields, f.1 ∉ route.reserved)
    (h : build route (argumentsOf fields) label = .error fault) (hends : fault ≠ .misuse .endless) :
    ∃ first rest message, fault = .rejected (first :: rest) label ∧ Rejection fields (first :: rest) ∧
      first.Says message ∧ ∃ report, fault.report? = some report ∧ report.kind = .validation ∧
        report.message = .text message ∧ ∃ details, report.details = .map details ∧
          Mapping.getText? details "errors" = some (.list ((first :: rest).map Finding.toValue)) := by
  rw [build, fieldsOf_of_free hfree, Outcome.ok_bind] at h
  split at h
  · cases h
    exact absurd rfl hends
  cases hv : validate fields with
  | ok r =>
    rw [hv] at h
    cases h
  | error findings =>
    rw [hv] at h
    cases h
    have hr := rejection_of_validate hn hv
    obtain ⟨first, rest, rfl⟩ := List.exists_cons_of_ne_nil hr.ne_nil
    exact ⟨first, rest, first.summary, rfl, hr, hr.says List.mem_cons_self, _, rfl, rfl, rfl, _, rfl, rfl⟩

/-- Fields with a fault in almost every one, and two names that belong to no field. -/
def faultyFields : Fields :=
  [("extra", .int 1), ("sshd_options", .int 5), ("hostlist", .list [.int 1, .text "a"]),
    ("sshdOverrides", .map [(.text "Port", .null)]), ("name", .text "")]

/-- What is found of them. -/
def faultyFindings : List Finding :=
  [⟨.emptyName, [.name "name"]⟩, ⟨.notText, [.name "hostlist", .index 0]⟩,
    ⟨.notText, [.name "sshdOverrides", .name "Port", .name "str"]⟩,
    ⟨.notSequence, [.name "sshdOverrides", .name "Port", .name "tuple[str, ...]"]⟩,
    ⟨.unknownField, [.name "extra"]⟩, ⟨.unknownField, [.name "sshd_options"]⟩]

theorem build_faultyFields :
    build .builder (argumentsOf faultyFields) none = .error (.rejected faultyFindings none) ∧
      Rejection faultyFields faultyFindings ∧
      Says ⟨.emptyName, [.name "name"]⟩ "name: String should have at least 1 character" := by
  have h : build .builder (argumentsOf faultyFields) none = .error (.rejected faultyFindings none) := by
    decide +kernel
  obtain ⟨first, rest, message, hfault, hr, hsays, report, hreport, -, hmessage, -⟩ :=
    build_rejection (by decide) (by decide) h nofun
  have hfindings : faultyFindings = first :: rest := (Fault.rejected.inj hfault).1
  have hfirst : first = ⟨.emptyName, [.name "name"]⟩ := (List.cons.inj hfindings).1.symm
  have hsummary : Fault.findingsMessage faultyFindings = "name: String should have at least 1 character" := by
    decide
  cases hreport
  rw [← Value.text.inj hmessage, hsummary, hfirst] at hsays
  exact ⟨h, hfindings ▸ hr, hsays⟩

/-- An unknown name that is the empty text: there is nothing to write of its place. -/
theorem build_emptyName : ¬ ∀ (fields : Fields) (first : Finding) (rest : List Finding) (report : Report),
    (fields.map Prod.fst).Nodup → (∀ f ∈ fields, f.1 ∉ Route.builder.reserved) →
    build .builder (argumentsOf fields) none = .error (.rejected (first :: rest) none) →
    (Fault.rejected (first :: rest) none).report? = some report → first.rule.word ≠ "value_error" →
    report.message = .text (first.dotted ++ ": " ++ first.rule.message) := by
  intro h
  have hbuild : build .builder (argumentsOf [("hostlist", .text "a"), ("users", .text "u"), ("", .int 1)]) none =
      .error (.rejected [⟨.unknownField, [.name ""]⟩] none) := by decide +kernel
  have hmessage := h _ _ _ _ (by decide) (by decide) hbuild rfl (by decide)
  have htexts : "Extra inputs are not permitted" = ": Extra inputs are not permitted" :=
    Value.text.inj hmessage
  revert htexts
  decide

end Request

end AccessPlan
