import AccessPlan.Proofs.Accepting

/-!
# What validation finds

Validation looks at one field after another, then at the names that belong to no field, and only if there is
nothing to find so far whether anybody is allowed. The findings come in groups, each of which is about one name.

* `Request.Field.findings_eq_nil_iff`: a field has findings exactly if its value is not sound by the grammar.
* `Request.Field.isAt_of_mem_findings`: they are all under the name that is used for the field.
* `Request.validate_of_found`, `Request.validate_of_nothing`: validation fails with all groups of findings, or
  because nobody is allowed.
-/

set_option autoImplicit false

namespace AccessPlan

/-! ## Findings under a name -/

namespace Finding

/-- A finding whose place begins with a name. -/
def IsAt (name : String) (f : Finding) : Prop := f.place.head? = some (.name name)

instance (name : String) (f : Finding) : Decidable (f.IsAt name) :=
  inferInstanceAs (Decidable (_ = _))

theorem isAt_of_prefix {name : String} {f : Finding} (h : [.name name] <+: f.place) : f.IsAt name := by
  obtain ⟨rest, hrest⟩ := h
  unfold IsAt
  rw [← hrest]
  rfl

theorem IsAt.eq {name name' : String} {f : Finding} (h : f.IsAt name) (h' : f.IsAt name') : name = name' :=
  Step.name.inj (Option.some.inj (h.symm.trans h'))

end Finding

namespace Request

open Finding

/-! ## Fields -/

/-- The fields of a request. -/
inductive Field where
  | name
  | hosts
  | users
  | groups
  | overrides

namespace Field

/-- All fields, in the order in which they are looked at. -/
def all : List Field := [.name, .hosts, .users, .groups, .overrides]

/-- The name that is used for a field: of the names for directives the first one that is there. -/
def label (fields : Fields) : Field → String
  | .name => "name"
  | .hosts => "hostlist"
  | .users => "users"
  | .groups => "groups"
  | .overrides => (overrideNames.find? fun name => (fields.lookup name).isSome).getD "sshd_overrides"

/-- Whether the value of a field, or the lack of one, is valid on its own. -/
def Accepts : Field → Option Value → Prop
  | .name, v => ∃ s, NameOf v s
  | .hosts, v => ∃ ss, HostsOf v ss
  | .users, v | .groups, v => ∃ ss, SubjectsOf v ss
  | .overrides, v => ∀ w, v = some w →
    ∃ m, w = .map m ∧ ∀ e ∈ m, (∃ s, e.1.Spells s) ∧ ∃ d, e.2.IsDirective d

/-- Whether the value under the name that is used for a field is valid on its own. -/
def IsSound (fields : Fields) (x : Field) : Prop := x.Accepts (fields.lookup (x.label fields))

/-- What the check of a field finds. -/
def findings (fields : Fields) : Field → List Finding
  | .name => (checkName (fields.lookup "name")).findings
  | .hosts => (checkHosts (fields.lookup "hostlist")).findings
  | .users => (checkSubjectList "users" (fields.lookup "users")).findings
  | .groups => (checkSubjectList "groups" (fields.lookup "groups")).findings
  | .overrides => (checkOverrides (overridesOf fields)).findings

variable {fields : Fields}

theorem mem_all (x : Field) : x ∈ all := by cases x <;> simp [all]

/-- Directives are looked for under the name that is used for them. -/
theorem overridesOf_eq (fields : Fields) : overridesOf fields =
    (fields.lookup (label fields .overrides)).map fun v => (label fields .overrides, v) := by
  unfold overridesOf label overrideNames
  cases h1 : fields.lookup "sshd_overrides" with
  | some v => simp [h1]
  | none =>
    cases h2 : fields.lookup "sshdOverrides" with
    | some v => simp [h1, h2]
    | none => cases h3 : fields.lookup "sshd_options" <;> simp [h1, h2, h3]

theorem label_overrides_mem (fields : Fields) : label fields .overrides ∈ overrideNames := by
  unfold label
  cases h : overrideNames.find? fun name => (fields.lookup name).isSome with
  | some name => exact List.mem_of_find?_eq_some h
  | none => simp [overrideNames]

theorem label_ne_empty (fields : Fields) (x : Field) : x.label fields ≠ "" := by
  cases x with
  | overrides =>
    intro h
    have hmem := label_overrides_mem fields
    rw [h] at hmem
    revert hmem
    decide
  | _ => simp [label]

/-! ## The check of a field -/

theorem exists_checkSubjectList_iff {name : String} {o : Option Value} :
    (∃ ss, checkSubjectList name o = .ok ss) ↔ ∃ ss, SubjectsOf o ss := by
  simp only [checkSubjectList_iff]
  constructor
  · rintro ⟨_, ts, hts, -⟩
    exact ⟨ts, hts⟩
  · rintro ⟨ts, hts⟩
    exact ⟨_, ts, hts, rfl⟩

theorem exists_checkEntries_iff {place : List Step} {m : Mapping} :
    (∃ fs, checkEntries place m = .ok fs) ↔ ∀ e ∈ m, (∃ s, e.1.Spells s) ∧ ∃ d, e.2.IsDirective d := by
  simp only [checkEntries_iff, ← exists_isEntry_iff, ← exists_forall₂_iff]
  constructor
  · rintro ⟨_, es, hes, -⟩
    exact ⟨es, hes⟩
  · rintro ⟨es, hes⟩
    exact ⟨_, es, hes, rfl⟩

theorem checkOverrides_label (fields : Fields) :
    (checkOverrides (overridesOf fields)).ReportsAt [.name (label fields .overrides)] := by
  refine checkOverrides_reportsAt fun e he => ?_
  rw [overridesOf_eq] at he
  obtain ⟨v, -, rfl⟩ := Option.map_eq_some_iff.1 he
  rfl

/-- **A field has findings exactly if its value is not sound**. -/
theorem findings_eq_nil_iff (x : Field) : x.findings fields = [] ↔ x.IsSound fields := by
  cases x with
  | name =>
    refine (checkName_reportsAt _).findings_eq_nil_iff.trans ?_
    simp only [checkName_iff]
    rfl
  | hosts =>
    refine (checkHosts_reportsAt _).findings_eq_nil_iff.trans ?_
    simp only [checkHosts_iff]
    rfl
  | users | groups =>
    exact (checkSubjectList_reportsAt _ _).findings_eq_nil_iff.trans exists_checkSubjectList_iff
  | overrides =>
    refine (checkOverrides_label fields).findings_eq_nil_iff.trans ?_
    unfold IsSound Accepts
    rw [overridesOf_eq]
    cases fields.lookup (label fields .overrides) with
    | none => simp [checkOverrides]
    | some v =>
      cases v with
      | map m => simp [checkOverrides, exists_checkEntries_iff]
      | _ => simp [checkOverrides]

theorem isAt_of_mem_findings {x : Field} {f : Finding} (h : f ∈ x.findings fields) :
    f.IsAt (x.label fields) := by
  cases x with
  | name => exact isAt_of_prefix ((checkName_reportsAt _).under f h)
  | hosts => exact isAt_of_prefix ((checkHosts_reportsAt _).under f h)
  | users | groups => exact isAt_of_prefix ((checkSubjectList_reportsAt _ _).under f h)
  | overrides => exact isAt_of_prefix ((checkOverrides_label fields).under f h)

end Field

/-! ## Names -/

/-- The names that are used for the fields. -/
def labels (fields : Fields) : List String := Field.all.map (Field.label fields)

/-- The names that belong to no field, in the order given. -/
def strangeNames (fields : Fields) : List String :=
  (fields.map Prod.fst).filter fun name => name ∉ labels fields

theorem nodup_labels (fields : Fields) : (labels fields).Nodup := by
  have hdistinct : ∀ name ∈ overrideNames, ["name", "hostlist", "users", "groups", name].Nodup := by decide
  exact hdistinct _ (Field.label_overrides_mem fields)

theorem mem_knownNames_iff_label {fields : Fields} {f : String × Value} (hf : f ∈ fields) :
    f.1 ∈ knownNames fields ↔ f.1 ∈ labels fields := by
  have hlabels : labels fields =
      ["name", "hostlist", "users", "groups"] ++ [Field.label fields .overrides] := rfl
  rw [mem_knownNames, hlabels, List.mem_append, List.mem_singleton, Field.overridesOf_eq]
  refine or_congr_right ⟨fun ⟨v, hv⟩ => ?_, fun hname => ?_⟩
  · obtain ⟨w, -, hw⟩ := Option.map_eq_some_iff.1 hv
    exact (Prod.mk.inj hw).1.symm
  · obtain ⟨v, hv⟩ := Option.ne_none_iff_exists'.1 (lookup_ne_none hf)
    exact ⟨v, by rw [← hname, hv]; rfl⟩

/-- There is one finding for each strange name. -/
theorem unknownNames_eq (fields : Fields) :
    unknownNames fields = (strangeNames fields).map fun name => ⟨.unknownField, [.name name]⟩ := by
  unfold unknownNames strangeNames
  rw [List.filter_map, List.map_map]
  refine congrArg _ (List.filter_congr fun f hf => ?_)
  rw [Bool.eq_iff_iff, Bool.not_eq_true', ← Bool.not_eq_true, List.contains_iff_mem, mem_knownNames_iff_label hf]
  simp

/-! ## Groups -/

/-- The findings of fields, group by group under the name that each group is about. -/
def findingsByName (fields : Fields) : List (String × List Finding) :=
  (Field.all.map fun x => (x.label fields, x.findings fields)) ++
    (strangeNames fields).map fun name => (name, [⟨.unknownField, [.name name]⟩])

/-- All groups of findings, one after another. -/
def found (fields : Fields) : List Finding := (findingsByName fields).flatMap Prod.snd

/-- Nobody is allowed. -/
def AllowsNobody (fields : Fields) : Prop :=
  SubjectsOf (fields.lookup "users") [] ∧ SubjectsOf (fields.lookup "groups") []

section
variable {fields : Fields}

theorem found_eq (fields : Fields) : found fields =
    (checkName (fields.lookup "name")).findings ++ (checkHosts (fields.lookup "hostlist")).findings ++
      (checkSubjectList "users" (fields.lookup "users")).findings ++
      (checkSubjectList "groups" (fields.lookup "groups")).findings ++
      (checkOverrides (overridesOf fields)).findings ++ unknownNames fields := by
  have hstrange : ((strangeNames fields).map fun name => (name, [Finding.mk .unknownField [.name name]])).flatMap
      Prod.snd = unknownNames fields := by
    rw [List.flatMap_map, unknownNames_eq, List.map_eq_flatMap]
  unfold found findingsByName
  rw [List.flatMap_append, hstrange]
  simp [Field.all, Field.findings]

theorem checkSubjectList_nil_iff (name : String) {o : Option Value} :
    checkSubjectList name o = .ok [] ↔ SubjectsOf o [] := by
  rw [checkSubjectList_iff]
  constructor
  · rintro ⟨ts, hts, hnil⟩
    have : ts = [] := Classical.byContradiction fun hne => eraseDups_ne_nil.2 hne hnil.symm
    exact this ▸ hts
  · intro h
    exact ⟨[], h, rfl⟩

theorem validate_of_found (h : found fields ≠ []) : validate fields = .error (found fields) := by
  rw [found_eq] at h ⊢
  unfold validate
  dsimp only
  split
  · rename_i hn hh hu hg ho hk
    simp [hn, hh, hu, hg, ho, hk, Checked.findings] at h
  · rfl

theorem validate_of_nothing (h : found fields = []) {findings : List Finding} :
    validate fields = .error findings ↔ AllowsNobody fields ∧ findings = [⟨.noSubjects, []⟩] := by
  rw [found_eq] at h
  simp only [List.append_eq_nil_iff] at h
  obtain ⟨⟨⟨⟨⟨hn, hh⟩, hu⟩, hg⟩, ho⟩, hk⟩ := h
  obtain ⟨name, hn⟩ := (checkName_reportsAt _).findings_eq_nil_iff.1 hn
  obtain ⟨hosts, hh⟩ := (checkHosts_reportsAt _).findings_eq_nil_iff.1 hh
  obtain ⟨users, hu⟩ := (checkSubjectList_reportsAt _ _).findings_eq_nil_iff.1 hu
  obtain ⟨groups, hg⟩ := (checkSubjectList_reportsAt _ _).findings_eq_nil_iff.1 hg
  obtain ⟨overrides, ho⟩ := (Field.checkOverrides_label fields).findings_eq_nil_iff.1 ho
  unfold AllowsNobody
  rw [← checkSubjectList_nil_iff "users", ← checkSubjectList_nil_iff "groups", hu, hg]
  simp only [validate, hn, hh, hu, hg, ho, hk]
  split
  · rename_i hs
    obtain ⟨rfl, rfl⟩ : users = [] ∧ groups = [] := by simpa using hs
    simp [eq_comm]
  · rename_i hs
    constructor
    · intro h
      cases h
    · rintro ⟨⟨hu, hg⟩, -⟩
      cases hu
      cases hg
      exact absurd rfl hs

theorem found_eq_nil_iff : found fields = [] ↔ (∀ x : Field, x.IsSound fields) ∧ strangeNames fields = [] := by
  simp only [found, findingsByName, List.flatMap_append, List.append_eq_nil_iff, List.flatMap_eq_nil_iff,
    List.forall_mem_map, Field.findings_eq_nil_iff]
  constructor
  · rintro ⟨hall, hstrange⟩
    refine ⟨fun x => hall x (Field.mem_all x), List.eq_nil_iff_forall_not_mem.2 fun name hname => ?_⟩
    cases hstrange name hname
  · rintro ⟨hall, hstrange⟩
    rw [hstrange]
    exact ⟨fun x _ => hall x, nofun⟩

end

end Request

end AccessPlan
