import AccessPlan.Proofs.Endless

/-!
# Accepted requests

* `Request.checkOverrides_iff`: the directives are given under one name at most, and no name is unknown.
* `Request.validated_iff`: the checks of all fields agree with the grammar.
* `Request.build_iff_isFormOf`: a request is built exactly from arguments that are accepted, and it is their
  form.
-/

set_option autoImplicit false

namespace AccessPlan

namespace Request

/-! ## Names -/

theorem overridesOf_eq_none_iff {fields : Fields} :
    overridesOf fields = none ↔ ∀ name ∈ overrideNames, fields.lookup name = none := by
  simp only [overridesOf, List.findSome?_eq_none_iff, Option.map_eq_none_iff]

theorem mem_of_overridesOf {fields : Fields} {name : String} {v : Value}
    (h : overridesOf fields = some (name, v)) :
    name ∈ overrideNames ∧ fields.lookup name = some v := by
  obtain ⟨n, hn, hf⟩ := List.exists_of_findSome?_eq_some h
  obtain ⟨w, hw, he⟩ := Option.map_eq_some_iff.1 hf
  cases he
  exact ⟨hn, hw⟩

theorem unknownNames_iff {fields : Fields} :
    unknownNames fields = [] ↔ ∀ f ∈ fields, f.1 ∈ knownNames fields := by
  simp [unknownNames, List.filter_eq_nil_iff]

theorem mem_knownNames {fields : Fields} {name : String} :
    name ∈ knownNames fields ↔
      name ∈ ["name", "hostlist", "users", "groups"] ∨ ∃ v, overridesOf fields = some (name, v) := by
  simp only [knownNames, List.mem_append, Option.mem_toList, Option.map_eq_some_iff, Prod.exists,
    exists_and_right, exists_eq_right]

theorem lookup_ne_none {fields : Fields} {f : String × Value} (hf : f ∈ fields) :
    fields.lookup f.1 ≠ none := fun hn => lookup_eq_none_iff.1 hn (List.mem_map_of_mem hf)

/-- The one name that is there is found. -/
theorem overridesOf_eq_some {fields : Fields} {name : String} {v : Value}
    (hname : name ∈ overrideNames) (hv : fields.lookup name = some v)
    (hn : ∀ other ∈ overrideNames, other ≠ name → fields.lookup other = none) :
    overridesOf fields = some (name, v) := by
  cases ho : overridesOf fields with
  | none => cases hv.symm.trans (overridesOf_eq_none_iff.1 ho name hname)
  | some o =>
    obtain ⟨other, w⟩ := o
    obtain ⟨hother, hw⟩ := mem_of_overridesOf ho
    have he : other = name := Classical.byContradiction fun hne => by
      cases hw.symm.trans (hn other hother hne)
    subst he
    rw [Option.some.inj (hw.symm.trans hv)]

/-- Where every name is known, no other name for directives is there than the one that counts. -/
theorem lookup_other_eq_none {fields : Fields} {name : String} {v : Value}
    (ho : overridesOf fields = some (name, v)) (hk : ∀ f ∈ fields, f.1 ∈ knownNames fields) :
    ∀ other ∈ overrideNames, other ≠ name → fields.lookup other = none := by
  intro other hother hne
  refine lookup_eq_none_iff.2 fun hmem => ?_
  obtain ⟨f, hf, rfl⟩ := List.mem_map.1 hmem
  obtain hown | ⟨w, hw⟩ := mem_knownNames.1 (hk f hf)
  · have hdisjoint : ∀ n ∈ overrideNames, n ∉ ["name", "hostlist", "users", "groups"] := by decide
    exact hdisjoint f.1 hother hown
  · cases ho.symm.trans hw
    exact hne rfl

/-- The directives and the names pass exactly if the directives are given under one name at most and the
other names are those of fields. -/
theorem checkOverrides_iff {fields : Fields} {fs : List (String × Directive)} :
    checkOverrides (overridesOf fields) = .ok fs ∧ unknownNames fields = [] ↔
      OverridesOf fields fs ∧ ∀ f ∈ fields, f.1 ∈ fieldNames := by
  rw [unknownNames_iff]
  constructor
  · rintro ⟨hc, hk⟩
    refine ⟨?_, fun f hf => ?_⟩
    · cases ho : overridesOf fields with
      | none =>
        rw [ho] at hc
        cases hc
        exact .absent (overridesOf_eq_none_iff.1 ho)
      | some o =>
        obtain ⟨name, v⟩ := o
        obtain ⟨hname, hv⟩ := mem_of_overridesOf ho
        rw [ho] at hc
        cases v with
        | map m =>
          obtain ⟨es, hes, rfl⟩ := checkEntries_iff.1 hc
          exact .given hname hv (lookup_other_eq_none ho hk) hes (lastWins_foldl es)
        | _ => cases hc
    · obtain hown | ⟨v, hv⟩ := mem_knownNames.1 (hk f hf)
      · exact List.mem_append_left _ hown
      · exact List.mem_append_right _ (mem_of_overridesOf hv).1
  · rintro ⟨ho, hk⟩
    cases ho with
    | absent hn =>
      rw [overridesOf_eq_none_iff.2 hn]
      refine ⟨rfl, fun f hf => mem_knownNames.2 (.inl ?_)⟩
      exact (List.mem_append.1 (hk f hf)).resolve_right fun h => lookup_ne_none hf (hn f.1 h)
    | @given name m es _ hname hm hn hes hl =>
      have ho := overridesOf_eq_some hname hm hn
      rw [ho]
      refine ⟨checkEntries_iff.2 ⟨es, hes, hl.eq_foldl⟩, fun f hf => mem_knownNames.2 ?_⟩
      refine (List.mem_append.1 (hk f hf)).imp_right fun h => ?_
      have he : f.1 = name := Classical.byContradiction fun hne => lookup_ne_none hf (hn f.1 h hne)
      exact ⟨_, he ▸ ho⟩

/-! ## Requests -/

theorem validated_iff {fields : Fields} {r : Request} :
    Validated fields r ↔ r.IsFormOf fields := by
  constructor
  · intro h
    obtain ⟨ho, hk⟩ := checkOverrides_iff.1 ⟨h.overrides, h.unknown⟩
    exact {
      name := checkName_iff.1 h.name
      hosts := checkHosts_iff.1 h.hosts
      users := checkSubjectList_iff.1 h.users
      groups := checkSubjectList_iff.1 h.groups
      somebody := h.somebody
      overrides := ho
      known := hk }
  · intro h
    obtain ⟨ho, hk⟩ := checkOverrides_iff.2 ⟨h.overrides, h.known⟩
    exact {
      name := checkName_iff.2 h.name
      hosts := checkHosts_iff.2 h.hosts
      users := checkSubjectList_iff.2 h.users
      groups := checkSubjectList_iff.2 h.groups
      overrides := ho
      unknown := hk
      somebody := h.somebody }

theorem eraseDups_ne_nil {ss : List String} : ss.eraseDups ≠ [] ↔ ss ≠ [] := by
  cases ss <;> simp [List.eraseDups_cons]

theorem exists_isEntry_iff {e : Value × Value} :
    (∃ f, IsEntry e f) ↔ (∃ s, e.1.Spells s) ∧ ∃ d, e.2.IsDirective d := by
  simp only [IsEntry, Prod.exists, exists_and_left, exists_and_right]

theorem exists_isFormOf_iff {fields : Fields} :
    (∃ r : Request, r.IsFormOf fields) ↔ Accepted fields := by
  constructor
  · rintro ⟨r, h⟩
    obtain ⟨users, hu, hru⟩ := h.users
    obtain ⟨groups, hg, hrg⟩ := h.groups
    have hs := h.somebody
    rw [hru, hrg, eraseDups_ne_nil, eraseDups_ne_nil] at hs
    refine ⟨⟨_, h.name⟩, ⟨_, h.hosts⟩, ⟨users, groups, hu, hg, hs⟩, ?_, h.known⟩
    obtain ⟨fs, ho⟩ : ∃ fs, OverridesOf fields fs := ⟨_, h.overrides⟩
    cases ho with
    | absent hn => exact .inl hn
    | given hname hm hn hes _ =>
      refine .inr ⟨_, hname, _, hm, hn, fun e he => exists_isEntry_iff.1 ?_⟩
      exact exists_forall₂_iff.1 ⟨_, hes⟩ e he
  · intro h
    obtain ⟨name, hname⟩ := h.name
    obtain ⟨hosts, hhosts⟩ := h.hosts
    obtain ⟨users, groups, hu, hg, hs⟩ := h.subjects
    obtain ⟨fs, ho⟩ : ∃ fs, OverridesOf fields fs := by
      obtain hn | ⟨n, hn, m, hm, hother, he⟩ := h.overrides
      · exact ⟨[], .absent hn⟩
      · obtain ⟨es, hes⟩ := exists_forall₂_iff.2 fun e h => exists_isEntry_iff.2 (he e h)
        exact ⟨_, .given hn hm hother hes (lastWins_foldl es)⟩
    exact ⟨⟨name, hosts, users.eraseDups, groups.eraseDups, fs⟩, hname, hhosts, ⟨users, hu, rfl⟩,
      ⟨groups, hg, rfl⟩, by simpa only [eraseDups_ne_nil] using hs, ho, h.known⟩

theorem fieldsOf_argumentsOf (reserved : List String) (fields : Fields) :
    fieldsOf reserved (argumentsOf fields) =
      if fields.any fun f => reserved.contains f.1 then misuse .badArguments else .ok fields := by
  have hf : (argumentsOf fields).mapM (fun e => e.1.text?.map fun name => (name, e.2)) =
      some fields := by
    rw [mapM_some_iff, argumentsOf, List.forall₂_map_left_iff, List.forall₂_same]
    exact fun _ _ => rfl
  rw [fieldsOf, hf]
  rfl

theorem fieldsOf_of_free {reserved : List String} {fields : Fields}
    (h : ∀ f ∈ fields, f.1 ∉ reserved) : fieldsOf reserved (argumentsOf fields) = .ok fields := by
  have hany : (fields.any fun f => reserved.contains f.1) = false := by simpa using h
  rw [fieldsOf_argumentsOf, hany]
  rfl

/-- No name of a field is reserved, so the names of a form are let through. -/
theorem IsFormOf.fieldsOf_eq {r : Request} {fields : Fields} (h : r.IsFormOf fields)
    (route : Route) : fieldsOf route.reserved (argumentsOf fields) = .ok fields := by
  have hfree : ∀ name ∈ fieldNames, name ∉ route.reserved := by
    cases route <;> decide
  exact fieldsOf_of_free fun f hf => hfree f.1 (h.known f hf)

/-- **A request is built from exactly the arguments that the grammar accepts, and it is their form.** -/
theorem build_iff_isFormOf (route : Route) (fields : Fields) (label : Option String) :
    ((∃ r, build route (argumentsOf fields) label = .ok r) ↔ Accepted fields) ∧
      ∀ r, build route (argumentsOf fields) label = .ok r ↔ r.IsFormOf fields := by
  have hbuild r : build route (argumentsOf fields) label = .ok r ↔ r.IsFormOf fields := by
    rw [← validated_iff, ← validate_ok_iff, build_ok_iff]
    constructor
    · rintro ⟨fs, hf, hv⟩
      rw [fieldsOf_argumentsOf] at hf
      split at hf
      · cases hf
      · cases hf
        exact hv
    · intro h
      have hform := validated_iff.1 (validate_ok_iff.1 h)
      exact ⟨fields, hform.fieldsOf_eq route, h⟩
  refine ⟨?_, hbuild⟩
  simp only [hbuild, exists_isFormOf_iff]

example : build .builder (argumentsOf [("hostlist", .text "a"),
    ("sshd_options", .map [(.text "Port", .int 22)]),
    ("users", .list [.text "u", .text "v", .bytes [117]])]) none =
      .ok ⟨"sshd", ["a"], ["u", "v"], [], [("Port", .word "22")]⟩ := by
  decide +kernel

end Request

end AccessPlan
