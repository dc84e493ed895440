import AccessPlan.Proofs.Outcome
import AccessPlan.Request.Validation
import Mathlib.Data.List.Nodup

/-!
# What validation promises

`Request.Valid r`: the conditions that every validated request meets and that compilation counts on: there
are hosts, nobody is listed twice, somebody is listed, and no directive is set twice.

* `Request.validate_ok_iff`: a request comes out of validation exactly when every field gives its part, no
  name is unknown, and somebody is allowed.
* `Request.valid_of_build`: whatever the arguments were, a request that was built is valid.
-/

set_option autoImplicit false

namespace AccessPlan.Request

/-- What a validated request is known to be. -/
structure Valid (r : Request) : Prop where
  name : r.name ≠ ""
  hosts : r.hosts ≠ []
  entries : "" ∉ r.hosts
  users : r.users.Nodup
  groups : r.groups.Nodup
  somebody : r.users ≠ [] ∨ r.groups ≠ []
  directives : (r.overrides.map Prod.fst).Nodup

/-- A valid request allows somebody, and its draft shows it. -/
theorem Valid.allowsNobody_draft {r : Request} (hr : r.Valid) : r.draft.allowsNobody = false := by
  rw [Request.allowsNobody_draft]
  simpa [Classical.or_iff_not_imp_left] using hr.somebody

/-! ## Validation, field by field -/

/-- A request whose parts are what the checks of the fields give. -/
structure Validated (fields : Fields) (r : Request) : Prop where
  name : checkName (fields.lookup "name") = .ok r.name
  hosts : checkHosts (fields.lookup "hostlist") = .ok r.hosts
  users : checkSubjectList "users" (fields.lookup "users") = .ok r.users
  groups : checkSubjectList "groups" (fields.lookup "groups") = .ok r.groups
  overrides : checkOverrides (overridesOf fields) = .ok r.overrides
  unknown : unknownNames fields = []
  somebody : r.users ≠ [] ∨ r.groups ≠ []

theorem validate_ok_iff {fields : Fields} {r : Request} :
    validate fields = .ok r ↔ Validated fields r := by
  constructor
  · intro h
    simp only [validate] at h
    split at h
    · rename_i hn hh hu hg ho hk
      split at h
      · cases h
      · rename_i hs
        cases h
        refine ⟨hn, hh, hu, hg, ho, hk, ?_⟩
        simpa [Classical.or_iff_not_imp_left] using hs
    · cases h
  · rintro ⟨hn, hh, hu, hg, ho, hk, hs⟩
    have : (r.users.isEmpty && r.groups.isEmpty) = false := by
      simpa [Classical.or_iff_not_imp_left] using hs
    simp [validate, hn, hh, hu, hg, ho, hk, this]

/-- A built request went through validation. -/
theorem validate_of_build {route : Route} {arguments : Mapping} {label : Option String}
    {r : Request} (h : build route arguments label = .ok r) :
    ∃ fields, fieldsOf route.reserved arguments = .ok fields ∧ validate fields = .ok r := by
  obtain ⟨fields, hf, h⟩ := Outcome.bind_ok_iff.1 h
  refine ⟨fields, hf, ?_⟩
  split at h
  · cases h
  · split at h
    · rename_i hv
      cases h
      exact hv
    · cases h

/-! ## Name and hosts -/

theorem checkName_ne {v : Option Value} {s : String} (h : checkName v = .ok s) : s ≠ "" := by
  unfold checkName at h
  split at h
  · cases h
    decide
  · split at h
    · split at h
      · cases h
      · rename_i hs
        cases h
        simpa using hs
    · cases h

theorem checkHosts_ok {v : Option Value} {ss : List String} (h : checkHosts v = .ok ss) :
    ss ≠ [] ∧ "" ∉ ss := by
  unfold checkHosts at h
  split at h
  · cases h
  · split at h
    · cases h
    · dsimp only at h
      split at h
      · rename_i hf
        split at h
        · cases h
        · rename_i hc
          cases h
          refine ⟨fun he => ?_, by simpa using hc⟩
          simp [he] at hf
      · cases h

/-! ## Users and groups -/

/-- Nobody stays in the list twice. -/
theorem nodup_firstSeen (ss : List String) : (firstSeen ss).Nodup := by
  induction ss with
  | nil => exact List.nodup_nil
  | cons s ss ih => exact List.nodup_cons.2 ⟨by simp, ih.filter _⟩

theorem checkSubjectList_nodup {name : String} {v : Option Value} {ss : List String}
    (h : checkSubjectList name v = .ok ss) : ss.Nodup := by
  cases v with
  | none =>
    cases h
    exact List.nodup_nil
  | some v =>
    simp only [checkSubjectList] at h
    cases ht : checkTexts [.name name] v.asSequence with
    | error fs =>
      rw [ht] at h
      cases h
    | ok ts =>
      rw [ht] at h
      cases h
      exact nodup_firstSeen ts

/-! ## Directives -/

/-- Writing a directive adds its name at the end, unless it is there. -/
theorem map_fst_putDirective (fs : List (String × Directive)) (e : String × Directive) :
    (putDirective fs e).map Prod.fst =
      if e.1 ∈ fs.map Prod.fst then fs.map Prod.fst else fs.map Prod.fst ++ [e.1] := by
  induction fs with
  | nil => rfl
  | cons f fs ih =>
    by_cases hf : f.1 = e.1
    · simp [putDirective, hf]
    · simp only [putDirective, beq_iff_eq, hf, if_false, List.map_cons, ih, List.mem_cons,
        Ne.symm hf, false_or]
      split <;> rfl

theorem nodup_putDirective {fs : List (String × Directive)} (h : (fs.map Prod.fst).Nodup)
    (e : String × Directive) : ((putDirective fs e).map Prod.fst).Nodup := by
  rw [map_fst_putDirective]
  split
  · exact h
  · rename_i he
    exact List.Nodup.append h (List.nodup_singleton _) (by simpa using he)

theorem nodup_foldl_putDirective (es : List (String × Directive)) {fs : List (String × Directive)}
    (h : (fs.map Prod.fst).Nodup) : ((es.foldl putDirective fs).map Prod.fst).Nodup := by
  induction es generalizing fs with
  | nil => exact h
  | cons e es ih => exact ih (nodup_putDirective h e)

theorem barring_ok {α : Type} {findings : List Finding} {a b : α}
    (h : barring findings a = .ok b) : findings = [] ∧ a = b := by
  unfold barring at h
  split at h
  · rename_i hf
    cases h
    exact ⟨by simpa using hf, rfl⟩
  · cases h

theorem checkOverrides_nodup {o : Option (String × Value)} {fs : List (String × Directive)}
    (h : checkOverrides o = .ok fs) : (fs.map Prod.fst).Nodup := by
  unfold checkOverrides at h
  split at h
  · cases h
    exact List.nodup_nil
  · unfold checkEntries at h
    split at h
    · cases h
    · obtain ⟨-, rfl⟩ := barring_ok h
      exact nodup_foldl_putDirective _ List.nodup_nil
  · cases h

/-! ## Requests -/

theorem Validated.valid {fields : Fields} {r : Request} (h : Validated fields r) : r.Valid where
  name := checkName_ne h.name
  hosts := (checkHosts_ok h.hosts).1
  entries := (checkHosts_ok h.hosts).2
  users := checkSubjectList_nodup h.users
  groups := checkSubjectList_nodup h.groups
  somebody := h.somebody
  directives := checkOverrides_nodup h.overrides

/-- **A built request is valid**, whatever its arguments were. -/
theorem valid_of_build {route : Route} {arguments : Mapping} {label : Option String} {r : Request}
    (h : build route arguments label = .ok r) : r.Valid := by
  obtain ⟨fields, -, hv⟩ := validate_of_build h
  exact (validate_ok_iff.1 hv).valid

end AccessPlan.Request
