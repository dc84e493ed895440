import AccessPlan.Proofs.Accepting
import AccessPlan.Proofs.Rules

/-!
# The empty name among those who are allowed

A host may not be the empty text, but a user or a group may: a field that is the empty text, or that lists it
among others, allows the empty name. Whether it is allowed can be read off the fields (`Request.ListsEmpty`).

* `Request.mem_subjects_iff`: who is allowed by a built request is who its fields list.
* `Settings.compile_emptyNames`: a plan grants access to the empty name exactly if a field lists it, and never
  from the empty host.
-/

set_option autoImplicit false

namespace AccessPlan

/-- The field that lists the subjects of a kind. -/
def SubjectKind.field : SubjectKind → String
  | .user => "users"
  | .group => "groups"

namespace Request

/-! ## Who is listed -/

/-- The field for a kind of subject lists the empty text. -/
def ListsEmpty (fields : Fields) (kind : SubjectKind) : Prop :=
  ∃ names, SubjectsOf (fields.lookup kind.field) names ∧ "" ∈ names

variable {route : Route} {fields : Fields} {label : Option String} {r : Request}

theorem isFormOf_of_build (h : build route (argumentsOf fields) label = .ok r) : r.IsFormOf fields := by
  obtain ⟨fs, hf, hv⟩ := validate_of_build h
  rw [fieldsOf_argumentsOf] at hf
  split at hf
  · cases hf
  · cases hf
    exact validated_iff.1 (validate_ok_iff.1 hv)

theorem SubjectsOf.unique {o : Option Value} {ss ts : List String} (h : SubjectsOf o ss)
    (h' : SubjectsOf o ts) : ss = ts := by
  cases o with
  | none =>
    cases h
    cases h'
    rfl
  | some v =>
    have hs := (checkTexts_asSequence_iff []).2 h
    exact Except.ok.inj (hs.symm.trans ((checkTexts_asSequence_iff []).2 h'))

theorem IsFormOf.subjects (h : r.IsFormOf fields) (kind : SubjectKind) :
    ∃ names, SubjectsOf (fields.lookup kind.field) names ∧ r.subjects kind = names.eraseDups := by
  cases kind with
  | user => exact h.users
  | group => exact h.groups

/-- **Who is allowed** by a built request is who its fields list. -/
theorem mem_subjects_iff (h : build route (argumentsOf fields) label = .ok r) {kind : SubjectKind}
    {name : String} : name ∈ r.subjects kind ↔
      ∃ names, SubjectsOf (fields.lookup kind.field) names ∧ name ∈ names := by
  obtain ⟨names, hn, hs⟩ := (isFormOf_of_build h).subjects kind
  rw [hs, List.mem_eraseDups]
  constructor
  · exact fun hname => ⟨names, hn, hname⟩
  · rintro ⟨names', hn', hname⟩
    rwa [hn.unique hn']

end Request

/-! ## Who is granted access -/

theorem Plan.mem_grantees {p : Plan} {kind : SubjectKind} {v : Value} : v ∈ p.grantees kind ↔
    ∃ origin permission position, .pamAllow kind v origin permission position ∈ p := by
  unfold Plan.grantees
  rw [List.mem_filterMap]
  constructor
  · rintro ⟨op, hop, hv⟩
    cases op with
    | pamAllow k subject origin permission position =>
      rw [Operation.grantee?] at hv
      split at hv
      · next hk =>
        cases hv
        cases hk
        exact ⟨_, _, _, hop⟩
      · cases hv
    | _ => cases hv
  · rintro ⟨origin, permission, position, hop⟩
    exact ⟨_, hop, if_pos rfl⟩

/-- **Grants to the empty name**: all grants of a plan of a built request are to texts from hosts that are not
empty, and there is one to the empty text of a kind exactly if the field for that kind lists it. Where neither
field does, somebody who is not empty is allowed. -/
theorem Settings.compile_emptyNames {route : Request.Route} {fields : Request.Fields}
    {label : Option String} {r : Request}
    (hr : Request.build route (Request.argumentsOf fields) label = .ok r) :
    ((∀ kind, ¬ Request.ListsEmpty fields kind) → ∃ kind, ∃ name ∈ r.subjects kind, name ≠ "") ∧
    ∀ {s : Settings} {source : DomainSource} {existing : Value} {p : Plan},
      (s.compile r.draft source existing).result = .ok p →
      (∀ {kind subject origin permission position},
        .pamAllow kind subject origin permission position ∈ p →
        ∃ name host, subject = .text name ∧ origin = .text host ∧ host ≠ "" ∧
          (name = "" → Request.ListsEmpty fields kind)) ∧
      ∀ {kind}, Request.ListsEmpty fields kind →
        ∃ origin permission position, .pamAllow kind (.text "") origin permission position ∈ p := by
  have hv := Request.valid_of_build hr
  refine ⟨fun hn => ?_, fun {s source existing p} h => ?_⟩
  · obtain ⟨kind, hne⟩ := hv.exists_subjects
    obtain ⟨name, hname⟩ := List.exists_mem_of_ne_nil _ hne
    refine ⟨kind, name, hname, ?_⟩
    rintro rfl
    exact hn kind ((Request.mem_subjects_iff hr).1 hname)
  · obtain ⟨-, catalogue, x, known, -, hx, -, rfl⟩ := compile_ok_iff.1 h
    refine ⟨fun {kind subject origin permission position} hop => ?_, fun {kind} he => ?_⟩
    · cases hx.rule hop with
      | @grant _ name host hs hh =>
        refine ⟨name, host, rfl, rfl, fun he => hv.entries (he ▸ hh), ?_⟩
        rintro rfl
        exact (Request.mem_subjects_iff hr).1 hs
    · rw [← Plan.mem_grantees, hx.mem_grantees_plan hv]
      exact ⟨"", (Request.mem_subjects_iff hr).2 he, rfl⟩

/-- A user next to the empty one, and a group as a bare text. -/
def mixedFields : Request.Fields :=
  [("hostlist", .list [.text "a"]), ("users", .list [.text "", .text "u"]), ("groups", .text "g")]

/-- The request that they make. -/
def mixed : Request := ⟨"sshd", ["a"], ["", "u"], ["g"], []⟩

/-- The empty user is granted access, and no empty group. -/
theorem compile_mixed_emptyNames :
    Request.build .builder (Request.argumentsOf mixedFields) none = .ok mixed ∧
    ∃ p, ((Settings.ofTree []).compile mixed.draft (.given .null) (.list [])).result = .ok p ∧
      (∃ origin permission position, .pamAllow .user (.text "") origin permission position ∈ p) ∧
      ∀ origin permission position, .pamAllow .group (.text "") origin permission position ∉ p := by
  have hr : Request.build .builder (Request.argumentsOf mixedFields) none = .ok mixed := by decide
  obtain ⟨p, h⟩ : ∃ p, ((Settings.ofTree []).compile mixed.draft (.given .null)
      (.list [])).result = .ok p := Outcome.exists_ok (by cbv)
  obtain ⟨hnamed, hempty⟩ := (Settings.compile_emptyNames hr).2 h
  have hlisted : "" ∈ mixed.subjects .user := by decide
  refine ⟨hr, p, h, hempty ((Request.mem_subjects_iff hr).1 hlisted), ?_⟩
  intro origin permission position hop
  obtain ⟨name, host, hname, -, -, he⟩ := hnamed hop
  have hlisted := (Request.mem_subjects_iff hr).2 (he (Value.text.inj hname).symm)
  exact absurd hlisted (by decide)

/-- A host, and the empty text for users. -/
def bareFields : Request.Fields := [("hostlist", .text "a"), ("users", .text "")]

/-- The request that they make. -/
def bare : Request := ⟨"sshd", ["a"], [""], [], []⟩

/-- It allows the empty name and nobody else, and its plan grants it access. -/
theorem compile_bare_granted :
    Request.build .builder (Request.argumentsOf bareFields) none = .ok bare ∧
    (¬ ∃ kind, ∃ name ∈ bare.subjects kind, name ≠ "") ∧
    ∃ p, ((Settings.ofTree []).compile bare.draft (.given .null) (.list [])).result = .ok p ∧
      ∃ origin permission position, .pamAllow .user (.text "") origin permission position ∈ p := by
  have hr : Request.build .builder (Request.argumentsOf bareFields) none = .ok bare := by decide
  obtain ⟨p, h⟩ : ∃ p, ((Settings.ofTree []).compile bare.draft (.given .null)
      (.list [])).result = .ok p := Outcome.exists_ok (by cbv)
  obtain ⟨-, catalogue, x, known, -, hx, -, hp⟩ := Settings.compile_ok_iff.1 h
  have hv := Request.valid_of_build hr
  refine ⟨hr, ?_, p, h, ?_⟩
  · rintro ⟨_ | _, name, hname, hne⟩
    · exact hne (List.mem_singleton.1 hname)
    · cases hname
  · rw [← Plan.mem_grantees, hp, hx.mem_grantees_plan hv]
    exact ⟨"", List.mem_singleton_self "", rfl⟩

end AccessPlan
