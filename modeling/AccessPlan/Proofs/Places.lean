import AccessPlan.Request.Validation
import Mathlib.Data.List.Infix

/-!
# Where checks report

A check of a field that fails says why, and everything it says is about the field: the places of its findings
begin with the place that it was handed.

* `Checked.ReportsAt`: what every check of a field keeps to.
* `Request.checkOverrides_reportsAt` and the lemmas before it: that it does, check by check.
-/

set_option autoImplicit false

namespace AccessPlan

/-- What fails says why, and all that it says is at a place. -/
structure Checked.ReportsAt {α : Type} (place : List Step) (c : Checked α) : Prop where
  ne_nil : c ≠ .error []
  under : ∀ f ∈ c.findings, place <+: f.place

namespace Checked

variable {α β : Type} {place : List Step} {c : Checked α}

/-- Where every error says something, no findings mean that there is a result. -/
theorem ReportsAt.findings_eq_nil_iff (h : c.ReportsAt place) : c.findings = [] ↔ ∃ a, c = .ok a := by
  cases c with
  | ok a => simp [findings]
  | error fs =>
    have hfs : fs ≠ [] := fun hnil => h.ne_nil (congrArg _ hnil)
    simp [findings, hfs]

theorem reportsAt_ok (a : α) : ReportsAt place (.ok a : Checked α) :=
  ⟨nofun, nofun⟩

theorem reportsAt_error {fs : List Finding} (hne : fs ≠ []) (h : ∀ f ∈ fs, place <+: f.place) :
    ReportsAt place (.error fs : Checked α) :=
  ⟨fun he => hne (Except.error.inj he), h⟩

theorem reportsAt_one {f : Finding} (h : place <+: f.place) :
    ReportsAt place (.error [f] : Checked α) :=
  reportsAt_error (List.cons_ne_nil _ _) (by simpa using h)

theorem ReportsAt.map (h : c.ReportsAt place) (g : α → β) : (g <$> c).ReportsAt place := by
  cases c with
  | ok a => exact reportsAt_ok (g a)
  | error fs => exact reportsAt_error (fun hfs => h.ne_nil (congrArg _ hfs)) h.under

theorem ReportsAt.of_append {more : List Step} (h : c.ReportsAt (place ++ more)) : c.ReportsAt place :=
  ⟨h.ne_nil, fun f hf => (List.prefix_append place more).trans (h.under f hf)⟩

theorem reportsAt_barring {fs : List Finding} (h : ∀ f ∈ fs, place <+: f.place) (a : α) :
    (Request.barring fs a).ReportsAt place := by
  unfold Request.barring
  split
  · exact reportsAt_ok a
  · rename_i hne
    exact reportsAt_error (by simpa using hne) h

end Checked

namespace Request

open Checked

theorem prefix_of_mem_checkItems {place : List Step} {n : Nat} {vs : List Value} {f : Finding}
    (h : f ∈ (checkItems place n vs).2) : place <+: f.place := by
  induction vs generalizing n with
  | nil => cases h
  | cons v vs ih =>
    cases hv : v.content with
    | ok s =>
      simp only [checkItems, hv] at h
      exact ih h
    | error r =>
      simp only [checkItems, hv] at h
      rcases List.mem_cons.1 h with rfl | h
      · exact List.prefix_append _ _
      · exact ih h

theorem checkTexts_reportsAt (place : List Step) (v : Value) : (checkTexts place v).ReportsAt place := by
  unfold checkTexts
  split
  · exact reportsAt_one (List.prefix_refl _)
  · exact reportsAt_barring (fun f hf => prefix_of_mem_checkItems hf) _

/-! ## Fields -/

theorem checkName_reportsAt (o : Option Value) : (checkName o).ReportsAt [.name "name"] := by
  unfold checkName
  split
  · exact reportsAt_ok _
  · split
    · split
      · exact reportsAt_one (List.prefix_refl _)
      · exact reportsAt_ok _
    · exact reportsAt_one (List.prefix_refl _)

theorem checkHosts_reportsAt (o : Option Value) : (checkHosts o).ReportsAt [.name "hostlist"] := by
  unfold checkHosts
  split
  · exact reportsAt_one (List.prefix_refl _)
  · dsimp only
    split
    · exact reportsAt_one (List.prefix_refl _)
    · split
      · split
        · exact reportsAt_one (List.prefix_refl _)
        · exact reportsAt_ok _
      · rename_i hne
        refine reportsAt_error hne fun f hf => ?_
        rcases List.mem_append.1 hf with hf | hf
        · exact prefix_of_mem_checkItems hf
        · split at hf
          · cases List.mem_singleton.1 hf
            exact List.prefix_refl _
          · cases hf

theorem checkSubjectList_reportsAt (name : String) (o : Option Value) :
    (checkSubjectList name o).ReportsAt [.name name] := by
  cases o with
  | none => exact reportsAt_ok _
  | some v => exact (checkTexts_reportsAt _ _).map _

/-! ## Directives -/

theorem checkDirective_reportsAt (place : List Step) (v : Value) :
    (checkDirective place v).ReportsAt place := by
  unfold checkDirective
  split
  · exact reportsAt_ok _
  · have htexts := (checkTexts_reportsAt (place ++ [.name "tuple[str, ...]"]) v).of_append
    split
    · exact reportsAt_ok _
    · rename_i he
      rw [he] at htexts
      refine reportsAt_error (List.cons_ne_nil _ _) fun f hf => ?_
      rcases List.mem_cons.1 hf with rfl | hf
      · exact List.prefix_append _ _
      · exact htexts.under f hf

theorem checkEntry_reportsAt (place : List Step) (e : Value × Value) :
    (checkEntry place e).ReportsAt place := by
  have hvalue := (checkDirective_reportsAt (place ++ [e.1.step]) e.2).of_append
  unfold checkEntry
  dsimp only
  split
  · exact reportsAt_ok _
  · rename_i he
    rw [he] at hvalue
    exact reportsAt_error (fun hfs => hvalue.ne_nil (congrArg _ hfs)) hvalue.under
  · refine reportsAt_error (List.cons_ne_nil _ _) fun f hf => ?_
    rcases List.mem_cons.1 hf with rfl | hf
    · simp only [List.append_assoc]
      exact List.prefix_append _ _
    · exact hvalue.under f hf

theorem checkEntries_reportsAt (place : List Step) (m : Mapping) :
    (checkEntries place m).ReportsAt place := by
  unfold checkEntries
  split
  · exact reportsAt_one (List.prefix_refl _)
  · refine reportsAt_barring (fun f hf => ?_) _
    obtain ⟨c, hc, hf⟩ := List.mem_flatMap.1 hf
    obtain ⟨e, -, rfl⟩ := List.mem_map.1 hc
    exact (checkEntry_reportsAt place e).under f hf

theorem checkOverrides_reportsAt {o : Option (String × Value)} {name : String}
    (h : ∀ e, o = some e → e.1 = name) : (checkOverrides o).ReportsAt [.name name] := by
  cases o with
  | none => exact reportsAt_ok _
  | some e =>
    obtain ⟨n, v⟩ := e
    have hn : n = name := h (n, v) rfl
    subst hn
    cases v with
    | map m => exact checkEntries_reportsAt _ m
    | _ => exact reportsAt_one (List.prefix_refl _)

end Request

end AccessPlan
