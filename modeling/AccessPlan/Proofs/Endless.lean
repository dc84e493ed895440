import AccessPlan.Proofs.Overrides

/-!
# Directives without an end

A list may hold itself, and such a list is never put into words: going through its items leads back to it. What
comes first decides, for an integer that is too long ends the walk.

* `Directives.isEndless_iff`: the values that are never put into words, `Value.Endless`.
* `Request.isEndless_iff`: the fields whose directives are not.
* `Request.not_isEndless_of_validate`, `Request.build_ok_iff`: no request is built from them.
-/

set_option autoImplicit false

namespace AccessPlan

/-! ## Values -/

/-- A value that is never put into words: it is a list inside itself, or a sequence that holds such a value
after nothing but what can be put into words. -/
inductive Value.Endless : Value → Prop
  | loop : Endless (.loop .list)
  | list {before after : List Value} {v : Value} :
    (∀ u ∈ before, ∃ w, Directives.normalize? u = some w) → Endless v →
    Endless (.list (before ++ v :: after))
  | tuple {before after : List Value} {v : Value} :
    (∀ u ∈ before, ∃ w, Directives.normalize? u = some w) → Endless v →
    Endless (.tuple (before ++ v :: after))

/-- A mapping of directives that are never put into words: those before the first that cannot be are. -/
def Mapping.Endless (m : Mapping) : Prop :=
  ∃ before e after, m = before ++ e :: after ∧
    (∀ b ∈ before, ∃ w, Directives.normalize? b.2 = some w) ∧ e.2.Endless

namespace Directives

theorem anyEndless_append_cons {before after : List Value} {v : Value}
    (hb : ∀ u ∈ before, ∃ w, normalize? u = some w) (hv : isEndless v = true) :
    anyEndless (before ++ v :: after) = true := by
  induction before with
  | nil =>
    rw [List.nil_append, anyEndless, hv]
    rfl
  | cons u before ih =>
    obtain ⟨⟨w, hw⟩, hb⟩ := List.forall_mem_cons.1 hb
    rw [List.cons_append, anyEndless, hw, ih hb]
    simp

mutual

theorem endless_of_isEndless : ∀ {v : Value}, isEndless v = true → v.Endless
  | .loop .list, _ => .loop
  | .list vs, h => by
    obtain ⟨before, v, after, rfl, hb, hv⟩ := exists_of_anyEndless h
    exact .list hb hv
  | .tuple vs, h => by
    obtain ⟨before, v, after, rfl, hb, hv⟩ := exists_of_anyEndless h
    exact .tuple hb hv

theorem exists_of_anyEndless : ∀ {vs : List Value}, anyEndless vs = true →
    ∃ before v after, vs = before ++ v :: after ∧ (∀ u ∈ before, ∃ w, normalize? u = some w) ∧ v.Endless
  | [], h => nomatch h
  | v :: vs, h => by
    rw [anyEndless, Bool.or_eq_true, Bool.and_eq_true] at h
    obtain hv | ⟨hw, hvs⟩ := h
    · exact ⟨[], v, vs, rfl, nofun, endless_of_isEndless hv⟩
    · obtain ⟨before, u, after, rfl, hb, hu⟩ := exists_of_anyEndless hvs
      exact ⟨v :: before, u, after, rfl, List.forall_mem_cons.2 ⟨Option.isSome_iff_exists.1 hw, hb⟩, hu⟩

end

/-- **The values that are never put into words.** -/
theorem isEndless_iff {v : Value} : isEndless v = true ↔ v.Endless := by
  refine ⟨endless_of_isEndless, fun h => ?_⟩
  induction h with
  | loop => rfl
  | list hb _ ih | tuple hb _ ih => exact anyEndless_append_cons hb ih

theorem anyEndless_iff {vs : List Value} : anyEndless vs = true ↔
    ∃ before v after, vs = before ++ v :: after ∧ (∀ u ∈ before, ∃ w, normalize? u = some w) ∧ v.Endless := by
  refine ⟨exists_of_anyEndless, ?_⟩
  rintro ⟨before, v, after, rfl, hb, hv⟩
  exact anyEndless_append_cons hb (isEndless_iff.2 hv)

/-- There are no words for what never ends. -/
theorem normalize?_eq_none_of_endless {v : Value} (h : v.Endless) : normalize? v = none := by
  have hall {before after : List Value} {u : Value} (hu : normalize? u = none) :
      normalizeAll? (before ++ u :: after) = none := by
    rw [Option.eq_none_iff_forall_ne_some]
    intro ws hws
    obtain ⟨w, hw⟩ := exists_forall₂_iff.1 ⟨ws, normalizeAll?_iff.1 hws⟩ u (by simp)
    cases hu.symm.trans hw
  induction h with
  | loop => rfl
  | list _ _ ih | tuple _ _ ih => rw [normalize?, hall ih, Option.map_none]

theorem anyEndless_map_snd_iff {m : Mapping} : anyEndless (m.map Prod.snd) = true ↔ m.Endless := by
  rw [anyEndless_iff]
  constructor
  · rintro ⟨before, v, after, hm, hb, hv⟩
    obtain ⟨before, rest, rfl, rfl, hrest⟩ := List.map_eq_append_iff.1 hm
    obtain ⟨e, after, rfl, rfl, -⟩ := List.map_eq_cons_iff.1 hrest
    exact ⟨before, e, after, rfl, fun b hb' => hb b.2 (List.mem_map_of_mem hb'), hv⟩
  · rintro ⟨before, e, after, rfl, hb, he⟩
    refine ⟨before.map Prod.snd, e.2, after.map Prod.snd, by simp, ?_, he⟩
    exact List.forall_mem_map.2 hb

end Directives

/-! ## Requests -/

namespace Request

variable {fields : Fields} {r : Request}

/-- **The fields whose directives are never put into words.** -/
theorem isEndless_iff :
    isEndless fields = true ↔ ∃ name m, overridesOf fields = some (name, .map m) ∧ Mapping.Endless m := by
  unfold isEndless
  split
  · next name m ho =>
    rw [Directives.anyEndless_map_snd_iff]
    constructor
    · exact fun hm => ⟨name, m, ho, hm⟩
    · rintro ⟨name', m', ho', hm⟩
      cases ho.symm.trans ho'
      exact hm
  · next hne =>
    refine ⟨nofun, ?_⟩
    rintro ⟨name, m, ho, -⟩
    exact absurd ho (hne name m)

/-- Directives that stand for entries come to an end. -/
theorem not_endless_of_isEntry {m : Mapping} {es : List (String × Directive)}
    (h : List.Forall₂ IsEntry m es) : ¬ m.Endless := by
  rintro ⟨before, e, after, rfl, -, he⟩
  obtain ⟨f, -, hf⟩ := exists_forall₂_iff.1 ⟨es, h⟩ e (by simp)
  obtain ⟨w, hw, -⟩ := (exists_checkDirective_iff []).2 hf
  cases (Directives.normalize?_eq_none_of_endless he).symm.trans hw

theorem not_isEndless_of_validate (h : validate fields = .ok r) : isEndless fields = false := by
  rw [← Bool.not_eq_true, isEndless_iff]
  rintro ⟨name, m, ho, hm⟩
  have hc := (validate_ok_iff.1 h).overrides
  rw [ho, checkOverrides, checkEntries_iff] at hc
  obtain ⟨es, hes, -⟩ := hc
  exact not_endless_of_isEntry hes hm

/-- Building comes down to validation, once the names of the arguments are let through. -/
theorem build_ok_iff {route : Route} {arguments : Mapping} {label : Option String} :
    build route arguments label = .ok r ↔
      ∃ fields, fieldsOf route.reserved arguments = .ok fields ∧ validate fields = .ok r := by
  refine ⟨validate_of_build, ?_⟩
  rintro ⟨fields, hf, hv⟩
  rw [build, hf, Outcome.ok_bind, not_isEndless_of_validate hv, hv]
  rfl

end Request

end AccessPlan
