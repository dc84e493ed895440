import AccessPlan.Proofs.Blocks
import AccessPlan.Proofs.Grammar
import AccessPlan.Proofs.Places
import Mathlib.Data.List.Induction

/-!
# Directives of requests

The check of a mapping of directives against the grammar. It first puts numbers and truth values into words
and then checks key by key; here both are one relation from a value to its directive.

* `Request.exists_checkDirective_iff`: the values that stand for directives.
* `Request.checkEntries_iff`: the mapping passes exactly if every entry stands for a directive under a name.
* `Request.lastWins_foldl`, `Request.LastWins.eq_foldl`: the entries are then written with the last value of
  a name in its first place, and that determines them.
-/

set_option autoImplicit false

namespace AccessPlan

/-! ## Findings -/

/-- Where every error says something, no findings at all mean that everything passed. -/
theorem Checked.all_ok_iff {α : Type} {xs : List (Checked α)} {as : List α} (hne : .error [] ∉ xs) :
    xs.flatMap Checked.findings = [] ∧ xs.filterMap Except.toOption = as ↔ xs = as.map .ok := by
  induction xs generalizing as with
  | nil => simp [eq_comm]
  | cons x xs ih =>
    rw [List.mem_cons, not_or] at hne
    obtain ⟨hx, hne⟩ := hne
    cases x with
    | error fs =>
      have hfs : fs ≠ [] := fun h => hx (congrArg _ h.symm)
      cases as <;> simp [Checked.findings, hfs]
    | ok a =>
      cases as with
      | nil => simp [Except.toOption]
      | cons b bs =>
        simp only [List.flatMap_cons, Checked.findings, List.nil_append, List.filterMap_cons,
          Except.toOption, List.map_cons, List.cons.injEq, Except.ok.injEq, ← ih hne]
        tauto

/-! ## Directives -/

namespace Directives

theorem normalizeAll?_iff {vs ws : List Value} :
    normalizeAll? vs = some ws ↔ List.Forall₂ (fun v w => normalize? v = some w) vs ws := by
  induction vs generalizing ws with
  | nil => simp [normalizeAll?, eq_comm]
  | cons v vs ih =>
    simp only [List.forall₂_cons_left_iff, ← ih, normalizeAll?]
    cases normalize? v with
    | none => simp
    | some w =>
      cases normalizeAll? vs with
      | none => simp
      | some ws' => simp [eq_comm]

theorem literal?_int_iff {i : Int} {s : String} :
    Value.literal? (.int i) = some s ↔
      i.natAbs < Nat.pow 10 Numeral.maxDigits ∧ s = toString i := by
  have hl : Value.literal? (.int i) =
      if Nat.pow 10 Numeral.maxDigits ≤ i.natAbs then none else some (toString i) := by
    simp only [Value.literal?, Value.holdsLongInteger, Value.literal, decide_eq_true_eq]
  rw [hl]
  split
  · rename_i hi
    exact ⟨nofun, fun h => absurd h.1 (Nat.not_lt.2 hi)⟩
  · rename_i hi
    rw [Option.some_inj, eq_comm, and_iff_right (Nat.not_le.1 hi)]

/-- A mapping inside itself is left as it is. -/
@[simp] theorem normalize?_loop_iff {kind : LoopKind} {w : Value} :
    normalize? (.loop kind) = some w ↔ kind = .map ∧ w = .loop .map := by
  cases kind <;> simp [normalize?, eq_comm]

/-- What is normalized to a text is a word. -/
theorem exists_normalize?_iff {v : Value} {s : String} :
    (∃ w, normalize? v = some w ∧ w.Spells s) ↔ v.IsWord s := by
  constructor
  · rintro ⟨w, hw, hs⟩
    cases v with
    | bool b =>
      cases hw
      cases b with
      | false => cases hs; exact .no
      | true => cases hs; exact .yes
    | int i =>
      rw [normalize?, Option.map_eq_some_iff] at hw
      obtain ⟨t, ht, rfl⟩ := hw
      cases hs
      obtain ⟨hi, rfl⟩ := literal?_int_iff.1 ht
      exact .int i hi
    | float x =>
      cases hw
      cases hs
      exact .float x
    | list items | tuple items =>
      rw [normalize?, Option.map_eq_some_iff] at hw
      obtain ⟨ws, -, rfl⟩ := hw
      cases hs
    | loop kind =>
      obtain ⟨-, rfl⟩ := normalize?_loop_iff.1 hw
      cases hs
    | _ =>
      cases hw
      exact .text hs
  · intro h
    cases h with
    | text hs =>
      refine ⟨v, ?_, hs⟩
      cases hs <;> rfl
    | yes | no | float => exact ⟨_, rfl, .text _⟩
    | int i hi =>
      refine ⟨.text (toString i), ?_, .text _⟩
      rw [normalize?, literal?_int_iff.2 ⟨hi, rfl⟩]
      rfl

theorem exists_normalizeAll?_iff {vs : List Value} {ss : List String} :
    (∃ ws, normalizeAll? vs = some ws ∧ List.Forall₂ Value.Spells ws ss) ↔
      List.Forall₂ Value.IsWord vs ss := by
  have hword : Relation.Comp (fun v w => normalize? v = some w) Value.Spells = Value.IsWord := by
    funext v s
    exact propext exists_normalize?_iff
  simp only [normalizeAll?_iff, forall₂_comp_iff, hword]

end Directives

namespace Request

/-- A directive is a text, or else a sequence of texts. -/
theorem checkDirective_iff {place : List Step} {w : Value} {d : Directive} :
    checkDirective place w = .ok d ↔
      (∃ s, w.Spells s ∧ d = .word s) ∨
      ∃ vs ss, w.Lists vs ∧ List.Forall₂ Value.Spells vs ss ∧ d = .words ss := by
  constructor
  · intro h
    simp only [checkDirective] at h
    split at h
    · rename_i s hs
      cases h
      exact .inl ⟨s, Value.spells_iff.2 hs, rfl⟩
    · split at h
      · rename_i ss ht
        cases h
        obtain ⟨vs, hv, hs⟩ := checkTexts_iff.1 ht
        exact .inr ⟨vs, ss, hv, hs, rfl⟩
      · cases h
  · rintro (⟨s, hs, rfl⟩ | ⟨vs, ss, hv, hs, rfl⟩)
    · simp only [checkDirective, Value.spells_iff.1 hs]
    · have hw : w.content = .error .notText := by cases hv <;> rfl
      simp only [checkDirective, hw, checkTexts_iff.2 ⟨vs, hv, hs⟩]

theorem exists_checkDirective_iff (place : List Step) {v : Value} {d : Directive} :
    (∃ w, Directives.normalize? v = some w ∧ checkDirective place w = .ok d) ↔
      v.IsDirective d := by
  simp only [checkDirective_iff]
  constructor
  · rintro ⟨w, hw, ⟨s, hs, rfl⟩ | ⟨vs, ss, hv, hs, rfl⟩⟩
    · exact .word (Directives.exists_normalize?_iff.1 ⟨w, hw, hs⟩)
    · cases v with
      | list items =>
        obtain ⟨ws, hws, rfl⟩ := Option.map_eq_some_iff.1 hw
        cases hv
        exact .list (Directives.exists_normalizeAll?_iff.1 ⟨_, hws, hs⟩)
      | tuple items =>
        obtain ⟨ws, hws, rfl⟩ := Option.map_eq_some_iff.1 hw
        cases hv
        exact .tuple (Directives.exists_normalizeAll?_iff.1 ⟨_, hws, hs⟩)
      | set items =>
        cases hw
        cases hv
        exact .set hs
      | int i =>
        rw [Directives.normalize?, Option.map_eq_some_iff] at hw
        obtain ⟨t, -, rfl⟩ := hw
        cases hv
      | loop kind =>
        obtain ⟨-, rfl⟩ := Directives.normalize?_loop_iff.1 hw
        cases hv
      | _ =>
        cases hw
        cases hv
  · intro h
    cases h with
    | word h =>
      obtain ⟨w, hw, hs⟩ := Directives.exists_normalize?_iff.2 h
      exact ⟨w, hw, .inl ⟨_, hs, rfl⟩⟩
    | list h | tuple h =>
      obtain ⟨ws, hw, hs⟩ := Directives.exists_normalizeAll?_iff.2 h
      exact ⟨.list ws, congrArg (Option.map _) hw, .inr ⟨ws, _, .list ws, hs, rfl⟩⟩
    | set h => exact ⟨.set _, rfl, .inr ⟨_, _, .set _, h, rfl⟩⟩

theorem checkEntry_iff {place : List Step} {e : Value × Value} {f : String × Directive} :
    checkEntry place e = .ok f ↔
      e.1.Spells f.1 ∧ checkDirective (place ++ [e.1.step]) e.2 = .ok f.2 := by
  rw [Value.spells_iff]
  simp only [checkEntry]
  cases e.1.content with
  | error r => simp
  | ok k =>
    cases checkDirective (place ++ [e.1.step]) e.2 with
    | error fs => simp
    | ok d => simp [Prod.ext_iff]

/-- Each entry becomes a directive under a name; of equal names the last one counts. -/
theorem checkEntries_iff {place : List Step} {m : Mapping} {fs : List (String × Directive)} :
    checkEntries place m = .ok fs ↔
      ∃ es, List.Forall₂ IsEntry m es ∧ fs = es.foldl putDirective [] := by
  -- both walks over the entries are one relation, entry by entry
  have hentry : Relation.Comp
      (fun e n => ((Directives.normalize? e.2).map fun v => (e.1, v)) = some n)
      (fun n f => checkEntry place n = .ok f) = IsEntry := by
    funext e f
    simp only [Relation.Comp, IsEntry, checkEntry_iff, Option.map_eq_some_iff, eq_iff_iff,
      ← exists_checkDirective_iff (place ++ [e.1.step])]
    constructor
    · rintro ⟨_, ⟨w, hw, rfl⟩, hs, hd⟩
      exact ⟨hs, w, hw, hd⟩
    · rintro ⟨hs, w, hw, hd⟩
      exact ⟨_, ⟨w, hw, rfl⟩, hs, hd⟩
  have hall {ns : Mapping} {es : List (String × Directive)} :
      (ns.map (checkEntry place)).flatMap Checked.findings = [] ∧
        (ns.map (checkEntry place)).filterMap Except.toOption = es ↔
      List.Forall₂ (fun n f => checkEntry place n = .ok f) ns es := by
    rw [Checked.all_ok_iff, ← List.forall₂_eq_eq_eq, List.forall₂_map_left_iff,
      List.forall₂_map_right_iff]
    intro h
    obtain ⟨n, -, hn⟩ := List.mem_map.1 h
    exact (checkEntry_reportsAt place n).ne_nil hn
  rw [← hentry]
  simp only [← forall₂_comp_iff, ← mapM_some_iff, ← hall]
  unfold checkEntries
  cases m.mapM fun e => (Directives.normalize? e.2).map fun v => (e.1, v) with
  | none => simp
  | some ns =>
    constructor
    · intro h
      obtain ⟨hf, hs⟩ := barring_iff.1 h
      exact ⟨_, ⟨ns, rfl, hf, rfl⟩, hs.symm⟩
    · rintro ⟨es, ⟨_, hn, hf, hs⟩, rfl⟩
      cases hn
      exact barring_iff.2 ⟨hf, congrArg _ hs⟩

/-- Writing entries one after another keeps the first place and the last value of a name. -/
theorem lastWins_foldl (es : List (String × Directive)) :
    LastWins es (es.foldl putDirective []) := by
  -- from the right, for the fold writes the last entry over all that came before
  induction es using List.reverseRecOn with
  | nil => exact ⟨rfl, fun _ => rfl⟩
  | append_singleton es e ih =>
    rw [List.foldl_append]
    constructor
    · have hmem : e.1 ∈ (es.map Prod.fst).eraseDups ↔ e.1 ∈ es.map Prod.fst := List.mem_eraseDups
      simp only [List.foldl_cons, List.foldl_nil, map_fst_putDirective, ih.names, hmem,
        List.map_append, List.map_cons, List.map_nil, List.eraseDups_append, List.removeAll,
        List.filter_cons, List.filter_nil, List.elem_eq_mem]
      by_cases he : e.1 ∈ es.map Prod.fst <;> simp [he, List.eraseDups_cons]
    · intro name
      simp only [List.foldl_cons, List.foldl_nil, lookup_putDirective, ih.values,
        List.reverse_append, List.reverse_cons, List.reverse_nil, List.nil_append,
        List.cons_append, lookup_cons_ite]

theorem lookup_eq_none_iff {α : Type} {fs : List (String × α)} {name : String} :
    fs.lookup name = none ↔ name ∉ fs.map Prod.fst := by
  simp only [List.lookup_eq_none_iff, bne_iff_ne, List.mem_map, not_exists, not_and, ne_comm, ne_eq]

theorem lookup_eq_some_iff_mem {α : Type} {fs : List (String × α)} (hd : (fs.map Prod.fst).Nodup)
    {name : String} {a : α} : fs.lookup name = some a ↔ (name, a) ∈ fs := by
  induction fs with
  | nil => simp
  | cons f fs ih =>
    obtain ⟨n, b⟩ := f
    rw [List.map_cons, List.nodup_cons] at hd
    by_cases hn : name = n
    · subst hn
      have hmem : (name, a) ∉ fs := fun h => hd.1 (List.mem_map.2 ⟨_, h, rfl⟩)
      simp [hmem, eq_comm]
    · simp [List.lookup_cons, beq_false_of_ne hn, hn, ih hd.2]

/-- Lists that have the same distinct names in the same order, and the same value for each, are the same. -/
theorem eq_of_lookup {α : Type} {fs gs : List (String × α)} (hd : (fs.map Prod.fst).Nodup)
    (hn : fs.map Prod.fst = gs.map Prod.fst) (hv : ∀ name, fs.lookup name = gs.lookup name) :
    fs = gs := by
  induction fs generalizing gs with
  | nil => exact (List.map_eq_nil_iff.1 hn.symm).symm
  | cons f fs ih =>
    cases gs with
    | nil => cases hn
    | cons g gs =>
      obtain ⟨hfg, hn⟩ := List.cons.inj hn
      obtain ⟨hf, hd⟩ := List.nodup_cons.1 hd
      have hhead := hv f.1
      rw [lookup_cons_ite, lookup_cons_ite, if_pos rfl, if_pos hfg] at hhead
      have htail : fs = gs := by
        refine ih hd hn fun name => ?_
        by_cases h : name = f.1
        · subst h
          rw [lookup_eq_none_iff.2 hf, lookup_eq_none_iff.2 (hn ▸ hf)]
        · have := hv name
          rwa [lookup_cons_ite, lookup_cons_ite, if_neg h, if_neg (hfg ▸ h)] at this
      rw [Prod.ext hfg (Option.some.inj hhead), htail]

theorem LastWins.eq_foldl {es fs : List (String × Directive)} (h : LastWins es fs) :
    fs = es.foldl putDirective [] := by
  have hl := lastWins_foldl es
  have hn := h.names.trans hl.names.symm
  have hd : ((es.foldl putDirective []).map Prod.fst).Nodup :=
    nodup_foldl_putDirective es List.nodup_nil
  exact eq_of_lookup (hn ▸ hd) hn fun name => (h.values name).trans (hl.values name).symm

end Request

end AccessPlan
