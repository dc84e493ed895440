import AccessPlan.Proofs.AllowLists
import AccessPlan.Proofs.Grammar
import AccessPlan.Proofs.Mappings
import Mathlib

/-!
# Allow lists over directives

Merging writes the allow lists over the directives of a request: a directive of the same name is replaced in
its place, and a new one comes last (`Directives.Precedence`). The Match blocks of a plan set what was merged,
in its order.

* `Directives.precedence_merged`: the result of merging.
* `Directives.Precedence.again`: merging once more changes nothing.
* `directives_precede`: both, and what the plans of built requests set.
-/

set_option autoImplicit false

namespace AccessPlan

open Mapping (getText? hasKey put keys StringKeyed)

/-- A value with a sequence as a list. -/
inductive Value.IsListed : Value → Value → Prop
  | tuple (vs : List Value) : IsListed (.tuple vs) (.list vs)
  | other {v : Value} : (∀ vs, v ≠ .tuple vs) → IsListed v v

/-- A value with a list as a tuple. -/
inductive Value.IsTupled : Value → Value → Prop
  | list (vs : List Value) : IsTupled (.list vs) (.tuple vs)
  | other {v : Value} : (∀ vs, v ≠ .list vs) → IsTupled v v

namespace Directives

/-- What an operation sets for an entry: the directive, with a list as a tuple. -/
def IsSetTo (e set : Value × Value) : Prop := set.1 = e.1 ∧ e.2.IsTupled set.2

/-- Directives `m` with the allow lists of users `us` and of groups `gs` written over them. -/
structure Precedence (m : Mapping) (us gs : List Value) (merged : Mapping) : Prop where
  users : us ≠ [] → getText? merged "AllowUsers" = some (.list us)
  groups : gs ≠ [] → getText? merged "AllowGroups" = some (.list gs)
  /-- A directive that is not written over is kept, and none is made up. -/
  own : ∀ key, (key = "AllowUsers" → us = []) → (key = "AllowGroups" → gs = []) →
    Option.Rel Value.IsListed (getText? m key) (getText? merged key)
  /-- A directive that is written over keeps its place, and the others come last. -/
  keys : keys merged = keys m ++
    (if us ≠ [] ∧ ¬ hasKey m (.text "AllowUsers") then [.text "AllowUsers"] else []) ++
    (if gs ≠ [] ∧ ¬ hasKey m (.text "AllowGroups") then [.text "AllowGroups"] else [])
  stringKeyed : StringKeyed merged

/-! ## Writing the allow lists -/

/-- A mapping with a list written at a directive, if it is not empty. -/
def written (directive : String) (vs : List Value) (m : Mapping) : Mapping :=
  if vs = [] then m else put m (.text directive) (.list vs)

/-- A mapping with its sequences as lists. -/
def listedAll (m : Mapping) : Mapping := m.map fun e => (e.1, listed e.2)

variable {m : Mapping} {us gs vs : List Value} {directive key : String}

theorem allow_lists {subjects : Value} (h : subjects.Lists vs) :
    allow directive subjects m = .ok (written directive vs m) := by
  unfold allow written
  cases h <;> by_cases hvs : vs = [] <;> simp [hvs, Value.isPresent] <;> rfl

theorem merge_lists {users groups : Value} (hu : users.Lists us) (hg : groups.Lists gs) :
    merge (.map m) users groups =
      .ok (written allowGroups gs (written allowUsers us (listedAll m))) := by
  show allow allowUsers users (listedAll m) >>= allow allowGroups groups = _
  rw [allow_lists hu, Outcome.ok_bind, allow_lists hg]

theorem isListed_listed (v : Value) : v.IsListed (listed v) := by
  cases v with
  | tuple vs => exact .tuple vs
  | _ => exact .other nofun

@[simp] theorem getText?_listedAll : getText? (listedAll m) key = (getText? m key).map listed := by
  simp [listedAll, getText?, Mapping.get?, List.find?_map, Function.comp_def, Option.map_map]

@[simp] theorem keys_listedAll : keys (listedAll m) = keys m := by simp [listedAll, keys, Function.comp_def]

theorem stringKeyed_listedAll (h : StringKeyed m) : StringKeyed (listedAll m) := by
  constructor <;> rw [keys_listedAll]
  exacts [h.texts, h.nodup]

@[simp] theorem hasKey_listedAll {k : Value} : hasKey (listedAll m) k = hasKey m k := by
  simp [listedAll, hasKey, Function.comp_def]

theorem getText?_written (h : vs ≠ []) : getText? (written directive vs m) directive = some (.list vs) := by
  rw [written, if_neg h, Mapping.getText?_put]

theorem getText?_written_of (h : key = directive → vs = []) :
    getText? (written directive vs m) key = getText? m key := by
  unfold written
  split
  · rfl
  · next hvs => exact Mapping.getText?_put_of_ne (fun he => hvs (h (Value.text.inj he).symm)) m _

theorem keys_written : keys (written directive vs m) =
    keys m ++ if vs ≠ [] ∧ ¬ hasKey m (.text directive) then [.text directive] else [] := by
  unfold written
  by_cases hvs : vs = []
  · simp [hvs]
  · by_cases hk : hasKey m (.text directive) <;> simp [hvs, hk, Mapping.keys_put]

theorem hasKey_written_of_ne {d : String} (h : d ≠ directive) :
    hasKey (written directive vs m) (.text d) = hasKey m (.text d) := by
  rw [Mapping.hasKey_eq, Mapping.hasKey_eq]
  exact congrArg _ (getText?_written_of fun he => absurd he h)

theorem stringKeyed_written (h : StringKeyed m) : StringKeyed (written directive vs m) := by
  unfold written
  split
  · exact h
  · exact h.put_text directive _

/-- **The result of merging.** -/
theorem precedence_merged (hm : StringKeyed m) :
    Precedence m us gs (written "AllowGroups" gs (written "AllowUsers" us (listedAll m))) where
  users h := by
    rw [getText?_written_of (by simp)]
    exact getText?_written h
  groups h := getText?_written h
  own key hu hg := by
    rw [getText?_written_of hg, getText?_written_of hu, getText?_listedAll]
    cases getText? m key with
    | none => exact .none
    | some v => exact .some (isListed_listed v)
  keys := by
    rw [keys_written, keys_written, hasKey_written_of_ne (by decide), keys_listedAll,
      hasKey_listedAll, hasKey_listedAll]
  stringKeyed := stringKeyed_written (stringKeyed_written (stringKeyed_listedAll hm))

/-! ## Merging once more -/

theorem isListed_again {v w w' : Value} (h : v.IsListed w) (h' : w.IsListed w') : w' = w := by
  cases h with
  | tuple vs =>
    cases h'
    rfl
  | other hv =>
    cases h' with
    | tuple vs => exact absurd rfl (hv vs)
    | other => rfl

theorem rel_isListed_again {a b c : Option Value} (h : Option.Rel Value.IsListed a b)
    (h' : Option.Rel Value.IsListed b c) : c = b := by
  cases h with
  | none =>
    cases h'
    rfl
  | some h =>
    cases h' with
    | some h' => rw [isListed_again h h']

/-- What merging leaves is left by merging once more. -/
theorem Precedence.again {a b : Mapping} (ha : Precedence m us gs a) (hb : Precedence a us gs b) :
    b = a := by
  refine Mapping.eq_of_getText? hb.stringKeyed ?_ fun key => ?_
  · have hu : us ≠ [] → hasKey a (.text "AllowUsers") := fun h => by
      rw [Mapping.hasKey_eq]
      exact Option.isSome_of_eq_some (ha.users h)
    have hg : gs ≠ [] → hasKey a (.text "AllowGroups") := fun h => by
      rw [Mapping.hasKey_eq]
      exact Option.isSome_of_eq_some (ha.groups h)
    rw [hb.keys]
    by_cases husers : us = [] <;> by_cases hgroups : gs = [] <;> simp [*]
  · by_cases hu : key = "AllowUsers" → us = []
    · by_cases hg : key = "AllowGroups" → gs = []
      · exact rel_isListed_again (ha.own key hu hg) (hb.own key hu hg)
      · obtain ⟨rfl, h⟩ := Classical.not_imp.1 hg
        rw [ha.groups h, hb.groups h]
    · obtain ⟨rfl, h⟩ := Classical.not_imp.1 hu
      rw [ha.users h, hb.users h]

end Directives

/-! ## The whole -/

theorem Directives.merge_precedes {m : Mapping} (hm : StringKeyed m) {users groups : Value}
    {us gs : List Value} (hu : users.Lists us) (hg : groups.Lists gs) :
    ∃ merged, merge (.map m) users groups = .ok merged ∧ Precedence m us gs merged ∧
      merge (.map merged) users groups = .ok merged := by
  have h := @precedence_merged m us gs hm
  refine ⟨_, merge_lists hu hg, h, ?_⟩
  rw [merge_lists hu hg]
  exact congrArg _ (h.again (precedence_merged h.stringKeyed))

theorem Request.Valid.stringKeyed_directives {r : Request} (hr : r.Valid) : StringKeyed r.directives := by
  have hkeys : keys r.directives = (r.overrides.map Prod.fst).map .text := by
    simp [keys, Request.directives, Function.comp_def]
  refine ⟨fun k hk => ?_, hkeys ▸ hr.directives.map fun _ _ => Value.text.inj⟩
  obtain ⟨s, -, rfl⟩ := List.mem_map.1 (hkeys ▸ hk)
  exact ⟨s, rfl⟩

theorem MatchBlock.isTupled_parameterValue (v : Value) : v.IsTupled (parameterValue v) := by
  cases v with
  | list vs => exact .list vs
  | _ => exact .other nofun

theorem Settings.compile_sets {r : Request} (hr : r.Valid) {s : Settings} {source : DomainSource}
    {existing : Value} {p : Plan} (h : (s.compile r.draft source existing).result = .ok p) :
    ∃ merged sets keys, Directives.merge r.draft.overrides r.draft.users r.draft.groups = .ok merged ∧
      Directives.Precedence r.directives (r.users.map .text) (r.groups.map .text) merged ∧
      List.Forall₂ Directives.IsSetTo merged sets ∧
      (sets.map Prod.fst).Nodup ∧
      p.matchKeys = .ok keys ∧ keys ≠ [] ∧ ∀ key ∈ keys, p.setsAt key = sets := by
  obtain ⟨-, catalogue, x, known, -, hx, -, rfl⟩ := compile_ok_iff.1 h
  obtain ⟨merged, hmerge, hprec, -⟩ := Directives.merge_precedes hr.stringKeyed_directives
    (.tuple (r.users.map .text)) (.tuple (r.groups.map .text))
  obtain ⟨keys, hk, hmem⟩ := hx.matchKeys_plan hr known
  obtain ⟨c, hc⟩ := List.exists_mem_of_ne_nil _ hr.criteria_ne
  have hparameters : merged = r.parameters.map Request.blockEntry :=
    Except.ok.inj (hmerge.symm.trans r.merge_draft)
  refine ⟨merged, merged.map fun e => (e.1, MatchBlock.parameterValue e.2), keys, hmerge, hprec, ?_, ?_,
    hk, List.ne_nil_of_mem ((hmem _).2 ⟨c, hc, rfl⟩), fun key hkey => ?_⟩
  · exact List.forall₂_map_right_iff.2
      (List.forall₂_same.2 fun e _ => ⟨rfl, MatchBlock.isTupled_parameterValue e.2⟩)
  · rw [List.map_map]
    exact hprec.stringKeyed.nodup
  · obtain ⟨c, hc, rfl⟩ := (hmem key).1 hkey
    rw [hx.setsAt_plan known hc, hparameters]

/-- **The allow lists go over the directives of a request**, for all directives and subjects, and every plan of
a built request sets what results in each of its blocks: the same in all of them, in its order and each
directive once. -/
theorem directives_precede :
    (∀ (m : Mapping) (users groups : Value) (us gs : List Value), StringKeyed m →
      users.Lists us → groups.Lists gs → ∃ merged,
        Directives.merge (.map m) users groups = .ok merged ∧ Directives.Precedence m us gs merged ∧
        Directives.merge (.map merged) users groups = .ok merged) ∧
    ∀ (route : Request.Route) (arguments : Mapping) (label : Option String) (r : Request)
      (s : Settings) (source : DomainSource) (existing : Value) (p : Plan),
      Request.build route arguments label = .ok r →
      (s.compile r.draft source existing).result = .ok p →
      ∃ merged sets keys, Directives.merge r.draft.overrides r.draft.users r.draft.groups = .ok merged ∧
        Directives.Precedence r.directives (r.users.map .text) (r.groups.map .text) merged ∧
        List.Forall₂ Directives.IsSetTo merged sets ∧
        (sets.map Prod.fst).Nodup ∧
        p.matchKeys = .ok keys ∧ keys ≠ [] ∧ ∀ key ∈ keys, p.setsAt key = sets :=
  ⟨fun _ _ _ _ _ hm hu hg => Directives.merge_precedes hm hu hg,
    fun _ _ _ _ _ _ _ _ hr h => Settings.compile_sets (Request.valid_of_build hr) h⟩

/-- Directives at both allow lists, the one for groups first. -/
def crossedDirectives : Mapping := [
  (.text "AllowGroups", .tuple [.text "staff"]), (.text "AcceptEnv", .tuple [.text "LANG"]),
  (.text "AllowUsers", .text "root")]

/-- What they become for a user and no group. -/
def crossedMerged : Mapping := [
  (.text "AllowGroups", .list [.text "staff"]), (.text "AcceptEnv", .list [.text "LANG"]),
  (.text "AllowUsers", .list [.text "alice"])]

/-- The user goes over the one that is there, in its place, and without groups the directive for them stays; and
both blocks of a plan, one of which is known, set what a request makes of such directives. -/
theorem crossedDirectives_precede : StringKeyed crossedDirectives ∧
    Directives.merge (.map crossedDirectives) (.list [.text "alice"]) (.tuple []) = .ok crossedMerged ∧
    Directives.Precedence crossedDirectives [.text "alice"] [] crossedMerged ∧
    Request.build .builder overridingArguments none = .ok overriding ∧
    ∃ p sets keys, ((Settings.ofTree []).compile overriding.draft (.given (.text "prod, ,lab"))
        (.list [.text "Host bastion"])).result = .ok p ∧
      List.Forall₂ Directives.IsSetTo
        [(.text "AllowUsers", .list [.text "alice"]), (.text "AllowGroups", .list [.text "staff"])] sets ∧
      p.matchKeys = .ok keys ∧ ∀ key ∈ keys, p.setsAt key = sets := by
  have hm : StringKeyed crossedDirectives := by decide
  have hmerge : Directives.merge (.map crossedDirectives) (.list [.text "alice"]) (.tuple []) =
      .ok crossedMerged := rfl
  have hr : Request.build .builder overridingArguments none = .ok overriding := by decide
  have hmerge' : Directives.merge overriding.draft.overrides overriding.draft.users
      overriding.draft.groups = .ok [(.text "AllowUsers", .list [.text "alice"]),
        (.text "AllowGroups", .list [.text "staff"])] := rfl
  obtain ⟨p, h⟩ : ∃ p, ((Settings.ofTree []).compile overriding.draft
      (.given (.text "prod, ,lab")) (.list [.text "Host bastion"])).result = .ok p :=
    Outcome.exists_ok (by cbv)
  obtain ⟨_, hmerged, hprec, -⟩ :=
    directives_precede.1 crossedDirectives _ _ _ _ hm (.list [.text "alice"]) (.tuple [])
  obtain ⟨_, sets, keys, hmerged', -, hsets, -, hk, -, hall⟩ :=
    directives_precede.2 _ _ _ _ _ _ _ _ hr h
  cases hmerge.symm.trans hmerged
  cases hmerge'.symm.trans hmerged'
  exact ⟨hm, hmerge, hprec, hr, p, sets, keys, h, hsets, hk, hall⟩

end AccessPlan
