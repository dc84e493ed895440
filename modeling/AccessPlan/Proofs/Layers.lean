import AccessPlan.Proofs.Mappings
import AccessPlan.Settings

/-!
# Reading layered settings

Which of two layered trees answers for a path. The upper tree decides by how far the path leads in it
(`Deepest`): to a value at its end, into a value that is no mapping, or to a mapping that lacks the next key.

* `Settings.lookup?_layer_cons`: one step of a path through layered trees.
* `Settings.lookup?_layer_of_reached`, `Settings.lookup?_layer_of_stopped`: a whole path.
* `Settings.Layered`: what layered trees answer for a path; `layered_iff` finds it by walking the one tree
  that the two make.
* `Settings.answersAs_ofTree`: settings answer as the user's tree over the defaults.
-/

set_option autoImplicit false

namespace AccessPlan.Settings

open Mapping (getText? put keys NoTextTwice)

/-! ## Values over values -/

@[simp] theorem layer_none (v : Value) : layer v none = v := by
  cases v <;> rfl

theorem layer_of_not_map {v : Value} (h : ∀ m, v ≠ .map m) (under : Option Value) : layer v under = v := by
  cases v with
  | map m => exact absurd rfl (h m)
  | _ => rfl

theorem layer_over_not_map {under : Option Value} (h : ∀ m, under ≠ some (.map m)) (v : Value) :
    layer v under = v := by
  cases v with
  | map m =>
    unfold layer
    split
    · next lower => exact absurd rfl (h lower)
    · rfl
  | _ => rfl

theorem getText?_overlay {upper : Mapping} (h : NoTextTwice upper) (lower : Mapping) (key : String) :
    getText? (overlay upper lower) key = match getText? upper key with
      | some v => some (layer v (getText? lower key))
      | none => getText? lower key := by
  induction upper generalizing lower with
  | nil => rfl
  | cons e upper ih =>
    obtain ⟨k, v⟩ := e
    rw [overlay, ih h.tail]
    by_cases hk : k = .text key
    · subst hk
      rw [h.getText?_tail, Mapping.getText?_cons_self, Mapping.getText?_put]
      rfl
    · rw [Mapping.getText?_cons_of_ne hk, Mapping.getText?_put_of_ne hk]

/-! ## Paths -/

@[simp] theorem lookup?_cons (m : Mapping) (key : String) (path : List String) :
    lookup? (.map m) (key :: path) = (getText? m key).bind (lookup? · path) := by
  cases hkey : getText? m key <;> simp [lookup?, hkey]

@[simp] theorem lookup?_one (m : Mapping) (key : String) : lookup? (.map m) [key] = getText? m key := by
  rw [lookup?_cons]
  cases getText? m key <;> rfl

theorem lookup?_of_not_map {v : Value} (h : ∀ m, v ≠ .map m) (key : String) (path : List String) :
    lookup? v (key :: path) = none := by
  cases v with
  | map m => exact absurd rfl (h m)
  | _ => rfl

theorem lookup?_cons_eq (v : Value) (key : String) (path : List String) :
    lookup? v (key :: path) = (lookup? v [key]).bind (lookup? · path) := by
  by_cases h : ∃ m, v = .map m
  · obtain ⟨m, rfl⟩ := h
    rw [lookup?_cons, lookup?_cons]
    cases getText? m key <;> rfl
  · rw [not_exists] at h
    rw [lookup?_of_not_map h, lookup?_of_not_map h]
    rfl

variable {v w : Value} {m : Mapping} {key : String} {path before : List String}

theorem lookup?_cons_eq_some (h : lookup? v (key :: path) = some w) :
    ∃ m u, v = .map m ∧ getText? m key = some u ∧ lookup? u path = some w := by
  cases v with
  | map m =>
    rw [lookup?_cons] at h
    obtain ⟨u, hkey, hu⟩ := Option.bind_eq_some_iff.1 h
    exact ⟨m, u, rfl, hkey, hu⟩
  | _ => cases h

/-- One step of a path through a mapping that is laid over something. -/
theorem lookup?_layer_cons (h : NoTextTwice m) (under : Option Value) :
    lookup? (layer (.map m) under) (key :: path) = match getText? m key with
      | some v => lookup? (layer v (under.bind (lookup? · [key]))) path
      | none => under.bind (lookup? · (key :: path)) := by
  by_cases hu : ∃ lower, under = some (.map lower)
  · obtain ⟨lower, rfl⟩ := hu
    rw [layer, lookup?_cons, getText?_overlay h, Option.bind_some, Option.bind_some, lookup?_one]
    cases getText? m key with
    | none => exact (lookup?_cons lower key path).symm
    | some v => rfl
  · rw [not_exists] at hu
    have hnone : ∀ path, under.bind (lookup? · (key :: path)) = none := by
      intro path
      cases under with
      | none => rfl
      | some v => exact lookup?_of_not_map (fun lower hv => hu lower (congrArg some hv)) key path
    rw [layer_over_not_map hu, hnone, hnone, lookup?_cons]
    cases getText? m key with
    | none => rfl
    | some v => exact congrArg (lookup? · path) (layer_none v).symm

theorem bind_lookup?_cons (under : Option Value) (key : String) (path : List String) :
    (under.bind (lookup? · [key])).bind (lookup? · path) = under.bind (lookup? · (key :: path)) := by
  cases under with
  | none => rfl
  | some v => exact (lookup?_cons_eq v key path).symm

/-- A path that the upper value leads to its end leads to what is there, over what the path leads to below. -/
theorem lookup?_layer_of_reached (h : v.Throughout NoTextTwice) (hv : lookup? v path = some w)
    (under : Option Value) :
    lookup? (layer v under) path = some (layer w (under.bind (lookup? · path))) := by
  induction path generalizing v under with
  | nil =>
    cases hv
    cases under <;> rfl
  | cons key path ih =>
    obtain ⟨m, u, rfl, hkey, hu⟩ := lookup?_cons_eq_some hv
    have hrest := ih (h.found hkey) hu (under.bind (lookup? · [key]))
    rw [bind_lookup?_cons] at hrest
    rw [lookup?_layer_cons h.here, hkey]
    exact hrest

/-! ## How far a path leads -/

/-- The longest start of a path that a value leads to the end of, and what is there. -/
structure Deepest (v : Value) (path before : List String) (w : Value) : Prop where
  starts : before <+: path
  reached : lookup? v before = some w
  longest : ∀ start, start <+: path → (lookup? v start).isSome → start.length ≤ before.length

theorem Deepest.step (hkey : getText? m key = some v) (h : Deepest v path before w) :
    Deepest (.map m) (key :: path) (key :: before) w where
  starts := (List.cons_prefix_cons).2 ⟨rfl, h.starts⟩
  reached := by rw [lookup?_cons, hkey, Option.bind_some, h.reached]
  longest start hstart hsome := by
    rcases List.prefix_cons_iff.1 hstart with rfl | ⟨start, rfl, hrest⟩
    · exact Nat.zero_le _
    · rw [lookup?_cons, hkey, Option.bind_some] at hsome
      exact Nat.succ_le_succ (h.longest start hrest hsome)

theorem Deepest.stop (hkey : lookup? v [key] = none) : Deepest v (key :: path) [] v where
  starts := List.nil_prefix
  reached := by cases v <;> rfl
  longest start hstart hsome := by
    rcases List.prefix_cons_iff.1 hstart with rfl | ⟨start, rfl, _⟩
    · exact Nat.le_refl 0
    · rw [lookup?_cons_eq, hkey] at hsome
      cases hsome

theorem exists_deepest (v : Value) (path : List String) : ∃ before w, Deepest v path before w := by
  induction path generalizing v with
  | nil =>
    refine ⟨[], v, List.prefix_rfl, by cases v <;> rfl, fun start hstart _ => ?_⟩
    exact Nat.le_of_eq (congrArg List.length (List.prefix_nil.1 hstart))
  | cons key path ih =>
    cases hkey : lookup? v [key] with
    | none => exact ⟨[], v, .stop hkey⟩
    | some =>
      obtain ⟨m, u, rfl, hkey, -⟩ := lookup?_cons_eq_some hkey
      obtain ⟨before, w, h⟩ := ih u
      exact ⟨key :: before, w, h.step hkey⟩

theorem Deepest.unique {before' : List String} {w' : Value} (h : Deepest v path before w)
    (h' : Deepest v path before' w') : before = before' ∧ w = w' := by
  have hb : before = before' := by
    have hle := h'.longest before h.starts (by rw [h.reached]; rfl)
    have hge := h.longest before' h'.starts (by rw [h'.reached]; rfl)
    have hp := List.prefix_of_prefix_length_le h.starts h'.starts hle
    exact hp.eq_of_length (Nat.le_antisymm hle hge)
  subst hb
  exact ⟨rfl, Option.some_inj.1 (h.reached.symm.trans h'.reached)⟩

/-- A path that the upper value does not lead to its end: what is below shows through a mapping, and through
nothing else. -/
theorem lookup?_layer_of_stopped (h : v.Throughout NoTextTwice) (hv : lookup? v path = none)
    (hd : Deepest v path before w) (under : Option Value) :
    (∀ upper, w = .map upper → lookup? (layer v under) path = under.bind (lookup? · path)) ∧
      ((∀ upper, w ≠ .map upper) → lookup? (layer v under) path = none) := by
  induction path generalizing v under before with
  | nil => cases v <;> cases hv
  | cons key path ih =>
    by_cases hm : ∃ m, v = .map m
    · obtain ⟨m, rfl⟩ := hm
      rw [lookup?_layer_cons h.here]
      rw [lookup?_cons] at hv
      cases hkey : getText? m key with
      | none =>
        obtain ⟨-, rfl⟩ := hd.unique (.stop (by rw [lookup?_one, hkey]))
        exact ⟨fun _ _ => rfl, fun hw => absurd rfl (hw m)⟩
      | some v =>
        rw [hkey, Option.bind_some] at hv
        obtain ⟨before', w', hd'⟩ := exists_deepest v path
        obtain ⟨-, rfl⟩ := hd.unique (hd'.step hkey)
        have hrest := ih (h.found hkey) hv hd' (under.bind (lookup? · [key]))
        rw [bind_lookup?_cons] at hrest
        exact hrest
    · rw [not_exists] at hm
      obtain ⟨-, rfl⟩ := hd.unique (.stop (lookup?_of_not_map hm key []))
      refine ⟨fun upper hw => absurd hw (hm upper), fun _ => ?_⟩
      rw [layer_of_not_map hm, lookup?_of_not_map hm]

/-! ## Answers -/

/-- What a tree over another answers for a path that leads to `there` in the lower tree. -/
inductive Layered (upper : Value) (path : List String) (there : Option Value) (default : Value) :
    Value → Prop
  /-- The path ends in mappings in both trees. -/
  | merged {above below : Mapping} : lookup? upper path = some (.map above) → there = some (.map below) →
    Layered upper path there default (.map (overlay above below))
  /-- The path ends in the upper tree. -/
  | own {v : Value} : lookup? upper path = some v →
    (¬ ∃ above below, v = .map above ∧ there = some (.map below)) → Layered upper path there default v
  /-- The path runs into a value of the upper tree that is no mapping. -/
  | masked {before : List String} {w : Value} : lookup? upper path = none →
    Deepest upper path before w → (∀ m, w ≠ .map m) → Layered upper path there default default
  /-- The path runs out in a mapping of the upper tree. -/
  | shown {before : List String} {m : Mapping} : lookup? upper path = none →
    Deepest upper path before (.map m) → Layered upper path there default (there.getD default)

theorem layer_eq_of_not_both {under : Option Value}
    (h : ¬ ∃ above below, v = .map above ∧ under = some (.map below)) : layer v under = v := by
  by_cases hv : ∃ above, v = .map above
  · obtain ⟨above, hv⟩ := hv
    exact layer_over_not_map (fun below hb => h ⟨above, below, hv, hb⟩) v
  · exact layer_of_not_map (not_exists.1 hv) under

variable {upper default : Value} {under : Option Value}

theorem Layered.eq {answer : Value} (h : upper.Throughout NoTextTwice)
    (hl : Layered upper path (under.bind (lookup? · path)) default answer) :
    (lookup? (layer upper under) path).getD default = answer := by
  cases hl with
  | merged hup hthere =>
    rw [lookup?_layer_of_reached h hup, hthere, Option.getD_some, layer]
  | own hup hboth =>
    rw [lookup?_layer_of_reached h hup, Option.getD_some, layer_eq_of_not_both hboth]
  | masked hup hd hw => rw [(lookup?_layer_of_stopped h hup hd under).2 hw, Option.getD_none]
  | shown hup hd => rw [(lookup?_layer_of_stopped h hup hd under).1 _ rfl]

theorem exists_layered (upper : Value) (path : List String) (there : Option Value) (default : Value) :
    ∃ answer, Layered upper path there default answer := by
  cases hup : lookup? upper path with
  | some v =>
    by_cases hboth : ∃ above below, v = .map above ∧ there = some (.map below)
    · obtain ⟨above, below, rfl, hthere⟩ := hboth
      exact ⟨_, .merged hup hthere⟩
    · exact ⟨v, .own hup hboth⟩
  | none =>
    obtain ⟨before, w, hd⟩ := exists_deepest upper path
    by_cases hw : ∃ m, w = .map m
    · obtain ⟨m, rfl⟩ := hw
      exact ⟨_, .shown hup hd⟩
    · exact ⟨_, .masked hup hd (not_exists.1 hw)⟩

/-- A path in one tree over another leads to what the layers answer. -/
theorem layered_iff (h : upper.Throughout NoTextTwice) {answer : Value} :
    (lookup? (layer upper under) path).getD default = answer ↔
      Layered upper path (under.bind (lookup? · path)) default answer := by
  constructor
  · rintro rfl
    obtain ⟨answer, hl⟩ := exists_layered upper path (under.bind (lookup? · path)) default
    exact hl.eq h ▸ hl
  · exact fun hl => hl.eq h

/-- Settings answer for every path as a user's tree over the defaults. -/
def AnswersAs (s : Settings) (user : Mapping) : Prop :=
  ∀ (path : List String) (default answer : Value), path ≠ [] → (∀ key ∈ path, '.' ∉ key.toList) →
    (s.get (Text.join '.' path) default = answer ↔
      Layered (.map user) path (lookup? (.map defaults) path) default answer)

theorem answersAs_ofTree {user : Mapping} (h : (Value.map user).Throughout NoTextTwice) :
    (ofTree user).AnswersAs user := by
  intro path default answer hne hkeys
  have hl : (lookup? (layer (.map user) (some (.map defaults))) path).getD default = answer ↔ _ :=
    layered_iff h
  rw [layer, Option.bind_some] at hl
  unfold get
  rw [Text.split_join hne hkeys]
  exact hl

end AccessPlan.Settings
