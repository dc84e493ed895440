import AccessPlan.Host
import Mathlib.Data.List.Nodup

/-!
# Mappings by their keys

What writing into a mapping does to its keys and to what is found under a text, and conditions that every
mapping inside a value meets.

* `Mapping.getText?_put`, `Mapping.getText?_put_of_ne`, `Mapping.keys_put`: writing an entry.
* `Mapping.NoTextTwice`, `Mapping.StringKeyed`: no text is a key twice; besides, all keys are texts.
* `Mapping.eq_of_getText?`: the keys in order, and what is found under them, tell a mapping.
* `Value.Throughout`: a condition on every mapping that is reached through mappings.
-/

set_option autoImplicit false

namespace AccessPlan

@[simp] theorem Value.same_text_iff {s : String} {v : Value} : (Value.text s).same v = true ↔ v = .text s := by
  cases v with
  | text t => rw [Value.same_text, beq_iff_eq, Value.text.injEq, eq_comm]
  | _ => exact ⟨nofun, nofun⟩

@[simp] theorem Value.same_right_text_iff {s : String} {v : Value} : v.same (.text s) = true ↔ v = .text s := by
  cases v <;> simp [same]

namespace Mapping

/-! ## Finding under a text -/

@[simp] theorem getText?_cons_self (key : String) (v : Value) (m : Mapping) :
    getText? ((.text key, v) :: m) key = some v := by
  simp [getText?, get?]

theorem getText?_cons_of_ne {k : Value} {key : String} (h : k ≠ .text key) (v : Value) (m : Mapping) :
    getText? ((k, v) :: m) key = getText? m key := by
  have hk : ¬ (Value.text key).same k = true := fun hs => h (Value.same_text_iff.1 hs)
  simp [getText?, get?, hk]

theorem mem_of_getText?_eq_some {m : Mapping} {key : String} {v : Value} (h : getText? m key = some v) :
    (.text key, v) ∈ m := by
  obtain ⟨⟨k, w⟩, hf, rfl⟩ := Option.map_eq_some_iff.1 h
  have hk : (Value.text key).same k = true := by simpa using List.find?_some hf
  cases Value.same_text_iff.1 hk
  exact List.mem_of_find?_eq_some hf

@[simp] theorem getText?_eq_none_iff {m : Mapping} {key : String} :
    getText? m key = none ↔ .text key ∉ keys m := by
  simp only [getText?, get?, Option.map_eq_none_iff, List.find?_eq_none, Value.same_text_iff, keys,
    List.mem_map, not_exists, not_and]

theorem hasKey_eq (m : Mapping) (key : Value) : hasKey m key = (get? m key).isSome := by
  rw [hasKey, get?, Option.isSome_map, List.isSome_find?]

theorem hasKey_eq_any_keys (m : Mapping) (key : Value) : hasKey m key = (keys m).any key.same := by
  rw [keys, List.any_map]
  rfl

@[simp] theorem hasKey_text_iff {m : Mapping} {key : String} : hasKey m (.text key) = true ↔ .text key ∈ keys m := by
  rw [hasKey_eq_any_keys, List.any_eq_true]
  simp

/-! ## Writing -/

@[simp] theorem getText?_put (m : Mapping) (key : String) (v : Value) :
    getText? (put m (.text key) v) key = some v := by
  induction m with
  | nil => exact getText?_cons_self key v []
  | cons e m ih =>
    obtain ⟨k, w⟩ := e
    unfold put
    split
    · next hk =>
      cases Value.same_text_iff.1 hk
      exact getText?_cons_self key v m
    · next hk => rw [getText?_cons_of_ne fun h => hk (Value.same_text_iff.2 h), ih]

theorem getText?_put_of_ne {k : Value} {key : String} (h : k ≠ .text key) (m : Mapping) (v : Value) :
    getText? (put m k v) key = getText? m key := by
  induction m with
  | nil => exact getText?_cons_of_ne h v []
  | cons e m ih =>
    obtain ⟨k', w⟩ := e
    unfold put
    split
    · next hk =>
      have hk' : k' ≠ .text key := by
        rintro rfl
        exact h (Value.same_right_text_iff.1 hk)
      rw [getText?_cons_of_ne hk', getText?_cons_of_ne hk']
    · by_cases hk' : k' = .text key
      · subst hk'
        rw [getText?_cons_self, getText?_cons_self]
      · rw [getText?_cons_of_ne hk', getText?_cons_of_ne hk', ih]

theorem keys_put (m : Mapping) (k v : Value) :
    keys (put m k v) = if hasKey m k = true then keys m else keys m ++ [k] := by
  induction m with
  | nil => rfl
  | cons e m ih =>
    obtain ⟨k', w⟩ := e
    unfold put
    cases hk : k.same k' with
    | true => simp [hk, hasKey, keys]
    | false =>
      simp only [hasKey, keys, List.any_cons, List.map_cons, hk, Bool.false_or] at ih ⊢
      simp only [Bool.false_eq_true, if_false, List.map_cons, ih]
      exact apply_ite (k' :: ·) _ _ _

theorem mem_put {m : Mapping} {k v : Value} {e : Value × Value} (h : e ∈ put m k v) : e.2 = v ∨ e ∈ m := by
  induction m with
  | nil => exact .inl (congrArg Prod.snd (List.mem_singleton.1 h))
  | cons f m ih =>
    unfold put at h
    split at h
    · rcases List.mem_cons.1 h with rfl | h
      · exact .inl rfl
      · exact .inr (List.mem_cons_of_mem f h)
    · rcases List.mem_cons.1 h with rfl | h
      · exact .inr List.mem_cons_self
      · exact (ih h).imp_right (List.mem_cons_of_mem f)

/-! ## Distinct keys -/

/-- No text is a key twice. -/
def NoTextTwice (m : Mapping) : Prop := ((keys m).filterMap Value.text?).Nodup

instance : DecidablePred NoTextTwice := fun _ => inferInstanceAs (Decidable (List.Nodup _))

/-- All keys are texts, and no text is a key twice. -/
structure StringKeyed (m : Mapping) : Prop where
  texts : ∀ k ∈ keys m, ∃ s, k = .text s
  nodup : (keys m).Nodup

theorem StringKeyed.tail {e : Value × Value} {m : Mapping} (h : StringKeyed (e :: m)) : StringKeyed m :=
  ⟨fun k hk => h.texts k (List.mem_cons_of_mem _ hk), (List.nodup_cons.1 h.nodup).2⟩

theorem StringKeyed.hasKey_iff {m : Mapping} (h : StringKeyed m) (m' : Mapping) {k : Value} (hk : k ∈ keys m) :
    hasKey m' k = true ↔ k ∈ keys m' := by
  obtain ⟨s, rfl⟩ := h.texts k hk
  exact hasKey_text_iff

theorem StringKeyed.put_text {m : Mapping} (h : StringKeyed m) (key : String) (v : Value) :
    StringKeyed (put m (.text key) v) := by
  have hkeys := keys_put m (.text key) v
  split at hkeys
  · exact ⟨hkeys ▸ h.texts, hkeys ▸ h.nodup⟩
  · next hk =>
    refine ⟨fun k hk => ?_, hkeys ▸ h.nodup.append (List.nodup_singleton _) ?_⟩
    · rcases List.mem_append.1 (hkeys ▸ hk) with hk | hk
      · exact h.texts k hk
      · exact ⟨key, List.mem_singleton.1 hk⟩
    · simpa using hk

theorem StringKeyed.noTextTwice {m : Mapping} (h : StringKeyed m) : NoTextTwice m :=
  h.nodup.filterMap fun _ _ _ hk hk' => (Value.text?_eq_some hk).trans (Value.text?_eq_some hk').symm

theorem mem_filterMap_text? {ks : List Value} {s : String} : s ∈ ks.filterMap Value.text? ↔ .text s ∈ ks := by
  rw [List.mem_filterMap]
  constructor
  · rintro ⟨k, hk, hs⟩
    exact Value.text?_eq_some hs ▸ hk
  · exact fun h => ⟨_, h, rfl⟩

theorem NoTextTwice.tail {e : Value × Value} {m : Mapping} (h : NoTextTwice (e :: m)) : NoTextTwice m := by
  unfold NoTextTwice at h ⊢
  rw [keys, List.map_cons, List.filterMap_cons] at h
  split at h
  · exact h
  · exact (List.nodup_cons.1 h).2

theorem NoTextTwice.getText?_tail {key : String} {v : Value} {m : Mapping}
    (h : NoTextTwice ((.text key, v) :: m)) : getText? m key = none := by
  unfold NoTextTwice at h
  rw [keys, List.map_cons, List.filterMap_cons_some (by rfl), List.nodup_cons, mem_filterMap_text?] at h
  exact getText?_eq_none_iff.2 h.1

theorem NoTextTwice.put {m : Mapping} (h : NoTextTwice m) (k v : Value) : NoTextTwice (put m k v) := by
  unfold NoTextTwice at h ⊢
  rw [keys_put]
  split
  · exact h
  · next hk =>
    rw [List.filterMap_append]
    refine h.append ?_ fun s hs hs' => ?_
    · exact (List.nodup_singleton k).filterMap fun _ _ _ hk hk' =>
        (Value.text?_eq_some hk).trans (Value.text?_eq_some hk').symm
    · cases List.mem_singleton.1 (mem_filterMap_text?.1 hs')
      exact hk (hasKey_text_iff.2 (mem_filterMap_text?.1 hs))

theorem noTextTwice_putAll (es : List (Value × Value)) {m : Mapping} (h : NoTextTwice m) :
    NoTextTwice (putAll m es) := by
  induction es generalizing m with
  | nil => exact h
  | cons e es ih => exact ih (h.put e.1 e.2)

theorem mem_putAll {es : List (Value × Value)} {m : Mapping} {e : Value × Value} (h : e ∈ putAll m es) :
    (∃ e' ∈ es, e'.2 = e.2) ∨ e ∈ m := by
  induction es generalizing m with
  | nil => exact .inr h
  | cons f es ih =>
    rcases ih h with ⟨e', he', hv⟩ | h
    · exact .inl ⟨e', List.mem_cons_of_mem f he', hv⟩
    · exact (mem_put h).imp_left fun hv => ⟨f, List.mem_cons_self, hv.symm⟩

theorem map_text_filterMap_text? {ks : List Value} (h : ∀ k ∈ ks, k.text?.isSome = true) :
    (ks.filterMap Value.text?).map Value.text = ks := by
  induction ks with
  | nil => rfl
  | cons k ks ih =>
    obtain ⟨hk, hks⟩ := List.forall_mem_cons.1 h
    obtain ⟨s, hs⟩ := Option.isSome_iff_exists.1 hk
    rw [List.filterMap_cons_some hs, List.map_cons, ih hks, ← Value.text?_eq_some hs]

theorem stringKeyed_iff {m : Mapping} :
    StringKeyed m ↔ (∀ k ∈ keys m, k.text?.isSome = true) ∧ NoTextTwice m := by
  constructor
  · refine fun h => ⟨fun k hk => ?_, h.noTextTwice⟩
    obtain ⟨s, rfl⟩ := h.texts k hk
    rfl
  · rintro ⟨htexts, hnodup⟩
    refine ⟨fun k hk => ?_, ?_⟩
    · obtain ⟨s, hs⟩ := Option.isSome_iff_exists.1 (htexts k hk)
      exact ⟨s, Value.text?_eq_some hs⟩
    · rw [← map_text_filterMap_text? htexts]
      exact hnodup.map fun _ _ => Value.text.inj

instance : DecidablePred StringKeyed := fun _ => decidable_of_iff _ stringKeyed_iff.symm

/-- The keys in order, and what is found under each of them, tell a mapping. -/
theorem eq_of_getText? : ∀ {m m' : Mapping}, StringKeyed m → keys m = keys m' →
    (∀ key, getText? m key = getText? m' key) → m = m'
  | [], m', _, hk, _ => (List.map_eq_nil_iff.1 hk.symm).symm
  | (k, v) :: m, [], _, hk, _ => absurd hk (by simp [keys])
  | (k, v) :: m, (k', v') :: m', h, hk, hg => by
    obtain ⟨rfl, hks⟩ : k = k' ∧ keys m = keys m' := List.cons.inj hk
    obtain ⟨s, rfl⟩ := h.texts k List.mem_cons_self
    have hs : Value.text s ∉ keys m := (List.nodup_cons.1 h.nodup).1
    have hv := hg s
    rw [getText?_cons_self, getText?_cons_self, Option.some_inj] at hv
    subst hv
    congr 1
    refine eq_of_getText? h.tail hks fun key => ?_
    by_cases hne : Value.text s = .text key
    · cases hne
      rw [getText?_eq_none_iff.2 hs, getText?_eq_none_iff.2 (hks ▸ hs)]
    · rw [← getText?_cons_of_ne hne v m, hg key, getText?_cons_of_ne hne]

end Mapping

/-! ## Mappings inside a value -/

/-- A condition holds of every mapping that is reached through mappings, the value itself among them. -/
inductive Value.Throughout (P : Mapping → Prop) : Value → Prop
  | map {m : Mapping} : P m → (∀ e ∈ m, Throughout P e.2) → Throughout P (.map m)
  | leaf {v : Value} : (∀ m, v ≠ .map m) → Throughout P v

namespace Value.Throughout

variable {P Q : Mapping → Prop} {m : Mapping}

theorem here (h : (Value.map m).Throughout P) : P m := by
  cases h with
  | map hm => exact hm
  | leaf hv => exact absurd rfl (hv m)

theorem found (h : (Value.map m).Throughout P) {key : String} {v : Value}
    (hv : Mapping.getText? m key = some v) : v.Throughout P := by
  cases h with
  | map _ hm => exact hm _ (Mapping.mem_of_getText?_eq_some hv)
  | leaf hw => exact absurd rfl (hw m)

theorem mono (hPQ : ∀ m, P m → Q m) {v : Value} (h : v.Throughout P) : v.Throughout Q := by
  induction h with
  | map hm _ ih => exact .map (hPQ _ hm) ih
  | leaf hv => exact .leaf hv

end Value.Throughout

namespace Value

mutual

/-- Whether a test holds of every mapping that is reached through mappings. -/
def passes (p : Mapping → Bool) : Value → Bool
  | .map m => p m && allPass p m
  | _ => true
termination_by structural v => v

/-- Whether a test holds throughout the values of entries. -/
def allPass (p : Mapping → Bool) : List (Value × Value) → Bool
  | [] => true
  | (_, v) :: es => passes p v && allPass p es
termination_by structural es => es

end

mutual

theorem throughout_of_passes {p : Mapping → Bool} : ∀ {v : Value}, v.passes p = true →
    v.Throughout (p · = true)
  | .map m, h => by
    obtain ⟨hm, hall⟩ := Bool.and_eq_true_iff.1 h
    exact .map hm (throughout_of_allPass hall)
  | .null, _ | .bool _, _ | .int _, _ | .float _, _ | .text _, _ | .bytes _, _ | .date _, _ | .moment _, _
  | .list _, _ | .tuple _, _ | .set _, _ | .loop _, _ => .leaf (by simp)

theorem throughout_of_allPass {p : Mapping → Bool} : ∀ {es : List (Value × Value)}, allPass p es = true →
    ∀ e ∈ es, e.2.Throughout (p · = true)
  | [], _ => nofun
  | (_, _) :: _, h => by
    obtain ⟨hv, hall⟩ := Bool.and_eq_true_iff.1 h
    exact List.forall_mem_cons.2 ⟨throughout_of_passes hv, throughout_of_allPass hall⟩

end

theorem allPass_iff {p : Mapping → Bool} {es : List (Value × Value)} :
    allPass p es = true ↔ ∀ e ∈ es, e.2.passes p = true := by
  induction es with
  | nil => simp [allPass]
  | cons e es ih => rw [allPass, Bool.and_eq_true, ih, List.forall_mem_cons]

theorem Throughout.passes {p : Mapping → Bool} {v : Value} (h : v.Throughout (p · = true)) :
    v.passes p = true := by
  induction h with
  | map hm _ ih => exact Bool.and_eq_true_iff.2 ⟨hm, allPass_iff.2 ih⟩
  | @leaf v hv =>
    cases v with
    | map m => exact absurd rfl (hv m)
    | _ => rfl

instance (P : Mapping → Prop) [DecidablePred P] : DecidablePred (Throughout P) := fun v =>
  decidable_of_iff (v.passes fun m => decide (P m))
    ⟨fun h => (throughout_of_passes h).mono fun _ => of_decide_eq_true,
      fun h => (h.mono fun _ => decide_eq_true).passes⟩

end Value

end AccessPlan
