import AccessPlan.Proofs.SettingsFiles

/-!
# Layering again

A tree that is made of two layers does not change when one of the layers is merged with it once more, neither
in what it holds nor in the order of its keys at any level.

* `Settings.keys_overlay`, `Settings.stringKeyed_overlay`: the keys of layered mappings.
* `Settings.layer_again_over`, `Settings.layer_again_under`: the upper value over the merged one, and the merged
  value over the lower one.
* `Settings.level_of_lookup?`: which keys stand at a level of a merged tree, and in which order.
* `Settings.overlay_again`: merging again changes nothing.
-/

set_option autoImplicit false

namespace AccessPlan.Settings

open Mapping (getText? hasKey put keys NoTextTwice StringKeyed)

/-! ## Keys of layered mappings -/

/-- The keys of the lower mapping come first, then those of the upper one that are new. -/
theorem keys_overlay {upper : Mapping} (h : StringKeyed upper) (lower : Mapping) :
    keys (overlay upper lower) = keys lower ++ (keys upper).filter fun k => !hasKey lower k := by
  induction upper generalizing lower with
  | nil => exact (List.append_nil _).symm
  | cons e upper ih =>
    obtain ⟨k, v⟩ := e
    have hk : ∀ k' ∈ keys upper, k'.same k = false := by
      intro k' hk'
      obtain ⟨s, rfl⟩ := h.tail.texts k' hk'
      refine Bool.eq_false_iff.2 fun hs => (List.nodup_cons.1 h.nodup).1 ?_
      exact Value.same_text_iff.1 hs ▸ hk'
    have hkeys : ∀ k' ∈ keys upper,
        (!hasKey (put lower k (layer v (lower.get? k))) k') = !hasKey lower k' := by
      intro k' hk'
      rw [Mapping.hasKey_eq_any_keys, Mapping.keys_put, Mapping.hasKey_eq_any_keys lower k']
      split
      · rfl
      · rw [List.any_append, List.any_cons, hk k' hk', List.any_nil, Bool.or_self, Bool.or_false]
    rw [overlay, ih h.tail, List.filter_congr hkeys, Mapping.keys_put]
    show _ = keys lower ++ (k :: keys upper).filter fun k => !hasKey lower k
    cases hlower : hasKey lower k <;> simp [hlower]

theorem stringKeyed_overlay {upper lower : Mapping} (hu : StringKeyed upper) (hl : StringKeyed lower) :
    StringKeyed (overlay upper lower) where
  texts k hk := by
    rw [keys_overlay hu, List.mem_append, List.mem_filter] at hk
    exact hk.elim (hl.texts k) fun hk => hu.texts k hk.1
  nodup := by
    rw [keys_overlay hu]
    refine hl.nodup.append (hu.nodup.filter _) fun k hk hk' => ?_
    rw [List.mem_filter, Bool.not_eq_true'] at hk'
    exact Bool.eq_false_iff.1 hk'.2 ((hl.hasKey_iff lower hk).2 hk)

theorem mem_keys_overlay {upper : Mapping} (h : StringKeyed upper) {lower : Mapping} {k : Value}
    (hk : k ∈ keys upper) : k ∈ keys (overlay upper lower) := by
  rw [keys_overlay h, List.mem_append, List.mem_filter, Bool.not_eq_true']
  by_cases hl : hasKey lower k = true
  · exact .inl ((h.hasKey_iff lower hk).1 hl)
  · exact .inr ⟨hk, Bool.eq_false_iff.2 hl⟩

theorem overlay_nil {m : Mapping} (h : StringKeyed m) : overlay m [] = m := by
  have hnil : StringKeyed [] := ⟨nofun, List.nodup_nil⟩
  refine Mapping.eq_of_getText? (stringKeyed_overlay h hnil) ?_ fun key => ?_
  · rw [keys_overlay h]
    exact List.filter_eq_self.2 fun _ _ => rfl
  · rw [getText?_overlay h.noTextTwice]
    cases getText? m key with
    | none => rfl
    | some v => exact congrArg some (layer_none v)

/-! ## Merging again -/

variable {v w : Value} {under : Option Value}

/-- A value over what it gives over another one. -/
theorem layer_again_over (hv : v.Throughout StringKeyed)
    (hu : ∀ u, under = some u → u.Throughout StringKeyed) :
    layer v (some (layer v under)) = layer v under := by
  induction hv generalizing under with
  | leaf hv => rw [layer_of_not_map hv, layer_of_not_map hv]
  | @map m hm _ ih =>
    have hmap : ∀ lower : Mapping, (Value.map lower).Throughout StringKeyed →
        overlay m (overlay m lower) = overlay m lower := by
      intro lower hlower
      have hmerged := stringKeyed_overlay hm hlower.here
      refine Mapping.eq_of_getText? (stringKeyed_overlay hm hmerged) ?_ fun key => ?_
      · have hnone : ((keys m).filter fun k => !hasKey (overlay m lower) k) = [] := by
          refine List.filter_eq_nil_iff.2 fun k hk => ?_
          rw [(hm.hasKey_iff _ hk).2 (mem_keys_overlay hm hk)]
          exact Bool.false_ne_true
        rw [keys_overlay hm (overlay m lower), hnone, List.append_nil]
      · rw [getText?_overlay hm.noTextTwice (overlay m lower), getText?_overlay hm.noTextTwice lower]
        cases hkey : getText? m key with
        | none => rfl
        | some v =>
          exact congrArg some (ih _ (Mapping.mem_of_getText?_eq_some hkey) fun _ => hlower.found)
    by_cases hlower : ∃ lower, under = some (.map lower)
    · obtain ⟨lower, rfl⟩ := hlower
      exact congrArg Value.map (hmap lower (hu _ rfl))
    · rw [layer_over_not_map (not_exists.1 hlower)]
      have hnil := hmap [] (.map ⟨nofun, List.nodup_nil⟩ nofun)
      rw [overlay_nil hm] at hnil
      exact congrArg Value.map hnil

/-- A value over itself. -/
theorem layer_self (hv : v.Throughout StringKeyed) : layer v (some v) = v := by
  have h : layer v (some (layer v none)) = layer v none := layer_again_over hv nofun
  rwa [layer_none] at h

/-- What a value gives over another one, over that one again. -/
theorem layer_again_under (hv : v.Throughout StringKeyed)
    (hu : ∀ u, under = some u → u.Throughout StringKeyed) :
    layer (layer v under) under = layer v under := by
  induction hv generalizing under with
  | leaf hv => rw [layer_of_not_map hv, layer_of_not_map hv]
  | @map m hm _ ih =>
    by_cases hlower : ∃ lower, under = some (.map lower)
    · obtain ⟨lower, rfl⟩ := hlower
      have hlower := hu _ rfl
      have hmerged := stringKeyed_overlay hm hlower.here
      have hagain := stringKeyed_overlay hmerged hlower.here
      refine congrArg Value.map (Mapping.eq_of_getText? hagain ?_ fun key => ?_)
      · have hnone : ((keys lower).filter fun k => !hasKey lower k) = [] := by
          refine List.filter_eq_nil_iff.2 fun k hk => ?_
          rw [(hlower.here.hasKey_iff _ hk).2 hk]
          exact Bool.false_ne_true
        rw [keys_overlay hmerged, keys_overlay hm, List.filter_append, hnone, List.nil_append,
          List.filter_filter]
        simp only [Bool.and_self]
      · rw [getText?_overlay hmerged.noTextTwice, getText?_overlay hm.noTextTwice]
        cases hkey : getText? m key with
        | none =>
          cases hbelow : getText? lower key with
          | none => rfl
          | some w => exact congrArg some (layer_self (hlower.found hbelow))
        | some v =>
          exact congrArg some (ih _ (Mapping.mem_of_getText?_eq_some hkey) fun _ => hlower.found)
    · rw [layer_over_not_map (not_exists.1 hlower), layer_over_not_map (not_exists.1 hlower)]

/-! ## Levels -/

/-- The mapping at the end of a path in one tree over another. -/
inductive Level (upper lower : Mapping) (path : List String) (level : Mapping) : Prop
  /-- Both trees have a mapping there: the keys of the lower one come first, then the new ones of the upper. -/
  | both {above below : Mapping} : lookup? (.map upper) path = some (.map above) →
    lookup? (.map lower) path = some (.map below) →
    keys level = keys below ++ ((keys above).filter fun k => !hasKey below k) → Level upper lower path level
  /-- Only the upper tree has one. -/
  | above : lookup? (.map upper) path = some (.map level) →
    (∀ below, lookup? (.map lower) path ≠ some (.map below)) → Level upper lower path level
  /-- The path does not end in the upper tree. -/
  | below : lookup? (.map upper) path = none → lookup? (.map lower) path = some (.map level) →
    Level upper lower path level

theorem throughout_of_lookup? {P : Mapping → Prop} {path : List String} (h : v.Throughout P)
    (hv : lookup? v path = some w) : w.Throughout P := by
  induction path generalizing v with
  | nil =>
    cases v <;> cases hv <;> exact h
  | cons key path ih =>
    obtain ⟨m, u, rfl, hkey, hu⟩ := lookup?_cons_eq_some hv
    exact ih (h.found hkey) hu

theorem level_of_lookup? {upper lower level : Mapping} {path : List String}
    (hu : (Value.map upper).Throughout StringKeyed)
    (h : lookup? (.map (overlay upper lower)) path = some (.map level)) : Level upper lower path level := by
  have hn := hu.mono fun _ => StringKeyed.noTextTwice
  have hmerged : layer (.map upper) (some (.map lower)) = .map (overlay upper lower) := rfl
  rw [← hmerged] at h
  cases hup : lookup? (.map upper) path with
  | some w =>
    rw [lookup?_layer_of_reached hn hup, Option.bind_some, Option.some_inj] at h
    by_cases hw : ∃ above, w = .map above
    · obtain ⟨above, rfl⟩ := hw
      by_cases hlow : ∃ below, lookup? (.map lower) path = some (.map below)
      · obtain ⟨below, hlow⟩ := hlow
        rw [hlow] at h
        cases h
        exact .both hup hlow (keys_overlay (throughout_of_lookup? hu hup).here below)
      · rw [layer_over_not_map (not_exists.1 hlow)] at h
        cases h
        exact .above hup (not_exists.1 hlow)
    · rw [layer_of_not_map (not_exists.1 hw)] at h
      exact absurd ⟨level, h⟩ hw
  | none =>
    obtain ⟨before, w, hd⟩ := exists_deepest (.map upper) path
    obtain ⟨hshown, hmasked⟩ := lookup?_layer_of_stopped hn hup hd (some (.map lower))
    by_cases hw : ∃ m, w = .map m
    · obtain ⟨m, hw⟩ := hw
      rw [hshown m hw] at h
      exact .below hup h
    · rw [hmasked (not_exists.1 hw)] at h
      cases h

/-! ## Settings -/

theorem throughout_defaults : (Value.map defaults).Throughout StringKeyed := by decide

/-- **Layering again changes nothing**: neither the merged tree over the lower one, nor the upper one over the
merged tree; at every level the keys of the lower tree come first, then the new ones of the upper. Settings
that are made of the whole tree of other settings are those settings. -/
theorem overlay_again {upper lower : Mapping} (hu : (Value.map upper).Throughout StringKeyed)
    (hl : (Value.map lower).Throughout StringKeyed) :
    overlay (overlay upper lower) lower = overlay upper lower ∧
    overlay upper (overlay upper lower) = overlay upper lower ∧
    (∀ path level, lookup? (.map (overlay upper lower)) path = some (.map level) →
      Level upper lower path level) ∧
    ∀ s, MadeOf upper s → ofValue (.map s.tree) = .ok s := by
  have hlower : ∀ u, some (Value.map lower) = some u → u.Throughout StringKeyed := by
    rintro _ ⟨⟩
    exact hl
  have hdefaults : ∀ u, some (Value.map defaults) = some u → u.Throughout StringKeyed := by
    rintro _ ⟨⟩
    exact throughout_defaults
  refine ⟨Value.map.inj (layer_again_under hu hlower), Value.map.inj (layer_again_over hu hlower),
    fun _ _ => level_of_lookup? hu, fun s hs => ?_⟩
  have htree : overlay (ofTree upper).tree defaults = (ofTree upper).tree :=
    Value.map.inj (layer_again_under hu hdefaults)
  rw [hs.eq, ofValue_map, ofTree, htree]
  rfl

/-- A lower tree, and an upper one that puts a mapping where the lower one has a text and the other way
round. -/
def crossedTrees : Mapping × Mapping :=
  ([(.text "a", .text "x"), (.text "b", .map [(.text "c", .int 1), (.text "d", .int 2)]),
      (.text "e", .map [(.text "f", .null)])],
    [(.text "g", .int 3), (.text "b", .map [(.text "h", .int 4), (.text "d", .int 5)]),
      (.text "e", .text "y"), (.text "a", .map [(.text "i", .int 6)])])

theorem overlay_again_crossed :
    (Value.map crossedTrees.2).Throughout StringKeyed ∧ (Value.map crossedTrees.1).Throughout StringKeyed ∧
    overlay crossedTrees.2 crossedTrees.1 =
      [(.text "a", .map [(.text "i", .int 6)]),
        (.text "b", .map [(.text "c", .int 1), (.text "d", .int 5), (.text "h", .int 4)]),
        (.text "e", .text "y"), (.text "g", .int 3)] ∧
    overlay (overlay crossedTrees.2 crossedTrees.1) crossedTrees.1 = overlay crossedTrees.2 crossedTrees.1 ∧
    overlay crossedTrees.2 (overlay crossedTrees.2 crossedTrees.1) = overlay crossedTrees.2 crossedTrees.1 ∧
    ofValue (.map (ofTree crossedTrees.2).tree) = .ok (ofTree crossedTrees.2) := by
  have hu : (Value.map crossedTrees.2).Throughout StringKeyed := by decide
  have hl : (Value.map crossedTrees.1).Throughout StringKeyed := by decide
  obtain ⟨hunder, hover, -, hmade⟩ := overlay_again hu hl
  exact ⟨hu, hl, rfl, hunder, hover, hmade _ (.value (ofValue_map _))⟩

end AccessPlan.Settings
